import CredentialEngine.Proofs.Secret.Apart
import CredentialEngine.Proofs.Secret.Folder

/-!
# Where a folder keeps records

A record has a path two steps below the root that is no other record's, or it has none. Its
temporary stands beside it, is nobody else's path or temporary, and is not seen by listing.
-/
namespace CredentialEngine.Secret.Folder

open FileTree

/-! ## Components -/

/-- A name that is one step down from wherever it is joined to a path. -/
structure IsComponent (s : String) : Prop where
  ne_empty : s ≠ ""
  ne_dot : s ≠ "."
  ne_dots : s ≠ ".."
  no_slash : '/' ∉ s.toList
  no_backslash : '\\' ∉ s.toList

theorem IsComponent.step {s : String} (h : IsComponent s) (p : Path) : p.step s = p ++ [s] := by
  rw [Path.step, if_neg (not_or.mpr ⟨h.ne_empty, h.ne_dot⟩), if_neg h.ne_dots]

theorem isComponent_of_chars {s : String} (hne : s ≠ "") (hhead : s.toList.head? ≠ some '.')
    (hchars : ∀ c ∈ s.toList, isNameChar c = true) : IsComponent s where
  ne_empty := hne
  ne_dot he := hhead (he ▸ rfl)
  ne_dots he := hhead (he ▸ rfl)
  no_slash h := absurd (hchars _ h) (by decide)
  no_backslash h := absurd (hchars _ h) (by decide)

/-- What the test of a name finds out about its characters. -/
theorem chars_of_isSegment {s : String} (h : isSegment s = true) :
    s.toList.head? ≠ some '.' ∧ ∀ c ∈ s.toList, isNameChar c = true := by
  simp only [isSegment, Bool.and_eq_true, bne_iff_ne, List.all_eq_true] at h
  exact ⟨h.1.2, h.2⟩

theorem isComponent_of_isSegment {s : String} (h : isSegment s = true) : IsComponent s :=
  isComponent_of_chars (ne_empty_of_isSegment h) (chars_of_isSegment h).1 (chars_of_isSegment h).2

theorem isComponent_json {s : String} (h : isSegment s = true) : IsComponent (s ++ ".json") := by
  obtain ⟨hhead, hchars⟩ := chars_of_isSegment h
  have hne : s.toList ≠ [] := fun he => ne_empty_of_isSegment h (String.toList_eq_nil_iff.mp he)
  have hl : (s ++ ".json").toList = s.toList ++ ".json".toList := String.toList_append
  refine isComponent_of_chars (fun he => ?_) ?_ ?_
  · rw [he] at hl
    exact hne (List.append_eq_nil_iff.mp hl.symm).1
  · rwa [hl, List.head?_append_of_ne_nil _ hne]
  · rw [hl]
    intro c hc
    rcases List.mem_append.mp hc with hc | hc
    · exact hchars c hc
    · exact Text.forall_of_all (p := fun c => isNameChar c = true) (by decide) c hc

/-! ## Paths -/

/-- What is promised of the path of a record: it is the root and two components, and joining these
to the root one after the other leads there. -/
structure Contains (root : Path) (loc : Location) (path : Path) : Prop where
  path_eq : path = root ++ [loc.space, loc.name ++ ".json"]
  space : IsComponent loc.space
  file : IsComponent (loc.name ++ ".json")
  joined : path = (Path.step root loc.space).step (loc.name ++ ".json")

theorem contains_of_isSafe {loc : Location} (h : loc.isSafe = true) (root : Path) :
    Contains root loc (recordPath root loc) := by
  obtain ⟨hs, hn⟩ := Bool.and_eq_true_iff.mp h
  refine ⟨?_, isComponent_of_isSegment hs, isComponent_json hn, ?_⟩
  · rw [recordPath, directory, List.append_assoc, List.singleton_append]
  · rw [(isComponent_of_isSegment hs).step, (isComponent_json hn).step, recordPath, directory]

/-- A location without a path has a name or a namespace that is refused. -/
theorem pathOf_of_not_isSafe {loc : Location} (h : loc.isSafe = false) (root : Path) :
    ∃ s ∈ [loc.name, loc.space], isSegment s = false ∧
      pathOf root loc = .error (.store (.badSegment s : Cause)) := by
  cases hn : isSegment loc.name with
  | false =>
    refine ⟨loc.name, List.mem_cons_self, hn, ?_⟩
    simp only [pathOf, checkSegment, hn, Bool.false_eq_true, if_false, bind, Except.bind]
  | true =>
    have hs : isSegment loc.space = false := by rwa [Location.isSafe, hn, Bool.and_true] at h
    refine ⟨loc.space, List.mem_cons_of_mem _ List.mem_cons_self, hs, ?_⟩
    simp only [pathOf, checkSegment, hn, hs, Bool.false_eq_true, if_true, if_false, bind,
      Except.bind]

theorem pathOf_eq_ok_iff {root : Path} {loc : Location} {path : Path} :
    pathOf root loc = .ok path ↔ loc.isSafe = true ∧ path = recordPath root loc := by
  constructor
  · intro h
    cases hs : loc.isSafe with
    | false =>
      obtain ⟨s, -, -, he⟩ := pathOf_of_not_isSafe hs root
      rw [he] at h
      contradiction
    | true =>
      rw [pathOf_of_isSafe hs] at h
      exact ⟨rfl, (Except.ok.inj h).symm⟩
  · rintro ⟨hs, rfl⟩
    exact pathOf_of_isSafe hs root

theorem directory_concat_inj {root : Path} {s s' x x' : String}
    (h : directory root s ++ [x] = directory root s' ++ [x']) : s = s' ∧ x = x' := by
  rw [directory, directory] at h
  simpa using h

theorem recordPath_inj {root : Path} {loc loc' : Location}
    (h : recordPath root loc = recordPath root loc') : loc = loc' := by
  obtain ⟨hspace, hname⟩ := directory_concat_inj h
  exact congrArg₂ Location.mk hspace (append_json_inj hname)

/-! ## Temporaries -/

/-- A path whose last name has another extension. -/
def withExtension (p : Path) (extension : String) : Path :=
  p.dropLast ++ [stem (p.getLastD "") ++ "." ++ extension]

theorem temporaryOf_eq_withExtension {loc : Location} (h : loc.name ≠ "") (root : Path) :
    temporaryOf root loc = withExtension (recordPath root loc) "json.tmp" := by
  have hstem : stem (loc.name ++ ".json") = loc.name :=
    stem_append h (e := "json".toList) (by decide)
  rw [temporaryOf_eq, withExtension, recordPath, List.dropLast_concat, List.getLastD_concat, hstem,
    String.append_assoc]
  rfl

theorem temporaryOf_inj {root : Path} {loc loc' : Location}
    (h : temporaryOf root loc = temporaryOf root loc') : loc = loc' := by
  rw [temporaryOf_eq, temporaryOf_eq] at h
  obtain ⟨hspace, hname⟩ := directory_concat_inj h
  have hl := congrArg String.toList hname
  rw [String.toList_append, String.toList_append] at hl
  exact congrArg₂ Location.mk hspace (String.toList_inj.mp (List.append_cancel_right hl))

/-- A temporary ends otherwise than every record's file. -/
theorem temporaryOf_ne_recordPath {loc loc' : Location} (h : loc'.name ≠ "") (root : Path) :
    temporaryOf root loc ≠ recordPath root loc' := by
  intro he
  rw [temporaryOf_eq, recordPath] at he
  obtain ⟨-, hname⟩ := directory_concat_inj he
  have hext := extension?_temporary loc.name
  rw [hname, extension?_json h] at hext
  exact absurd hext (by decide)

/-! ## Listing past temporaries -/

/-- Two runs answer alike and leave the folders that they started from. -/
inductive Alike (f f' : Folder) {α : Type} :
    EStateM.Result Halt Folder α → EStateM.Result Halt Folder α → Prop
  | ok (a : α) : Alike f f' (.ok a f) (.ok a f')
  | error (e : Halt) : Alike f f' (.error e f) (.error e f')

theorem Alike.bind {f f' : Folder} {α β : Type} {act act' : Action Folder α}
    {k k' : α → Action Folder β} (h : Alike f f' (act f) (act' f'))
    (hk : ∀ a, Alike f f' (k a f) (k' a f')) : Alike f f' ((act >>= k) f) ((act' >>= k') f') := by
  change Alike f f' (EStateM.bind act k f) (EStateM.bind act' k' f')
  rw [EStateM.bind, EStateM.bind]
  cases hx : act f with
  | ok a g =>
    rw [hx] at h
    cases hy : act' f' with
    | ok a' g' =>
      rw [hy] at h
      cases h
      exact hk a
    | error e g' =>
      rw [hy] at h
      cases h
  | error e g =>
    rw [hx] at h
    cases hy : act' f' with
    | ok a' g' =>
      rw [hy] at h
      cases h
    | error e' g' =>
      rw [hy] at h
      cases h
      exact .error e

/-- The folder without what stands at a path. -/
def without (f : Folder) (p : Path) : Folder :=
  { f with files := f.files.drop p }

section Listing

variable {f f' : Folder} {q : Path}

theorem readRecord_alike {path : Path} (h : f'.files.read path = f.files.read path)
    (loc : Location) : Alike f f' (readRecord path loc f) (readRecord path loc f') := by
  rw [readRecord_eq, readRecord_eq, h]
  cases f.files.read path with
  | ok bytes =>
    simp only []
    cases (Json.ofBytes? bytes).bind Record.ofJson? with
    | some r => exact .ok r
    | none => exact .error _
  | error fault => cases fault <;> exact .error _

/-- Reading the files of a directory passes over a temporary, whatever stands there. -/
theorem readAll_without_temporary (f : Folder) (loc : Location) (space : String)
    (xs : List String) :
    Alike f (f.without (temporaryOf f.root loc)) (readAll (directory f.root space) space xs f)
      (readAll (directory f.root space) space
        (xs.filter fun x => directory f.root space ++ [x] ≠ temporaryOf f.root loc)
        (f.without (temporaryOf f.root loc))) := by
  rw [temporaryOf_eq]
  generalize hq : directory f.root loc.space ++ [loc.name ++ ".json.tmp"] = q
  induction xs with
  | nil => exact .ok []
  | cons x xs ih =>
    by_cases hx : extension? x = some "json"
    · have hne : directory f.root space ++ [x] ≠ q := by
        rintro rfl
        rw [← (directory_concat_inj hq).2, extension?_temporary] at hx
        exact absurd hx (by decide)
      have hprefix : ¬ q <+: directory f.root space ++ [x] := by
        rw [← hq] at hne ⊢
        intro hp
        obtain ⟨hspace, hname⟩ := eq_of_prefix_path hp
        rw [hspace, hname] at hne
        exact hne rfl
      have hread : (f.without q).files.read (directory f.root space ++ [x]) =
          f.files.read (directory f.root space ++ [x]) := (agreeOn_drop f.files hprefix).read
      have hone := readRecord_alike hread ⟨space, stem x⟩
      rw [List.filter_cons_of_pos (by simpa using hne), readAll, readAll, if_pos hx, if_pos hx]
      exact hone.bind fun r => ih.bind fun rs => .ok (r :: rs)
    · have hskip : readAll (directory f.root space) space (x :: xs) f =
          readAll (directory f.root space) space xs f := by
        rw [readAll, if_neg hx]
      rw [hskip]
      by_cases he : directory f.root space ++ [x] = q
      · rwa [List.filter_cons_of_neg (by simpa using he)]
      · rw [List.filter_cons_of_pos (by simpa using he), readAll, if_neg hx]
        exact ih

theorem list_of_not_isSegment {space : String} (hs : isSegment space = false) (selector : Labels)
    (f : Folder) :
    list space selector f = .error (.failed (.store (.badSegment space : Cause))) f := by
  have hc : checkSegment space = .error (.store (.badSegment space : Cause)) :=
    if_neg (by rw [hs]; decide)
  unfold list
  rw [hc]
  rfl

/-- Listing a directory with names reads their files, selects and sorts. -/
theorem list_of_names {space : String} (hs : isSegment space = true) (selector : Labels)
    {names : List String} (h : f.files.names (directory f.root space) = .ok names) :
    list space selector f = (readAll (directory f.root space) space names >>= fun rs =>
      pure ((rs.filter (·.selectedBy selector)).mergeSort fun a b => a.name ≤ b.name)) f := by
  simp only [list_eq hs, h]
  change _ = EStateM.bind (readAll (directory f.root space) space names) _ f
  rw [EStateM.bind]
  cases readAll (directory f.root space) space names f <;> rfl

/-- Listing does not see a temporary. -/
theorem list_without_temporary (f : Folder) (loc : Location) (space : String) (selector : Labels) :
    Alike f (f.without (temporaryOf f.root loc)) (list space selector f)
      (list space selector (f.without (temporaryOf f.root loc))) := by
  cases hs : isSegment space with
  | false =>
    rw [list_of_not_isSegment hs, list_of_not_isSegment hs]
    exact .error _
  | true =>
    have hdrop : (f.without (temporaryOf f.root loc)).files.names (directory f.root space) = _ :=
      names_drop (temporaryOf_eq f.root loc ▸ not_prefix_directory)
    cases hnames : f.files.names (directory f.root space) with
    | error fault =>
      rw [hnames] at hdrop
      have hdrop' : (f.without (temporaryOf f.root loc)).files.names
        (directory (f.without (temporaryOf f.root loc)).root space) = .error fault := hdrop
      rw [list_eq hs, list_eq hs, hnames, hdrop']
      cases fault with
      | missing => exact .ok []
      | _ => exact .error _
    | ok names =>
      rw [hnames] at hdrop
      rw [list_of_names hs selector hnames, list_of_names hs selector hdrop]
      exact (readAll_without_temporary f loc space names).bind fun rs => .ok _

end Listing

/-! ## Containment -/

/-- A location has a path two components below the root, or a name of it is refused. Two locations
with paths have different ones, and the temporary of the first is another location's path or
temporary in no case and is passed over by every listing. -/
theorem paths_contained (root : Path) (loc loc' : Location) :
    ((∃ path, pathOf root loc = .ok path ∧ Contains root loc path) ∨
      ∃ s ∈ [loc.name, loc.space], isSegment s = false ∧
        pathOf root loc = .error (.store (.badSegment s : Cause))) ∧
    ∀ path path', pathOf root loc = .ok path → pathOf root loc' = .ok path' →
      (path = path' → loc = loc') ∧
      temporaryOf root loc = withExtension path "json.tmp" ∧
      temporaryOf root loc ≠ path' ∧
      (temporaryOf root loc = temporaryOf root loc' → loc = loc') ∧
      ∀ files space selector, Alike ⟨files, root⟩ (without ⟨files, root⟩ (temporaryOf root loc))
        (list space selector ⟨files, root⟩)
        (list space selector (without ⟨files, root⟩ (temporaryOf root loc))) := by
  constructor
  · cases hs : loc.isSafe with
    | true => exact .inl ⟨_, pathOf_of_isSafe hs root, contains_of_isSafe hs root⟩
    | false => exact .inr (pathOf_of_not_isSafe hs root)
  · intro path path' h h'
    obtain ⟨hs, rfl⟩ := pathOf_eq_ok_iff.mp h
    obtain ⟨hs', rfl⟩ := pathOf_eq_ok_iff.mp h'
    have hname := ne_empty_of_isSegment (Bool.and_eq_true_iff.mp hs).2
    have hname' := ne_empty_of_isSegment (Bool.and_eq_true_iff.mp hs').2
    exact ⟨recordPath_inj, temporaryOf_eq_withExtension hname root,
      temporaryOf_ne_recordPath hname' root, temporaryOf_inj,
      fun files space selector => list_without_temporary ⟨files, root⟩ loc space selector⟩

/-- A record with the name of another one's temporary. -/
theorem paths_contained_nested :
    pathOf ["secrets"] ⟨"tenants", "shop"⟩ = .ok ["secrets", "tenants", "shop.json"] ∧
    pathOf ["secrets"] ⟨"tenants", "shop.json.tmp"⟩ =
      .ok ["secrets", "tenants", "shop.json.tmp.json"] ∧
    Contains ["secrets"] ⟨"tenants", "shop"⟩ ["secrets", "tenants", "shop.json"] ∧
    temporaryOf ["secrets"] ⟨"tenants", "shop"⟩ ≠ ["secrets", "tenants", "shop.json.tmp.json"] ∧
    temporaryOf ["secrets"] ⟨"tenants", "shop"⟩ ≠
      temporaryOf ["secrets"] ⟨"tenants", "shop.json.tmp"⟩ := by
  have hpath : pathOf ["secrets"] ⟨"tenants", "shop"⟩ = .ok ["secrets", "tenants", "shop.json"] :=
    pathOf_of_isSafe (by decide +kernel) _
  have hpath' : pathOf ["secrets"] ⟨"tenants", "shop.json.tmp"⟩ =
      .ok ["secrets", "tenants", "shop.json.tmp.json"] := pathOf_of_isSafe (by decide +kernel) _
  obtain ⟨hkept, hapart⟩ := paths_contained ["secrets"] ⟨"tenants", "shop"⟩
    ⟨"tenants", "shop.json.tmp"⟩
  obtain ⟨-, -, hother, htemporary, -⟩ := hapart _ _ hpath hpath'
  refine ⟨hpath, hpath', ?_, hother, fun he => absurd (htemporary he) (by decide)⟩
  rcases hkept with ⟨path, hp, hc⟩ | ⟨s, -, -, he⟩
  · rw [hpath] at hp
    exact Except.ok.inj hp ▸ hc
  · rw [hpath] at he
    contradiction

end CredentialEngine.Secret.Folder
