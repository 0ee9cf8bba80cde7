import CredentialEngine.Proofs.FileTree
import CredentialEngine.Proofs.Secret.Record
import CredentialEngine.Proofs.Secret.Table
import CredentialEngine.Secret.Folder

/-!
# A folder that represents a table

A folder represents a table when the file of every record holds its document and every other file
beside one is a temporary. Each operation on a folder either reports a fault of the file system or
answers as the table does, and what it leaves again represents what the table becomes.
-/
namespace CredentialEngine

/-- An error that tells of a file operation which failed, and not for want of the file. -/
def Halt.reportsFault : Halt → Bool
  | .failed (.store ⟨_, .file fault⟩) => fault ≠ .missing
  | .failed (.store ⟨_, .unreadableSecret _ fault⟩) => fault ≠ .missing
  | _ => false

namespace Secret

/-- The namespace and the name may stand in paths. -/
def Location.isSafe (loc : Location) : Bool :=
  Folder.isSegment loc.space && Folder.isSegment loc.name

namespace Folder

open FileTree

/-- Where a folder keeps the records of a namespace. -/
def directory (root : Path) (space : String) : Path :=
  root ++ [space]

/-- The file of a record. -/
def recordPath (root : Path) (loc : Location) : Path :=
  directory root loc.space ++ [loc.name ++ ".json"]

theorem ne_empty_of_isSegment {s : String} (h : isSegment s = true) : s ≠ "" := by
  intro he
  subst he
  exact absurd h (by decide)

theorem pathOf_of_isSafe {loc : Location} (h : loc.isSafe = true) (root : Path) :
    pathOf root loc = .ok (recordPath root loc) := by
  obtain ⟨hs, hn⟩ := Bool.and_eq_true_iff.mp h
  simp only [pathOf, checkSegment, hs, hn, if_true, bind, Except.bind, pure, Except.pure,
    recordPath, directory, List.append_assoc, List.singleton_append]

theorem temporaryOf_eq (root : Path) (loc : Location) :
    temporaryOf root loc = directory root loc.space ++ [loc.name ++ ".json.tmp"] := by
  rw [temporaryOf, directory, List.append_assoc, List.singleton_append]

theorem extension?_json {s : String} (hs : s ≠ "") : extension? (s ++ ".json") = some "json" :=
  extension?_append hs (e := "json".toList) (by decide)

theorem extension?_temporary (s : String) : extension? (s ++ ".json.tmp") = some "tmp" := by
  have hs : s ++ ".json" ≠ "" := by
    intro he
    have hl := congrArg String.toList he
    rw [String.toList_append] at hl
    simp at hl
  have he := extension?_append hs (e := "tmp".toList) (by decide)
  rwa [String.append_assoc] at he

theorem append_json_inj {s s' : String} (h : s ++ ".json" = s' ++ ".json") : s = s' := by
  have hl := congrArg String.toList h
  rw [String.toList_append, String.toList_append] at hl
  exact String.toList_inj.mp (List.append_cancel_right hl)

/-- Paths below namespace directories are as long as each other, so none leads through another. -/
theorem eq_of_prefix_path {root : Path} {s s' x x' : String}
    (h : directory root s ++ [x] <+: directory root s' ++ [x']) : s = s' ∧ x = x' := by
  have he := h.eq_of_length (by simp [directory])
  rw [directory, directory] at he
  simpa using he

theorem not_prefix_directory {root : Path} {s s' x : String} :
    ¬ directory root s ++ [x] <+: directory root s' := by
  intro h
  have hle := h.length_le
  simp [directory] at hle

/-- The folder's files below the root are the documents of the table's records and temporaries. -/
structure Represents (root : Path) (f : Folder) (t : Table) : Prop where
  root_eq : f.root = root
  distinct : f.files.Distinct
  safe : ∀ r ∈ t.records, r.location.isSafe = true
  present : ∀ r ∈ t.records, ∃ mode,
    f.files.resolve [] (recordPath root r.location) = .ok (.file r.document mode)
  named : ∀ space x n, f.files.node? (directory root space ++ [x]) = some n →
    (∃ r ∈ t.records, r.space = space ∧ x = r.name ++ ".json") ∨ extension? x = some "tmp"

/-- The folder answers as the table does, or it reports a fault. -/
inductive Agrees (root : Path) {α : Type} :
    EStateM.Result Halt Folder α → EStateM.Result Halt Table α → Prop
  | ok {a : α} {f : Folder} {t : Table} (h : Represents root f t) : Agrees root (.ok a f) (.ok a t)
  | error {e : Halt} {f : Folder} {t : Table} (h : Represents root f t) :
    Agrees root (.error e f) (.error e t)
  | fault {e : Halt} {f : Folder} {y : EStateM.Result Halt Table α} (h : e.reportsFault = true) :
    Agrees root (.error e f) y

section Steps

variable {root : Path} {f : Folder} {t : Table}

theorem Represents.name_ne_empty (h : Represents root f t) {r : Record} (hr : r ∈ t.records) :
    r.name ≠ "" :=
  ne_empty_of_isSegment (Bool.and_eq_true_iff.mp (h.safe r hr)).2

/-- The directory of a record is there. -/
theorem Represents.directory_ok (h : Represents root f t) {r : Record} (hr : r ∈ t.records) :
    f.files.resolve [] (directory root r.space) = .ok .dir := by
  obtain ⟨mode, hp⟩ := h.present r hr
  exact (resolve_concat_ok.mp hp).1

/-- Where the table has no record, the folder's path leads nowhere. -/
theorem Represents.absent (h : Represents root f t) {loc : Location} (hs : loc.isSafe = true)
    (hn : t.find? loc = none) : ∃ fault, f.files.resolve [] (recordPath root loc) = .error fault := by
  cases hr : f.files.resolve [] (recordPath root loc) with
  | error fault => exact ⟨fault, rfl⟩
  | ok n =>
    obtain ⟨-, -, hnode⟩ := resolve_concat_ok.mp hr
    rcases h.named _ _ n hnode with ⟨r, hr, hspace, hname⟩ | htmp
    · have hl : r.location = loc := by
        rw [Record.location, hspace, ← append_json_inj hname]
      exact absurd hl (Table.find?_eq_none_iff.mp hn r hr)
    · have hne := ne_empty_of_isSegment (Bool.and_eq_true_iff.mp hs).2
      rw [extension?_json hne] at htmp
      exact absurd htmp (by decide)

/-! ## Reading -/

theorem locate_eq {loc : Location} (hs : loc.isSafe = true) (f : Folder) :
    locate loc f = .ok (recordPath f.root loc) f := by
  change Action.ofExcept (pathOf f.root loc) f = _
  rw [pathOf_of_isSafe hs]
  rfl

/-- Reading a record reads its file and the record in the file's document. -/
theorem readRecord_eq (path : Path) (loc : Location) (f : Folder) :
    readRecord path loc f =
      match f.files.read path with
      | .ok bytes =>
        match (Json.ofBytes? bytes).bind Record.ofJson? with
        | some r => .ok r f
        | none => .error (.failed (.store (.corruptSecret loc : Cause))) f
      | .error .missing => .error (.failed (.secretNotFound loc)) f
      | .error fault => .error (.failed (.store (.unreadableSecret loc fault : Cause))) f := by
  have htree : tree f = .ok f.files f := rfl
  unfold readRecord
  change EStateM.bind tree _ f = _
  rw [EStateM.bind, htree]
  simp only []
  generalize f.files.read path = o
  cases o with
  | ok bytes =>
    simp only []
    generalize (Json.ofBytes? bytes).bind Record.ofJson? = r?
    cases r? <;> rfl
  | error fault => cases fault <;> rfl

theorem readRecord_of_read {path : Path} {r : Record} (loc : Location)
    (h : f.files.read path = .ok r.document) : readRecord path loc f = .ok r f := by
  simp only [readRecord_eq, h, r.ofJson?_document]

theorem Represents.readRecord_ok (h : Represents root f t) {r : Record} (hr : r ∈ t.records)
    (loc : Location) : readRecord (recordPath root r.location) loc f = .ok r f := by
  obtain ⟨mode, hp⟩ := h.present r hr
  refine readRecord_of_read loc ?_
  rw [FileTree.read, hp]

theorem get_agrees (h : Represents root f t) {loc : Location} (hs : loc.isSafe = true) :
    Agrees root (get loc f) (Table.get loc t) := by
  have hget : get loc f = readRecord (recordPath root loc) loc f := by
    change EStateM.bind (locate loc) (fun path => readRecord path loc) f = _
    rw [EStateM.bind, locate_eq hs, h.root_eq]
  rw [hget, Table.get_eq]
  cases hf : t.find? loc with
  | some r =>
    obtain ⟨hr, rfl⟩ := Table.found hf
    rw [h.readRecord_ok hr]
    exact .ok h
  | none =>
    obtain ⟨fault, hp⟩ := h.absent hs hf
    have hread : f.files.read (recordPath root loc) = .error fault := by
      rw [FileTree.read, hp]
    rw [readRecord_eq, hread]
    cases fault with
    | missing => exact .error h
    | _ => exact .fault rfl

/-! ## Listing -/

/-- Reading the files of a directory gives the records of the namespace, one for each document. -/
theorem Represents.readAll_ok (h : Represents root f t) (space : String) (xs : List String)
    (hxs : ∀ x ∈ xs, ∃ n, f.files.node? (directory root space ++ [x]) = some n) :
    ∃ rs, readAll (directory root space) space xs f = .ok rs f ∧
      rs.map (fun r => r.name ++ ".json") = xs.filter (fun x => extension? x = some "json") ∧
      ∀ r ∈ rs, r ∈ t.records ∧ r.space = space := by
  induction xs with
  | nil => exact ⟨[], rfl, rfl, nofun⟩
  | cons x xs ih =>
    rw [List.forall_mem_cons] at hxs
    obtain ⟨rs, hread, hnames, hrs⟩ := ih hxs.2
    obtain ⟨n, hn⟩ := hxs.1
    rw [readAll]
    by_cases hx : extension? x = some "json"
    · have hmem : ∃ r ∈ t.records, r.space = space ∧ x = r.name ++ ".json" := by
        refine (h.named space x n hn).resolve_right fun htmp => ?_
        rw [hx] at htmp
        exact absurd htmp (by decide)
      obtain ⟨r, hr, rfl, rfl⟩ := hmem
      have hone := h.readRecord_ok hr ⟨r.space, stem (r.name ++ ".json")⟩
      refine ⟨r :: rs, ?_, ?_, List.forall_mem_cons.mpr ⟨⟨hr, rfl⟩, hrs⟩⟩
      · rw [if_pos hx]
        change EStateM.bind (readRecord (recordPath root r.location) _) _ f = _
        rw [EStateM.bind, hone]
        change EStateM.bind (readAll (directory root r.space) r.space xs) _ f = _
        rw [EStateM.bind, hread]
        rfl
      · rw [List.map_cons, hnames, List.filter_cons_of_pos (by rw [hx]; decide)]
    · refine ⟨rs, ?_, ?_, hrs⟩
      · rw [if_neg hx]
        exact hread
      · rw [hnames, List.filter_cons_of_neg (by rw [decide_eq_true_eq]; exact hx)]

/-- Sorting by names that are all different depends on what is sorted alone. -/
theorem mergeSort_eq_of_perm {rs rs' : List Record} (hp : rs.Perm rs')
    (hn : ∀ r ∈ rs, ∀ r' ∈ rs, r.name = r'.name → r = r') :
    (rs.mergeSort fun a b => a.name ≤ b.name) = rs'.mergeSort fun a b => a.name ≤ b.name := by
  have htrans : ∀ a b c : Record, decide (a.name ≤ b.name) = true → decide (b.name ≤ c.name) = true →
      decide (a.name ≤ c.name) = true := by
    intro a b c hab hbc
    exact decide_eq_true (String.le_trans (of_decide_eq_true hab) (of_decide_eq_true hbc))
  have htotal : ∀ a b : Record, (decide (a.name ≤ b.name) || decide (b.name ≤ a.name)) = true := by
    intro a b
    rw [Bool.or_eq_true, decide_eq_true_eq, decide_eq_true_eq]
    exact String.le_total a.name b.name
  refine List.Perm.eq_of_pairwise ?_ (List.pairwise_mergeSort htrans htotal rs)
    (List.pairwise_mergeSort htrans htotal rs')
    (((List.mergeSort_perm rs _).trans hp).trans (List.mergeSort_perm rs' _).symm)
  intro a b ha hb hab hba
  rw [List.mem_mergeSort] at ha hb
  exact hn a ha b (hp.mem_iff.mpr hb)
    (String.le_antisymm (of_decide_eq_true hab) (of_decide_eq_true hba))

/-- The records read from a directory are those that the table has in the namespace. -/
theorem Represents.perm_records (h : Represents root f t) {space : String} {xs : List String}
    (hxs : f.files.names (directory root space) = .ok xs) {rs : List Record}
    (hnames : rs.map (fun r => r.name ++ ".json") =
      xs.filter (fun x => extension? x = some "json"))
    (hrs : ∀ r ∈ rs, r ∈ t.records ∧ r.space = space) :
    rs.Perm (t.records.filter fun r => r.space == space) := by
  obtain ⟨hmem, hnodup⟩ := names_ok hxs
  have hmap : (rs.map fun r => r.name ++ ".json").Nodup := by
    rw [hnames]
    exact (hnodup h.distinct).filter _
  refine (List.perm_ext_iff_of_nodup hmap.of_map ((t.distinct.of_map _).filter _)).mpr fun r => ?_
  rw [List.mem_filter, beq_iff_eq]
  constructor
  · exact hrs r
  · rintro ⟨hr, rfl⟩
    obtain ⟨mode, hp⟩ := h.present r hr
    have hx : r.name ++ ".json" ∈ xs.filter (fun x => extension? x = some "json") := by
      rw [List.mem_filter, hmem]
      refine ⟨⟨_, (resolve_concat_ok.mp hp).2.2⟩, ?_⟩
      exact decide_eq_true (extension?_json (h.name_ne_empty hr))
    rw [← hnames] at hx
    obtain ⟨r', hr', hname⟩ := List.mem_map.mp hx
    obtain ⟨hm, hspace⟩ := hrs r' hr'
    have hl : r'.location = r.location := by
      rw [Record.location, Record.location, hspace, append_json_inj hname]
    rwa [← Table.eq_of_location_eq hm hr hl]

theorem list_eq {space : String} (hs : isSegment space = true) (selector : Labels) (f : Folder) :
    list space selector f =
      match f.files.names (directory f.root space) with
      | .error .missing => .ok [] f
      | .error fault => .error (.failed (.store (.file fault : Cause))) f
      | .ok names =>
        match readAll (directory f.root space) space names f with
        | .ok rs f =>
          .ok ((rs.filter fun r => r.selectedBy selector).mergeSort fun a b => a.name ≤ b.name) f
        | .error e f => .error e f := by
  have hc : checkSegment space = .ok space := if_pos hs
  unfold list
  rw [hc]
  change (match f.files.names (directory f.root space) with
    | .error .missing => (pure [] : Action Folder (List Record))
    | .error fault => Action.fail (.store (.file fault : Cause))
    | .ok names => _) f = _
  cases f.files.names (directory f.root space) with
  | error fault => cases fault <;> rfl
  | ok names =>
    change EStateM.bind (readAll (directory f.root space) space names) _ f = _
    rw [EStateM.bind]
    cases hr : readAll (directory f.root space) space names f with
    | ok rs f' => simp only [hr]; rfl
    | error e f' => simp only [hr]

/-- The records that a folder lists are those that the table selects. -/
theorem Represents.list_cases (h : Represents root f t) {space : String}
    (hs : isSegment space = true) (selector : Labels) :
    list space selector f = .ok (t.selected space selector) f ∨
      ∃ e, e.reportsFault = true ∧ list space selector f = .error e f := by
  rw [list_eq hs, h.root_eq]
  cases hx : f.files.names (directory root space) with
  | ok xs =>
    obtain ⟨rs, hread, hnames, hrs⟩ := h.readAll_ok space xs fun x hxs => ((names_ok hx).1 x).mp hxs
    have hp := (h.perm_records hx hnames hrs).filter fun r => r.selectedBy selector
    have hsort := mergeSort_eq_of_perm hp fun r hr r' hr' hn => by
      obtain ⟨hm, hspace⟩ := hrs r (List.mem_filter.mp hr).1
      obtain ⟨hm', hspace'⟩ := hrs r' (List.mem_filter.mp hr').1
      refine Table.eq_of_location_eq hm hm' ?_
      rw [Record.location, Record.location, hspace, hspace', hn]
    left
    simp only [hread, hsort, Table.selected, List.filter_filter, Bool.and_comm]
  | error fault =>
    cases fault with
    | missing =>
      -- no record can be in a namespace without a directory
      have hnone : t.selected space selector = [] := by
        refine List.eq_nil_iff_forall_not_mem.mpr fun r hr => ?_
        obtain ⟨hm, rfl, -⟩ := Table.mem_selected.mp hr
        obtain ⟨xs, hxs⟩ := names_of_resolve.1 (h.directory_ok hm)
        rw [hxs] at hx
        contradiction
      rw [hnone]
      exact .inl rfl
    | _ => exact .inr ⟨_, rfl, rfl⟩

theorem list_agrees (h : Represents root f t) {space : String} (hs : isSegment space = true)
    (selector : Labels) : Agrees root (list space selector f) (Table.list space selector t) := by
  rw [Table.list_eq]
  rcases h.list_cases hs selector with hl | ⟨e, he, hl⟩
  · rw [hl]
    exact .ok h
  · rw [hl]
    exact .fault he

/-! ## Writing -/

theorem isTaken_eq (path : Path) (f : Folder) :
    isTaken path f =
      match f.files.resolve [] path with
      | .ok _ => .ok true f
      | .error .missing => .ok false f
      | .error fault => .error (.failed (.store (.file fault : Cause))) f := by
  have htree : tree f = .ok f.files f := rfl
  unfold isTaken
  change EStateM.bind tree _ f = _
  rw [EStateM.bind, htree]
  simp only [leads]
  cases f.files.resolve [] path with
  | ok n => rfl
  | error fault => cases fault <;> rfl

theorem change_eq (g : FileTree → Except FileFault FileTree) (f : Folder) :
    change g f =
      match g f.files with
      | .ok t => .ok () { f with files := t }
      | .error fault => .error (.failed (.store (.file fault : Cause))) f := by
  change (match g f.files with
    | .ok t => setTree t
    | .error fault => Action.fail (.store (.file fault : Cause))) f = _
  cases g f.files <;> rfl

theorem writeRecord_eq (path : Path) (r : Record) (f : Folder) :
    writeRecord path r f =
      EStateM.bind (change fun t => t.makeDir [] path.dropLast) (fun _ =>
        EStateM.bind (change fun t =>
            t.write (temporaryOf f.root r.location) r.document privateMode) fun _ =>
          change fun t => t.moveFile (temporaryOf f.root r.location) path) f := rfl

theorem not_prefix_temporary (root : Path) (loc : Location) {loc' : Location} (hs : loc'.isSafe = true) :
    ¬ directory root loc.space ++ [loc.name ++ ".json.tmp"] <+: recordPath root loc' := by
  intro hp
  have hx := extension?_temporary loc.name
  rw [(eq_of_prefix_path hp).2,
    extension?_json (ne_empty_of_isSegment (Bool.and_eq_true_iff.mp hs).2)] at hx
  exact absurd hx (by decide)

theorem not_prefix_recordPath {loc loc' : Location} (hne : loc ≠ loc') :
    ¬ recordPath root loc <+: recordPath root loc' := by
  intro hp
  obtain ⟨hspace, hname⟩ := eq_of_prefix_path hp
  refine hne ?_
  cases loc
  cases loc'
  rw [Location.mk.injEq]
  exact ⟨hspace, append_json_inj hname⟩

/-- A tree with all that was there, some directories, and a new document by way of its temporary. -/
theorem Represents.written (h : Represents root f t) {r : Record} (hs : r.location.isSafe = true)
    {t₁ : FileTree} (hmake : f.files.makeDir [] (directory root r.space) = .ok t₁)
    {mode : Nat} (hsize : (r.name ++ ".json").utf8ByteSize ≤ nameLimit) :
    Represents root
      { f with files := (((t₁.put (directory root r.space ++ [r.name ++ ".json.tmp"])
        (.file r.document mode)).drop (directory root r.space ++ [r.name ++ ".json.tmp"])).put
          (recordPath root r.location) (.file r.document mode)) } (t.put r) := by
  obtain ⟨hkeep, hadd, hres, hdist⟩ := makeDir_ok f.files.node?_nil hmake
  refine ⟨h.root_eq, ((hdist h.distinct).put _ _).drop _ |>.put _ _, fun r' hr' => ?_,
    fun r' hr' => ?_, fun space x n hn => ?_⟩
  · rcases Table.mem_put.mp hr' with rfl | ⟨hr', -⟩
    · exact hs
    · exact h.safe r' hr'
  · rcases Table.mem_put.mp hr' with rfl | ⟨hr', hne⟩
    · refine ⟨mode, resolve_concat_ok.mpr ⟨?_, hsize, ?_⟩⟩
      · exact resolve_put not_prefix_directory (resolve_drop not_prefix_directory
          (resolve_put not_prefix_directory hres))
      · rw [node?_put _ _ _ (by simp)]
        exact if_pos rfl
    · obtain ⟨mode', hp⟩ := h.present r' hr'
      have htmp := not_prefix_temporary root r.location (h.safe r' hr')
      have hp₁ := resolve_mono (fun q m _ _ hm => hkeep q m hm) hp
      exact ⟨mode', resolve_put (not_prefix_recordPath hne.symm)
        (resolve_drop htmp (resolve_put htmp hp₁))⟩
  · rw [node?_put _ _ _ (by simp)] at hn
    by_cases hpath : directory root space ++ [x] = recordPath root r.location
    · have hp : directory root space ++ [x] <+: recordPath root r.location :=
        hpath ▸ List.prefix_refl _
      obtain ⟨hspace, hx⟩ := eq_of_prefix_path hp
      exact .inl ⟨r, Table.mem_put.mpr (.inl rfl), hspace.symm, hx⟩
    rw [if_neg hpath, node?_drop _ _ (by simp)] at hn
    split at hn
    · contradiction
    rename_i htmp
    rw [node?_put _ _ _ (by simp), if_neg htmp] at hn
    rcases hadd _ n hn with hn | ⟨way, hway, he⟩
    · refine (h.named space x n hn).imp_left fun ⟨r', hr', hspace, hx⟩ => ?_
      refine ⟨r', Table.mem_put.mpr (.inr ⟨hr', fun hl => hpath ?_⟩), hspace, hx⟩
      rw [← hl, hx, ← hspace]
      rfl
    · have hle := hway.length_le
      rw [List.nil_append] at he
      rw [← he] at hle
      simp [directory] at hle

/-- A document is written to the temporary and moved over the record's file. -/
theorem Represents.writeRecord_cases (h : Represents root f t) {r : Record}
    (hs : r.location.isSafe = true) :
    (∃ f', writeRecord (recordPath root r.location) r f = .ok () f' ∧
      Represents root f' (t.put r)) ∨
      ∃ e f', e.reportsFault = true ∧ writeRecord (recordPath root r.location) r f = .error e f' := by
  have hfault : ∀ fault : FileFault, fault ≠ .missing →
      (Halt.failed (.store (.file fault : Cause))).reportsFault = true :=
    fun fault hne => decide_eq_true hne
  rw [writeRecord_eq, h.root_eq, temporaryOf_eq, recordPath, List.dropLast_concat, EStateM.bind,
    change_eq]
  set dir := directory root r.location.space with hdir
  cases hmake : f.files.makeDir [] dir with
  | error fault =>
    have hne : fault ≠ .missing := fun he => makeDir_ne_missing _ _ _ (he ▸ hmake)
    exact .inr ⟨_, _, hfault fault hne, rfl⟩
  | ok t₁ =>
    obtain ⟨hkeep, hadd, hres, hdist⟩ := makeDir_ok f.files.node?_nil hmake
    simp only [EStateM.bind]
    rw [change_eq]
    rcases write_cases (x := r.location.name ++ ".json.tmp") hres r.document privateMode with
      ⟨mode, hsize, hwrite⟩ | ⟨fault, hne, hwrite⟩
    · rw [hwrite]
      have hdir : (t₁.put (dir ++ [r.location.name ++ ".json.tmp"])
          (.file r.document mode)).resolve [] dir = .ok .dir := resolve_put not_prefix_directory hres
      have htmp : (t₁.put (dir ++ [r.location.name ++ ".json.tmp"])
          (.file r.document mode)).resolve [] (dir ++ [r.location.name ++ ".json.tmp"]) =
            .ok (.file r.document mode) := by
        refine resolve_concat_ok.mpr ⟨hdir, hsize, ?_⟩
        rw [node?_put _ _ _ (by simp), if_pos rfl]
      simp only [change_eq]
      rcases moveFile_cases (y := r.location.name ++ ".json") hdir htmp with
        ⟨hlong, hmove⟩ | ⟨fault, hne, hmove⟩
      · rw [hmove]
        exact .inl ⟨_, rfl, h.written hs hmake hlong⟩
      · rw [hmove]
        exact .inr ⟨_, _, hfault fault hne, rfl⟩
    · rw [hwrite]
      exact .inr ⟨_, _, hfault fault hne, rfl⟩

theorem create_agrees (h : Represents root f t) {r : Record} (hs : r.location.isSafe = true) :
    Agrees root (create r f) (Table.create r t) := by
  have hcreate : create r f = EStateM.bind (isTaken (recordPath root r.location)) (fun taken =>
      if taken then Action.fail (.store (.secretExists r.location : Cause))
      else writeRecord (recordPath root r.location) r) f := by
    change EStateM.bind (locate r.location) _ f = _
    rw [EStateM.bind, locate_eq hs, h.root_eq]
    rfl
  rw [hcreate, Table.create_eq, EStateM.bind, isTaken_eq]
  cases hf : t.find? r.location with
  | some r' =>
    obtain ⟨hr', hl⟩ := Table.found hf
    obtain ⟨mode, hp⟩ := h.present r' hr'
    rw [← hl, hp]
    exact .error h
  | none =>
    obtain ⟨fault, hp⟩ := h.absent hs hf
    rw [hp]
    cases fault with
    | missing =>
      change Agrees root (writeRecord (recordPath root r.location) r f) _
      rcases h.writeRecord_cases hs with ⟨f', hw, hr⟩ | ⟨e, f', he, hw⟩
      · rw [hw]
        exact .ok hr
      · rw [hw]
        exact .fault he
    | _ => exact .fault rfl

theorem update_agrees (h : Represents root f t) {r : Record} (hs : r.location.isSafe = true) :
    Agrees root (update r f) (Table.update r t) := by
  have hupdate : update r f = EStateM.bind (isTaken (recordPath root r.location)) (fun taken =>
      if taken then writeRecord (recordPath root r.location) r
      else Action.fail (.secretNotFound r.location)) f := by
    change EStateM.bind (locate r.location) _ f = _
    rw [EStateM.bind, locate_eq hs, h.root_eq]
    rfl
  rw [hupdate, Table.update_eq, EStateM.bind, isTaken_eq]
  cases hf : t.find? r.location with
  | some r' =>
    obtain ⟨hr', hl⟩ := Table.found hf
    obtain ⟨mode, hp⟩ := h.present r' hr'
    rw [hl] at hp
    rw [hp]
    change Agrees root (writeRecord (recordPath root r.location) r f) _
    rcases h.writeRecord_cases hs with ⟨f', hw, hr⟩ | ⟨e, f', he, hw⟩
    · rw [hw]
      exact .ok hr
    · rw [hw]
      exact .fault he
  | none =>
    obtain ⟨fault, hp⟩ := h.absent hs hf
    rw [hp]
    cases fault with
    | missing => exact .error h
    | _ => exact .fault rfl

/-! ## Deleting -/

theorem delete_eq {loc : Location} (hs : loc.isSafe = true) (f : Folder) :
    delete loc f =
      match f.files.removeFile (recordPath f.root loc) with
      | .ok t => .ok () { f with files := t }
      | .error .missing => .error (.failed (.secretNotFound loc)) f
      | .error fault => .error (.failed (.store (.file fault : Cause))) f := by
  change EStateM.bind (locate loc) _ f = _
  rw [EStateM.bind, locate_eq hs]
  change (match f.files.removeFile (recordPath f.root loc) with
    | .ok t => setTree t
    | .error .missing => Action.fail (.secretNotFound loc)
    | .error fault => Action.fail (.store (.file fault : Cause))) f = _
  cases f.files.removeFile (recordPath f.root loc) with
  | ok t => rfl
  | error fault => cases fault <;> rfl

/-- Without the file of a record, the folder represents the table without the record. -/
theorem Represents.dropped (h : Represents root f t) (loc : Location) :
    Represents root { f with files := f.files.drop (recordPath root loc) }
      (t.keep fun r => r.location ≠ loc) := by
  refine ⟨h.root_eq, h.distinct.drop _, fun r hr => h.safe r (Table.mem_keep.mp hr).1,
    fun r hr => ?_, fun space x n hn => ?_⟩
  · obtain ⟨hr, hne⟩ := Table.mem_keep.mp hr
    obtain ⟨mode, hp⟩ := h.present r hr
    exact ⟨mode, resolve_drop (not_prefix_recordPath (of_decide_eq_true hne).symm) hp⟩
  · rw [node?_drop _ _ (by simp)] at hn
    split at hn
    · contradiction
    rename_i hpath
    refine (h.named space x n hn).imp_left fun ⟨r, hr, hspace, hx⟩ => ?_
    refine ⟨r, Table.mem_keep.mpr ⟨hr, decide_eq_true fun hl => hpath ?_⟩, hspace, hx⟩
    rw [← hl, hx, ← hspace]
    rfl

theorem Represents.delete_ok (h : Represents root f t) {r : Record} (hr : r ∈ t.records) :
    ∃ f', delete r.location f = .ok () f' ∧
      Represents root f' (t.keep fun r' => r'.location ≠ r.location) := by
  obtain ⟨mode, hp⟩ := h.present r hr
  refine ⟨_, ?_, h.dropped r.location⟩
  rw [delete_eq (h.safe r hr), h.root_eq, removeFile, hp]

theorem delete_agrees (h : Represents root f t) {loc : Location} (hs : loc.isSafe = true) :
    Agrees root (delete loc f) (Table.delete loc t) := by
  rw [Table.delete_eq]
  cases hf : t.find? loc with
  | some r =>
    obtain ⟨hr, rfl⟩ := Table.found hf
    obtain ⟨f', hd, h'⟩ := h.delete_ok hr
    rw [hd]
    exact .ok h'
  | none =>
    obtain ⟨fault, hp⟩ := h.absent hs hf
    rw [delete_eq hs, h.root_eq, removeFile, hp]
    cases fault with
    | missing => exact .error h
    | _ => exact .fault rfl

/-- Deleting different records of the table one after another deletes and counts each of them. -/
theorem Represents.deleteEach_ok (h : Represents root f t) {rs : List Record} (hn : rs.Nodup)
    (hrs : ∀ r ∈ rs, r ∈ t.records) :
    ∃ f' t', deleteEach rs f = .ok rs.length f' ∧ Represents root f' t' ∧
      t'.records = t.records.filter fun r => !rs.contains r := by
  induction rs generalizing f t with
  | nil =>
    refine ⟨f, t, rfl, h, ?_⟩
    rw [List.filter_eq_self.mpr (by simp)]
  | cons r rs ih =>
    rw [List.nodup_cons] at hn
    rw [List.forall_mem_cons] at hrs
    obtain ⟨f₁, hd, h₁⟩ := h.delete_ok hrs.1
    have hrest : ∀ r' ∈ rs, r' ∈ (t.keep fun r' => r'.location ≠ r.location).records := by
      intro r' hr'
      refine Table.mem_keep.mpr ⟨hrs.2 r' hr', decide_eq_true fun hl => hn.1 ?_⟩
      rwa [← Table.eq_of_location_eq (hrs.2 r' hr') hrs.1 hl]
    obtain ⟨f', t', hds, h', hrec⟩ := ih h₁ hn.2 hrest
    refine ⟨f', t', ?_, h', ?_⟩
    · have hattempt : Action.attempt (delete r.location) f = .ok (.ok ()) f₁ := by
        rw [Action.attempt, hd]
      rw [deleteEach]
      change EStateM.bind (Action.attempt (delete r.location)) _ f = _
      rw [EStateM.bind, hattempt]
      change EStateM.bind (deleteEach rs) _ f₁ = _
      rw [EStateM.bind, hds]
      rfl
    · rw [hrec, Table.keep, List.filter_filter]
      refine List.filter_congr fun r' hr' => ?_
      have hl : r'.location = r.location ↔ r' = r :=
        ⟨Table.eq_of_location_eq hr' hrs.1, fun he => he ▸ rfl⟩
      by_cases he : r' = r <;> simp [hl, he]

theorem deleteSelected_agrees (h : Represents root f t) {space : String}
    (hs : isSegment space = true) (selector : Labels) :
    Agrees root (deleteSelected space selector f) (Table.deleteSelected space selector t) := by
  have hdel : deleteSelected space selector f =
      EStateM.bind (list space selector) deleteEach f := rfl
  rw [hdel, EStateM.bind, Table.deleteSelected_eq]
  rcases h.list_cases hs selector with hl | ⟨e, he, hl⟩
  · rw [hl]
    have hperm : (t.selected space selector).Perm
        (t.records.filter fun r => r.space == space && r.selectedBy selector) :=
      List.mergeSort_perm _ _
    have hn : (t.selected space selector).Nodup :=
      hperm.nodup_iff.mpr ((t.distinct.of_map _).filter _)
    obtain ⟨f', t', hd, h', hrec⟩ :=
      h.deleteEach_ok hn fun r hr => (Table.mem_selected.mp hr).1
    have hkept : t' = t.keep fun r => !(r.space == space && r.selectedBy selector) := by
      refine Table.ext_records ?_
      rw [hrec]
      refine List.filter_congr fun r hr => ?_
      have hc : (t.selected space selector).contains r =
          (r.space == space && r.selectedBy selector) := by
        rw [Bool.eq_iff_iff, List.contains_iff_mem, Table.mem_selected, Bool.and_eq_true, beq_iff_eq]
        exact ⟨fun hm => hm.2, fun hm => ⟨hr, hm⟩⟩
      rw [hc]
    have hcount : t.records.length - t'.records.length = (t.selected space selector).length := by
      rw [hkept, hperm.length_eq]
      change t.records.length - (t.records.filter fun r =>
        !(r.space == space && r.selectedBy selector)).length = _
      have hsum := List.length_eq_length_filter_add
        (l := t.records) (fun r => r.space == space && r.selectedBy selector)
      omega
    simp only [hd]
    rw [← hkept, hcount]
    exact .ok h'
  · rw [hl]
    exact .fault he

end Steps

end Folder

end Secret

end CredentialEngine
