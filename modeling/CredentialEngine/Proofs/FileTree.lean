import CredentialEngine.FileTree
import CredentialEngine.Proofs.Dict
import Mathlib.Data.List.Basic
import Mathlib.Data.List.Induction

/-!
# Laws of file trees

What a change of a tree does to what its paths lead to. A path leads somewhere when everything above
it is a directory, so changes elsewhere do not matter to it.
-/
namespace CredentialEngine.FileTree

/-! ## Nodes -/

theorem lookup_filter_ne (p q : Path) (nodes : List (Path × Node)) :
    (nodes.filter fun e => e.1 ≠ p).lookup q = if q = p then none else nodes.lookup q := by
  induction nodes with
  | nil => simp
  | cons e nodes ih =>
    obtain ⟨k, n⟩ := e
    by_cases hk : k = p
    · subst hk
      rw [List.filter_cons_of_neg (by simp), ih, Dict.lookup_cons_ite]
      by_cases hq : q = k
      · rw [if_pos hq, if_pos hq]
      · rw [if_neg hq, if_neg hq, if_neg hq]
    · rw [List.filter_cons_of_pos (by simp [hk]), Dict.lookup_cons_ite, Dict.lookup_cons_ite, ih]
      by_cases hq : q = k
      · have hp : q ≠ p := hq ▸ hk
        rw [if_pos hq, if_neg hp, if_pos hq]
      · rw [if_neg hq, if_neg hq]

theorem node?_nil (t : FileTree) : t.node? [] = some .dir := by
  rw [node?, if_pos rfl]

theorem node?_put (t : FileTree) (p : Path) (n : Node) {q : Path} (hq : q ≠ []) :
    (t.put p n).node? q = if q = p then some n else t.node? q := by
  rw [node?, if_neg hq, put, Dict.lookup_cons_ite, lookup_filter_ne, node?, if_neg hq]
  by_cases h : q = p
  · rw [if_pos h, if_pos h]
  · rw [if_neg h, if_neg h, if_neg h]

theorem node?_drop (t : FileTree) (p : Path) {q : Path} (hq : q ≠ []) :
    (t.drop p).node? q = if q = p then none else t.node? q := by
  rw [node?, if_neg hq, drop, lookup_filter_ne, node?, if_neg hq]

/-- No path occurs twice. -/
def Distinct (t : FileTree) : Prop :=
  (t.nodes.map (·.1)).Nodup

theorem Distinct.drop {t : FileTree} (h : t.Distinct) (p : Path) : (t.drop p).Distinct :=
  (List.filter_sublist.map _).nodup h

theorem Distinct.put {t : FileTree} (h : t.Distinct) (p : Path) (n : Node) :
    (t.put p n).Distinct := by
  change ((p, n) :: (t.drop p).nodes |>.map (·.1)).Nodup
  rw [List.map_cons, List.nodup_cons]
  refine ⟨fun hm => ?_, h.drop p⟩
  obtain ⟨e, he, hp⟩ := List.mem_map.mp hm
  have hne := (List.mem_filter.mp he).2
  simp [hp] at hne

theorem mem_nodes_of_node? {t : FileTree} {p : Path} {n : Node} (hp : p ≠ [])
    (h : t.node? p = some n) : (p, n) ∈ t.nodes := by
  rw [node?, if_neg hp] at h
  obtain ⟨before, after, he, -⟩ := List.lookup_eq_some_iff.mp h
  rw [he]
  exact List.mem_append_right before List.mem_cons_self

theorem exists_node?_of_mem {t : FileTree} {e : Path × Node} (h : e ∈ t.nodes) :
    ∃ n, t.node? e.1 = some n := by
  rw [node?]
  split
  · exact ⟨_, rfl⟩
  · refine Option.ne_none_iff_exists'.mp fun hn => ?_
    have := List.lookup_eq_none_iff.mp hn e h
    simp at this

/-! ## Walking down -/

/-- The last step of a walk. -/
theorem resolve_concat_above (t : FileTree) (x : String) (p above : Path)
    (ha : t.node? above = some .dir) :
    t.resolve above (p ++ [x]) =
      match t.resolve above p with
      | .error f => .error f
      | .ok (.file _ _) => .error .notADirectory
      | .ok .dir =>
        if nameLimit < x.utf8ByteSize then .error .nameTooLong
        else
          match t.node? (above ++ p ++ [x]) with
          | none => .error .missing
          | some n => .ok n := by
  induction p generalizing above with
  | nil =>
    rw [List.nil_append, List.append_nil, resolve, resolve, ha]
    split
    · rfl
    · cases hn : t.node? (above ++ [x]) with
      | none => rfl
      | some n =>
        cases n with
        | dir => rw [resolve, hn]; rfl
        | file bytes mode => rfl
  | cons name rest ih =>
    rw [List.cons_append, resolve, resolve]
    split
    · rfl
    · cases hn : t.node? (above ++ [name]) with
      | none => rfl
      | some n =>
        cases n with
        | dir =>
          have hr := ih (above ++ [name]) hn
          rw [List.append_assoc above [name] rest] at hr
          exact hr
        | file bytes mode =>
          have he : (rest ++ [x]).isEmpty = false := by cases rest <;> rfl
          simp only [he]
          cases hr : rest.isEmpty <;> simp

theorem resolve_concat (t : FileTree) (p : Path) (x : String) :
    t.resolve [] (p ++ [x]) =
      match t.resolve [] p with
      | .error f => .error f
      | .ok (.file _ _) => .error .notADirectory
      | .ok .dir =>
        if nameLimit < x.utf8ByteSize then .error .nameTooLong
        else
          match t.node? (p ++ [x]) with
          | none => .error .missing
          | some n => .ok n :=
  resolve_concat_above t x p [] t.node?_nil

/-- A path leads to a node when the path above leads to a directory that holds it. -/
theorem resolve_concat_ok {t : FileTree} {p : Path} {x : String} {n : Node} :
    t.resolve [] (p ++ [x]) = .ok n ↔
      t.resolve [] p = .ok .dir ∧ x.utf8ByteSize ≤ nameLimit ∧ t.node? (p ++ [x]) = some n := by
  rw [resolve_concat]
  cases hr : t.resolve [] p with
  | error f => simp
  | ok m =>
    cases m with
    | file bytes mode => simp
    | dir =>
      by_cases hx : nameLimit < x.utf8ByteSize
      · have hle : ¬ x.utf8ByteSize ≤ nameLimit := by omega
        simp [hx, hle]
      · have hle : x.utf8ByteSize ≤ nameLimit := by omega
        cases hn : t.node? (p ++ [x]) <;> simp [hx, hle]

/-- A walk that ends does so in every tree that has the nodes on the way. -/
theorem resolve_mono {t t' : FileTree} {p : Path} {n : Node}
    (h : ∀ q m, q <+: p → q ≠ [] → t.node? q = some m → t'.node? q = some m)
    (hr : t.resolve [] p = .ok n) : t'.resolve [] p = .ok n := by
  induction p using List.reverseRecOn generalizing n with
  | nil =>
    rw [resolve, node?_nil] at hr ⊢
    exact hr
  | append_singleton p x ih =>
    obtain ⟨hdir, hsize, hnode⟩ := resolve_concat_ok.mp hr
    have hprefix : p <+: p ++ [x] := List.prefix_append p [x]
    have hdir' := ih (fun q m hq => h q m (hq.trans hprefix)) hdir
    exact resolve_concat_ok.mpr ⟨hdir', hsize, h _ n List.prefix_rfl (by simp) hnode⟩

/-- Setting a path matters only to the paths through it. -/
theorem resolve_put {t : FileTree} {p q : Path} {n m : Node} (hp : ¬ p <+: q)
    (hr : t.resolve [] q = .ok m) : (t.put p n).resolve [] q = .ok m := by
  refine resolve_mono (fun r m hprefix hne hm => ?_) hr
  have hrp : r ≠ p := fun he => hp (he ▸ hprefix)
  rw [node?_put t p n hne, if_neg hrp, hm]

theorem resolve_drop {t : FileTree} {p q : Path} {m : Node} (hp : ¬ p <+: q)
    (hr : t.resolve [] q = .ok m) : (t.drop p).resolve [] q = .ok m := by
  refine resolve_mono (fun r m hprefix hne hm => ?_) hr
  have hrp : r ≠ p := fun he => hp (he ▸ hprefix)
  rw [node?_drop t p hne, if_neg hrp, hm]

theorem not_prefix_below (d : Path) (x : String) : ¬ d ++ [x] <+: d := by
  intro h
  have hle := h.length_le
  rw [List.length_append, List.length_singleton] at hle
  omega

/-- Paths of one directory do not lead through each other. -/
theorem concat_prefix_concat {d : Path} {x y : String} : d ++ [x] <+: d ++ [y] ↔ x = y := by
  rw [List.prefix_append_right_inj, List.cons_prefix_cons]
  simp

/-- Two trees have the same nodes on the way down a path. -/
def AgreeOn (p : Path) (t t' : FileTree) : Prop :=
  ∀ q, q <+: p → t'.node? q = t.node? q

theorem AgreeOn.refl (p : Path) (t : FileTree) : AgreeOn p t t :=
  fun _ _ => rfl

theorem AgreeOn.trans {p : Path} {t t' t'' : FileTree} (h : AgreeOn p t t')
    (h' : AgreeOn p t' t'') : AgreeOn p t t'' :=
  fun q hq => (h' q hq).trans (h q hq)

theorem AgreeOn.above {p q : Path} {t t' : FileTree} (h : AgreeOn p t t') (hq : q <+: p) :
    AgreeOn q t t' :=
  fun r hr => h r (hr.trans hq)

/-- A path leads to the same, obstacles included, in trees that agree on the way. -/
theorem AgreeOn.resolve {p : Path} {t t' : FileTree} (h : AgreeOn p t t') :
    t'.resolve [] p = t.resolve [] p := by
  induction p using List.reverseRecOn with
  | nil => rw [FileTree.resolve, FileTree.resolve, node?_nil, node?_nil]
  | append_singleton p x ih =>
    rw [resolve_concat, resolve_concat, ih (h.above (List.prefix_append p [x])),
      h _ List.prefix_rfl]

theorem AgreeOn.read {p : Path} {t t' : FileTree} (h : AgreeOn p t t') : t'.read p = t.read p := by
  rw [FileTree.read, FileTree.read, h.resolve]

theorem agreeOn_put {p q : Path} (t : FileTree) (n : Node) (hq : ¬ q <+: p) :
    AgreeOn p t (t.put q n) := by
  intro r hr
  by_cases hne : r = []
  · rw [hne, node?_nil, node?_nil]
  · have hrq : r ≠ q := fun he => hq (he ▸ hr)
    rw [node?_put _ _ _ hne, if_neg hrq]

theorem agreeOn_drop {p q : Path} (t : FileTree) (hq : ¬ q <+: p) : AgreeOn p t (t.drop q) := by
  intro r hr
  by_cases hne : r = []
  · rw [hne, node?_nil, node?_nil]
  · have hrq : r ≠ q := fun he => hq (he ▸ hr)
    rw [node?_drop _ _ hne, if_neg hrq]

/-! ## Changes -/

/-- Putting a node where there was none keeps the others and adds no second one. -/
theorem node?_put_new {t : FileTree} {p : Path} (n : Node) (hn : t.node? p = none) :
    (∀ q m, t.node? q = some m → (t.put p n).node? q = some m) ∧
      ∀ q m, (t.put p n).node? q = some m → t.node? q = some m ∨ q = p := by
  constructor
  · intro q m hm
    by_cases hq : q = []
    · rw [hq, node?_nil] at hm ⊢
      exact hm
    · have hqp : q ≠ p := fun he => by rw [he, hn] at hm; contradiction
      rw [node?_put _ _ _ hq, if_neg hqp, hm]
  · intro q m hm
    by_cases hq : q = []
    · rw [hq, node?_nil] at hm ⊢
      exact .inl hm
    · rw [node?_put _ _ _ hq] at hm
      by_cases hqp : q = p
      · exact .inr hqp
      · rw [if_neg hqp] at hm
        exact .inl hm

/-- Making a directory keeps what is there, adds directories on the way only, and the way then leads
to a directory. -/
theorem makeDir_ok {t t' : FileTree} {above p : Path} (ha : t.node? above = some .dir)
    (h : t.makeDir above p = .ok t') :
    (∀ q m, t.node? q = some m → t'.node? q = some m) ∧
      (∀ q m, t'.node? q = some m → t.node? q = some m ∨ ∃ r, r <+: p ∧ q = above ++ r) ∧
      t'.resolve above p = .ok .dir ∧ (t.Distinct → t'.Distinct) := by
  induction p generalizing t above with
  | nil =>
    rw [makeDir, Except.ok.injEq] at h
    subst h
    refine ⟨fun q m hm => hm, fun q m hm => .inl hm, ?_, id⟩
    rw [resolve, ha]
    rfl
  | cons name rest ih =>
    rw [makeDir] at h
    split at h
    · contradiction
    rename_i hsize
    have hne : above ++ [name] ≠ [] := by simp
    have hway : ∀ q : Path, (∃ r, r <+: rest ∧ q = above ++ [name] ++ r) →
        ∃ r, r <+: name :: rest ∧ q = above ++ r := by
      rintro q ⟨r, hr, rfl⟩
      exact ⟨name :: r, List.prefix_cons_iff.mpr (.inr ⟨r, rfl, hr⟩), by simp⟩
    cases hn : t.node? (above ++ [name]) with
    | none =>
      simp only [hn] at h
      have hput : (t.put (above ++ [name]) .dir).node? (above ++ [name]) = some .dir := by
        rw [node?_put _ _ _ hne, if_pos rfl]
      obtain ⟨hkeep, hadd, hres, hdist⟩ := ih hput h
      obtain ⟨hold, hnew⟩ := node?_put_new .dir hn
      refine ⟨fun q m hm => hkeep q m (hold q m hm), fun q m hm => ?_, ?_,
        fun hd => hdist (hd.put _ _)⟩
      · rcases hadd q m hm with hm | hw
        · rcases hnew q m hm with hm | rfl
          · exact .inl hm
          · exact .inr (hway _ ⟨[], List.nil_prefix, by rw [List.append_nil]⟩)
        · exact .inr (hway q hw)
      · rw [resolve, if_neg hsize, hkeep _ _ hput]
        exact hres
    | some n =>
      cases n with
      | file bytes mode =>
        simp only [hn] at h
        contradiction
      | dir =>
        simp only [hn] at h
        obtain ⟨hkeep, hadd, hres, hdist⟩ := ih hn h
        refine ⟨hkeep, fun q m hm => ?_, ?_, hdist⟩
        · exact (hadd q m hm).imp_right (hway q)
        · rw [resolve, if_neg hsize, hkeep _ _ hn]
          exact hres

theorem makeDir_ne_missing (t : FileTree) (above p : Path) :
    t.makeDir above p ≠ .error .missing := by
  induction p generalizing t above with
  | nil => nofun
  | cons name rest ih =>
    rw [makeDir]
    split
    · nofun
    cases hn : t.node? (above ++ [name]) with
    | none =>
      simp only [hn]
      exact ih _ _
    | some n =>
      cases n with
      | dir =>
        simp only [hn]
        exact ih _ _
      | file bytes mode =>
        simp only [hn]
        cases rest.isEmpty <;> simp

/-- A file can be written in a directory under a name that no directory has. -/
structure Takes (t : FileTree) (d : Path) (x : String) : Prop where
  dir : t.resolve [] d = .ok .dir
  size : x.utf8ByteSize ≤ nameLimit
  free : t.node? (d ++ [x]) ≠ some .dir

/-- Only there a file can be written. -/
theorem takes_of_write {t t' : FileTree} {d : Path} {x : String} {bytes : List UInt8} {mode : Nat}
    (h : t.write (d ++ [x]) bytes mode = .ok t') : t.Takes d x := by
  rw [write, List.dropLast_concat] at h
  cases hx : t.resolve [] (d ++ [x]) with
  | ok n =>
    obtain ⟨hdir, hsize, hnode⟩ := resolve_concat_ok.mp hx
    refine ⟨hdir, hsize, fun hfree => ?_⟩
    obtain rfl := Option.some.inj (hnode.symm.trans hfree)
    rw [hx] at h
    contradiction
  | error fault =>
    have hr := resolve_concat t d x
    rw [hx] at h hr
    cases hd : t.resolve [] d with
    | error fault' =>
      rw [hd] at h
      cases fault <;> contradiction
    | ok n =>
      rw [hd] at h hr
      cases n with
      | file old mode' => cases fault <;> contradiction
      | dir =>
        have hfree : t.node? (d ++ [x]) ≠ some .dir := by
          intro hn
          simp only [hn] at hr
          split at hr
          · obtain rfl := Except.error.inj hr
            contradiction
          · contradiction
        by_cases hsize : nameLimit < x.utf8ByteSize
        · simp only [if_pos hsize, Except.error.injEq] at hr
          subst hr
          contradiction
        · exact ⟨hd, Nat.not_lt.mp hsize, hfree⟩

theorem exists_write {t : FileTree} {d : Path} {x : String} (h : t.Takes d x) (bytes : List UInt8)
    (mode : Nat) :
    ∃ mode', t.write (d ++ [x]) bytes mode = .ok (t.put (d ++ [x]) (.file bytes mode')) := by
  obtain ⟨hdir, hsize, hfree⟩ := h
  have hr := resolve_concat t d x
  rw [hdir] at hr
  simp only [if_neg (Nat.not_lt.mpr hsize)] at hr
  rw [write, List.dropLast_concat, hdir]
  cases hn : t.node? (d ++ [x]) with
  | none =>
    rw [hn] at hr
    rw [hr]
    exact ⟨mode, rfl⟩
  | some n =>
    rw [hn] at hr
    cases n with
    | dir => exact absurd hn hfree
    | file old mode' =>
      rw [hr]
      exact ⟨mode', rfl⟩

/-- In a directory, writing a file either sets its node or fails, never for want of a path. -/
theorem write_cases {t : FileTree} {d : Path} {x : String} (hd : t.resolve [] d = .ok .dir)
    (bytes : List UInt8) (mode : Nat) :
    (∃ mode', x.utf8ByteSize ≤ nameLimit ∧
      t.write (d ++ [x]) bytes mode = .ok (t.put (d ++ [x]) (.file bytes mode'))) ∨
      ∃ fault, fault ≠ .missing ∧ t.write (d ++ [x]) bytes mode = .error fault := by
  by_cases htakes : t.Takes d x
  · obtain ⟨mode', hwrite⟩ := exists_write htakes bytes mode
    exact .inl ⟨mode', htakes.size, hwrite⟩
  · cases hwrite : t.write (d ++ [x]) bytes mode with
    | ok t' => exact absurd (takes_of_write hwrite) htakes
    | error fault =>
      refine .inr ⟨fault, ?_, rfl⟩
      rintro rfl
      rw [write, List.dropLast_concat, hd] at hwrite
      -- what is missing in a directory is made
      split at hwrite
      · contradiction
      · exact absurd (Except.error.inj hwrite) nofun
      · contradiction
      · rename_i hother _
        exact hother (Except.error.inj hwrite)

theorem Takes.put {t : FileTree} {d : Path} {x : String} (h : t.Takes d x) (bytes : List UInt8)
    (mode : Nat) : (t.put (d ++ [x]) (.file bytes mode)).Takes d x where
  dir := resolve_put (not_prefix_below d x) h.dir
  size := h.size
  free := by
    rw [node?_put _ _ _ (by simp), if_pos rfl]
    nofun

/-- Who reads a file that was written finds the bytes. -/
theorem read_of_write {t t' : FileTree} {d : Path} {x : String} {bytes : List UInt8} {mode : Nat}
    (h : t.write (d ++ [x]) bytes mode = .ok t') : t'.read (d ++ [x]) = .ok bytes := by
  have htakes := takes_of_write h
  obtain ⟨mode', hput⟩ := exists_write htakes bytes mode
  obtain rfl := Except.ok.inj (h.symm.trans hput)
  have hnode : (t.put (d ++ [x]) (.file bytes mode')).node? (d ++ [x]) =
      some (.file bytes mode') := by
    rw [node?_put _ _ _ (by simp), if_pos rfl]
  have hreach := resolve_concat_ok.mpr
    ⟨resolve_put (not_prefix_below d x) htakes.dir, htakes.size, hnode⟩
  rw [read, hreach]

/-- Nothing is found at the path of a file that was removed. -/
theorem read_of_removed {t t' : FileTree} {d : Path} {x : String}
    (h : t.removeFile (d ++ [x]) = .ok t') : t'.read (d ++ [x]) = .error .missing := by
  rw [removeFile] at h
  cases hx : t.resolve [] (d ++ [x]) with
  | error fault =>
    rw [hx] at h
    contradiction
  | ok n =>
    obtain ⟨hdir, hsize, -⟩ := resolve_concat_ok.mp hx
    rw [hx] at h
    cases n with
    | dir => contradiction
    | file bytes mode =>
      obtain rfl := Except.ok.inj h
      have hnode : (t.drop (d ++ [x])).node? (d ++ [x]) = none := by
        rw [node?_drop _ _ (by simp), if_pos rfl]
      have hreach := resolve_concat (t.drop (d ++ [x])) d x
      rw [resolve_drop (not_prefix_below d x) hdir, hnode] at hreach
      simp only [if_neg (Nat.not_lt.mpr hsize)] at hreach
      rw [read, hreach]

theorem read_of_removeFile {t : FileTree} {p : Path} (h : t.removeFile p = .error .missing) :
    t.read p = .error .missing := by
  rw [removeFile] at h
  rw [read]
  cases hr : t.resolve [] p with
  | error fault =>
    rw [hr] at h
    obtain rfl : fault = .missing := Except.error.inj h
    rfl
  | ok n =>
    rw [hr] at h
    cases n <;> exact nomatch h

/-- Moving an existing file within its directory either sets the other node or fails, never for want
of a path. -/
theorem moveFile_cases {t : FileTree} {d : Path} {x y : String} {n : Node}
    (hd : t.resolve [] d = .ok .dir) (hx : t.resolve [] (d ++ [x]) = .ok n) :
    (y.utf8ByteSize ≤ nameLimit ∧
      t.moveFile (d ++ [x]) (d ++ [y]) = .ok ((t.drop (d ++ [x])).put (d ++ [y]) n)) ∨
      ∃ fault, fault ≠ .missing ∧ t.moveFile (d ++ [x]) (d ++ [y]) = .error fault := by
  have hr := resolve_concat t d y
  rw [hd] at hr
  rw [moveFile, hx]
  by_cases hy : nameLimit < y.utf8ByteSize
  · simp only [if_pos hy] at hr
    rw [hr]
    exact .inr ⟨.nameTooLong, nofun, rfl⟩
  · simp only [if_neg hy] at hr
    rw [hr]
    cases t.node? (d ++ [y]) with
    | none => exact .inl ⟨by omega, rfl⟩
    | some m =>
      cases m with
      | dir => exact .inr ⟨.isADirectory, nofun, rfl⟩
      | file bytes' mode' => exact .inl ⟨by omega, rfl⟩

/-! ## Changes elsewhere -/

section Elsewhere

variable {t t' : FileTree} {p q : Path}

theorem agreeOn_write {bytes : List UInt8} {mode : Nat} (hq : ¬ q <+: p)
    (h : t.write q bytes mode = .ok t') : AgreeOn p t t' := by
  have hput : ∀ n, Except.ok (t.put q n) = (Except.ok t' : Except FileFault FileTree) →
      AgreeOn p t t' :=
    fun n he => Except.ok.inj he ▸ agreeOn_put t n hq
  rw [write] at h
  split at h
  · exact hput _ h
  · contradiction
  · split at h
    · exact hput _ h
    · contradiction
    · contradiction
  · contradiction

theorem agreeOn_removeFile (hq : ¬ q <+: p) (h : t.removeFile q = .ok t') : AgreeOn p t t' := by
  rw [removeFile] at h
  split at h
  · exact Except.ok.inj h ▸ agreeOn_drop t hq
  · contradiction
  · contradiction

theorem agreeOn_moveFile {source target : Path} (hs : ¬ source <+: p) (ht : ¬ target <+: p)
    (h : t.moveFile source target = .ok t') : AgreeOn p t t' := by
  have hmoved : ∀ n, Except.ok ((t.drop source).put target n) =
      (Except.ok t' : Except FileFault FileTree) → AgreeOn p t t' :=
    fun n he => Except.ok.inj he ▸ (agreeOn_drop t hs).trans (agreeOn_put _ n ht)
  rw [moveFile] at h
  split at h
  · contradiction
  · split at h
    · contradiction
    · exact hmoved _ h
    · exact hmoved _ h
    · contradiction

/-- Everything above a directory that is reached is a directory. -/
theorem node?_of_resolve {d : Path} (hd : t.resolve [] d = .ok .dir) (hq : q <+: d) :
    t.node? q = some .dir := by
  induction d using List.reverseRecOn with
  | nil => rw [List.prefix_nil.mp hq, node?_nil]
  | append_singleton d x ih =>
    obtain ⟨hdir, -, hnode⟩ := resolve_concat_ok.mp hd
    rcases List.prefix_concat_iff.mp hq with rfl | hq
    · exact hnode
    · exact ih hdir hq

/-- Making a directory does not touch what is in another one that is there. -/
theorem agreeOn_makeDir {d : Path} {x : String} (hd : t.resolve [] d = .ok .dir)
    (hp : ¬ d ++ [x] <+: p) (h : t.makeDir [] p = .ok t') : AgreeOn (d ++ [x]) t t' := by
  obtain ⟨hkeep, hadd, -⟩ := makeDir_ok t.node?_nil h
  intro q hq
  cases hn : t.node? q with
  | some n => exact hkeep q n hn
  | none =>
    refine Option.eq_none_iff_forall_ne_some.mpr fun n hn' => ?_
    rcases hadd q n hn' with hold | ⟨r, hr, rfl⟩
    · rw [hn] at hold
      contradiction
    · rcases List.prefix_concat_iff.mp hq with he | hq
      · exact hp (he ▸ hr)
      · rw [node?_of_resolve hd hq] at hn
        contradiction

end Elsewhere

/-! ## Names -/

theorem concat_iff {p d : Path} {x : String} :
    (p.dropLast = d ∧ p ≠ []) ∧ p.getLast? = some x ↔ p = d ++ [x] := by
  constructor
  · rintro ⟨⟨rfl, -⟩, hx⟩
    exact (List.dropLast_append_getLast? x hx).symm
  · rintro rfl
    simp

/-- The names in a directory are those of the nodes right below it, each once. -/
theorem names_ok {t : FileTree} {d : Path} {xs : List String} (h : t.names d = .ok xs) :
    (∀ x, x ∈ xs ↔ ∃ n, t.node? (d ++ [x]) = some n) ∧ (t.Distinct → xs.Nodup) := by
  unfold names at h
  split at h
  · obtain rfl := Except.ok.inj h
    constructor
    · intro x
      rw [List.mem_mergeSort, List.mem_filterMap]
      constructor
      · rintro ⟨e, he, hx⟩
        split at hx
        · rename_i hd
          have hp : e.1 = d ++ [x] := concat_iff.mp ⟨hd, hx⟩
          rw [← hp]
          exact exists_node?_of_mem he
        · contradiction
      · rintro ⟨n, hn⟩
        refine ⟨(d ++ [x], n), mem_nodes_of_node? (by simp) hn, ?_⟩
        have hx := (concat_iff (p := d ++ [x]) (d := d) (x := x)).mpr rfl
        rw [if_pos hx.1]
        exact hx.2
    · intro hdist
      refine (List.mergeSort_perm _ _).nodup_iff.mpr ?_
      have hpaths := List.pairwise_map.mp hdist
      refine List.pairwise_filterMap.mpr (hpaths.imp ?_)
      intro e e' hne x hx x' hx' he
      split at hx <;> try contradiction
      split at hx' <;> try contradiction
      rename_i hd hd'
      have hp : e.1 = d ++ [x] := concat_iff.mp ⟨hd, hx⟩
      have hp' : e'.1 = d ++ [x'] := concat_iff.mp ⟨hd', hx'⟩
      exact hne (by rw [hp, hp', he])
  · contradiction
  · contradiction

theorem resolve_of_names {t : FileTree} {d : Path} {xs : List String} (h : t.names d = .ok xs) :
    t.resolve [] d = .ok .dir := by
  unfold names at h
  split at h
  · assumption
  · contradiction
  · contradiction

theorem pairwise_mergeSort_le (xs : List String) :
    (xs.mergeSort fun x y => x ≤ y).Pairwise fun x y => x ≤ y := by
  refine (List.pairwise_mergeSort (fun x y z hxy hyz => ?_) (fun x y => ?_) _).imp of_decide_eq_true
  · exact decide_eq_true (String.le_trans (of_decide_eq_true hxy) (of_decide_eq_true hyz))
  · rw [Bool.or_eq_true, decide_eq_true_iff, decide_eq_true_iff]
    exact String.le_total x y

theorem names_ordered {t : FileTree} {d : Path} {xs : List String} (h : t.names d = .ok xs) :
    xs.Pairwise fun x y => x ≤ y := by
  unfold names at h
  split at h
  · obtain rfl := Except.ok.inj h
    exact pairwise_mergeSort_le _
  · contradiction
  · contradiction

theorem names_of_resolve {t : FileTree} {d : Path} :
    (t.resolve [] d = .ok .dir → ∃ xs, t.names d = .ok xs) ∧
      (∀ fault, t.resolve [] d = .error fault → t.names d = .error fault) := by
  constructor
  · intro h
    rw [names, h]
    exact ⟨_, rfl⟩
  · intro fault h
    rw [names, h]

/-- Sorting names and leaving some out may be done in either order. -/
theorem mergeSort_filter (p : String → Bool) (xs : List String) :
    (xs.filter p).mergeSort (fun x y => x ≤ y) = (xs.mergeSort fun x y => x ≤ y).filter p := by
  have hperm : ((xs.filter p).mergeSort fun x y => x ≤ y).Perm
      ((xs.mergeSort fun x y => x ≤ y).filter p) :=
    (List.mergeSort_perm _ _).trans ((List.mergeSort_perm xs _).symm.filter p)
  exact hperm.eq_of_pairwise (fun _ _ _ _ hxy hyx => String.le_antisymm hxy hyx)
    (pairwise_mergeSort_le _) ((pairwise_mergeSort_le xs).filter p)

/-- Taking a path out of a tree takes its name out of its directory's names. -/
theorem names_drop {t : FileTree} {d q : Path} (hq : ¬ q <+: d) :
    (t.drop q).names d = (t.names d).map fun xs => xs.filter fun x => d ++ [x] ≠ q := by
  have hbelow : ((t.drop q).nodes.filterMap fun e =>
        if e.1.dropLast = d ∧ e.1 ≠ [] then e.1.getLast? else none) =
      (t.nodes.filterMap fun e =>
        if e.1.dropLast = d ∧ e.1 ≠ [] then e.1.getLast? else none).filter
          fun x => d ++ [x] ≠ q := by
    rw [drop, List.filterMap_filter, List.filter_filterMap]
    refine List.filterMap_congr fun e _ => ?_
    by_cases hd : e.1.dropLast = d ∧ e.1 ≠ []
    · rw [if_pos hd]
      cases hx : e.1.getLast? with
      | none => simp
      | some x =>
        rw [concat_iff.mp ⟨hd, hx⟩]
        by_cases he : d ++ [x] = q <;> simp [he, Option.filter]
    · simp [hd]
  rw [names, names, (agreeOn_drop t hq).resolve, hbelow]
  cases t.resolve [] d with
  | error f => rfl
  | ok n =>
    cases n with
    | file bytes mode => rfl
    | dir => exact congrArg Except.ok (mergeSort_filter _ _)

theorem lastDot {s : List Char} (e : List Char) (he : '.' ∉ e) :
    (s ++ '.' :: e).reverse.takeWhile (· ≠ '.') = e.reverse ∧
      (s ++ '.' :: e).reverse.dropWhile (· ≠ '.') = '.' :: s.reverse := by
  have hall : ∀ c ∈ e.reverse, decide (c ≠ '.') = true := by
    intro c hc
    rw [List.mem_reverse] at hc
    exact decide_eq_true fun h => he (h ▸ hc)
  rw [List.reverse_append, List.reverse_cons, List.append_assoc, List.singleton_append]
  rw [List.takeWhile_append_of_pos hall, List.dropWhile_append_of_pos hall]
  simp

/-- The extension is what follows the last dot of a name that does not start with it. -/
theorem extension?_append {s : String} (hs : s ≠ "") {e : List Char} (he : '.' ∉ e) :
    extension? (s ++ String.ofList ('.' :: e)) = some (String.ofList e) := by
  have hc : (s ++ String.ofList ('.' :: e)).toList = s.toList ++ '.' :: e := by
    rw [String.toList_append, String.toList_ofList]
  have hdot : (s.toList ++ '.' :: e).contains '.' = true := by simp
  obtain ⟨htake, hdrop⟩ := lastDot (s := s.toList) e he
  have hstem : (('.' :: s.toList.reverse).drop 1).reverse.isEmpty = false := by
    simp [List.isEmpty_eq_false_iff, String.toList_eq_nil_iff, hs]
  rw [extension?, hc]
  simp only [hdot, htake, hdrop, hstem, List.reverse_reverse]
  rfl

/-- The stem is what stands before the last dot. -/
theorem stem_append {s : String} (hs : s ≠ "") {e : List Char} (he : '.' ∉ e) :
    stem (s ++ String.ofList ('.' :: e)) = s := by
  have hcount : (s ++ String.ofList ('.' :: e)).length - (String.ofList e).length - 1 =
      s.toList.length := by
    simp only [← String.length_toList, String.toList_append, String.toList_ofList,
      List.length_append, List.length_cons]
    omega
  rw [stem, extension?_append hs he]
  simp only [hcount, String.toList_append, List.take_left, String.ofList_toList]

end CredentialEngine.FileTree
