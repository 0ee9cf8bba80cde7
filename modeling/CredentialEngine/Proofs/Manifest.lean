import CredentialEngine.Lifecycle.Manifests
import CredentialEngine.Proofs.FileTree
import Mathlib.Data.List.Pairwise
import Mathlib.Order.Defs.LinearOrder

/-!
# Manifests and their files

The manifests of a directory are those in its files, in the order of their names. Once the file of a
manifest has been brought to what became of the resource, it is gone or it holds the resource.
-/
namespace CredentialEngine.Manifest

open FileTree

/-! ## The manifests of a directory -/

/-- Manifests are those in the files of a directory that have the name of a manifest, in the order
of these names. -/
structure Listed (t : FileTree) (d : Directory) (names : List String) (ms : List Manifest) :
    Prop where
  ordered : names.Pairwise fun x y => x < y
  complete : ∀ x, x ∈ names ↔ isName x = true ∧ ∃ n, t.node? (d.path ++ [x]) = some n
  paths : ms.map (·.path) = names.map fun x => d.path ++ [x]

theorem path_of_load {t : FileTree} {d : Directory} {defaults : Defaults} {n : Nat} {name : String}
    {m : Manifest} (h : load t d defaults n name = .ok m) : m.path = d.path ++ [name] := by
  simp only [load] at h
  split at h
  · contradiction
  split at h
  · contradiction
  split at h
  · contradiction
  · obtain rfl := Except.ok.inj h
    rfl

/-- Manifests are loaded one after another. -/
theorem of_loads_cons {t : FileTree} {d : Directory} {defaults : Defaults} {p : String × Nat}
    {numbered : List (String × Nat)} {ms : List Manifest}
    (h : ((p :: numbered).mapM fun (name, n) => load t d defaults n name) = .ok ms) :
    ∃ m rest, load t d defaults p.2 p.1 = .ok m ∧
      (numbered.mapM fun (name, n) => load t d defaults n name) = .ok rest ∧ ms = m :: rest := by
  rw [List.mapM_cons] at h
  change (load t d defaults p.2 p.1).bind _ = _ at h
  cases hm : load t d defaults p.2 p.1 with
  | error e =>
    rw [hm] at h
    contradiction
  | ok m =>
    rw [hm] at h
    change Except.bind (numbered.mapM _) _ = _ at h
    cases hrest : numbered.mapM fun (name, n) => load t d defaults n name with
    | error e =>
      rw [hrest] at h
      contradiction
    | ok rest =>
      rw [hrest] at h
      exact ⟨m, rest, rfl, rfl, (Except.ok.inj h).symm⟩

theorem paths_of_loads {t : FileTree} {d : Directory} {defaults : Defaults}
    {numbered : List (String × Nat)} {ms : List Manifest}
    (h : (numbered.mapM fun (name, n) => load t d defaults n name) = .ok ms) :
    ms.map (·.path) = numbered.map fun p => d.path ++ [p.1] := by
  induction numbered generalizing ms with
  | nil =>
    obtain rfl := Except.ok.inj h
    rfl
  | cons p numbered ih =>
    obtain ⟨m, rest, hm, hrest, rfl⟩ := of_loads_cons h
    rw [List.map_cons, List.map_cons, ih hrest, path_of_load hm]

theorem exists_load {t : FileTree} {d : Directory} {defaults : Defaults}
    {numbered : List (String × Nat)} {ms : List Manifest}
    (h : (numbered.mapM fun (name, n) => load t d defaults n name) = .ok ms) {m : Manifest}
    (hm : m ∈ ms) : ∃ name n, load t d defaults n name = .ok m := by
  induction numbered generalizing ms with
  | nil =>
    obtain rfl := Except.ok.inj h
    exact absurd hm List.not_mem_nil
  | cons p numbered ih =>
    obtain ⟨first, rest, hfirst, hrest, rfl⟩ := of_loads_cons h
    rcases List.mem_cons.mp hm with rfl | hm
    · exact ⟨p.1, p.2, hfirst⟩
    · exact ih hrest hm

/-- The files of two manifests are loaded in the order of their names. -/
theorem loadAll_of_two {t : FileTree} {d : Directory} {defaults : Defaults} {x x' : String}
    {m m' : Manifest} (hnames : t.names d.path = .ok ([x, x'].mergeSort fun a b => a ≤ b))
    (hle : x ≤ x') (hx : isName x = true) (hx' : isName x' = true)
    (hload : load t d defaults 0 x = .ok m) (hload' : load t d defaults 1 x' = .ok m') :
    loadAll t d defaults = .ok [m, m'] := by
  have hsorted : [x, x'].mergeSort (fun a b => a ≤ b) = [x, x'] :=
    List.mergeSort_of_pairwise (List.pairwise_pair.mpr (decide_eq_true hle))
  have hnumbered : ([x, x'].filter isName).zipIdx = [(x, 0), (x', 1)] := by
    rw [List.filter_cons_of_pos hx, List.filter_cons_of_pos hx']
    rfl
  rw [loadAll, hnames, hsorted]
  simp only [hnumbered, List.mapM_cons, hload, hload']
  rfl

theorem resolve_of_loadAll {t : FileTree} {d : Directory} {defaults : Defaults}
    {ms : List Manifest} (h : loadAll t d defaults = .ok ms) : t.resolve [] d.path = .ok .dir := by
  rw [loadAll] at h
  split at h
  · contradiction
  · rename_i hnames
    exact resolve_of_names hnames

theorem listed_of_loadAll {t : FileTree} {d : Directory} {defaults : Defaults} {ms : List Manifest}
    (hdistinct : t.Distinct) (h : loadAll t d defaults = .ok ms) :
    ∃ names, Listed t d names ms := by
  rw [loadAll] at h
  split at h
  · contradiction
  rename_i names hnames
  obtain ⟨hmem, hnodup⟩ := names_ok hnames
  refine ⟨names.filter isName, ?_, fun x => ?_, ?_⟩
  · refine (((names_ordered hnames).and (hnodup hdistinct)).imp ?_).filter _
    exact fun hle => Std.lt_of_le_of_ne hle.1 hle.2
  · rw [List.mem_filter, hmem, and_comm]
  · rw [paths_of_loads h]
    conv_rhs => rw [← List.zipIdx_map_fst 0 (names.filter isName), List.map_map]
    rfl

theorem Listed.path {t : FileTree} {d : Directory} {names : List String} {ms : List Manifest}
    (h : Listed t d names ms) {m : Manifest} (hm : m ∈ ms) : ∃ x ∈ names, m.path = d.path ++ [x] := by
  have hpath : m.path ∈ ms.map (·.path) := List.mem_map_of_mem hm
  rw [h.paths] at hpath
  obtain ⟨x, hx, he⟩ := List.mem_map.mp hpath
  exact ⟨x, hx, he.symm⟩

theorem Listed.nodup {t : FileTree} {d : Directory} {names : List String} {ms : List Manifest}
    (h : Listed t d names ms) : (ms.map (·.path)).Nodup := by
  rw [h.paths]
  refine List.pairwise_map.mpr (h.ordered.imp fun hlt he => ?_)
  rw [List.append_cancel_left_eq, List.cons.injEq] at he
  exact absurd (he.1 ▸ hlt) (String.lt_irrefl _)

/-- The file of a manifest that was loaded can be read. -/
theorem read_of_load {t : FileTree} {d : Directory} {defaults : Defaults} {n : Nat} {name : String}
    {m : Manifest} (h : load t d defaults n name = .ok m) : ∃ bytes, t.read m.path = .ok bytes := by
  have hpath := path_of_load h
  simp only [load] at h
  split at h
  · contradiction
  · rename_i bytes hread
    exact ⟨bytes, hpath ▸ hread⟩

theorem read_of_loadAll {t : FileTree} {d : Directory} {defaults : Defaults} {ms : List Manifest}
    (h : loadAll t d defaults = .ok ms) {m : Manifest} (hm : m ∈ ms) :
    ∃ bytes, t.read m.path = .ok bytes := by
  rw [loadAll] at h
  split at h
  · contradiction
  · obtain ⟨name, n, hload⟩ := exists_load h hm
    exact read_of_load hload

/-! ## The file of a manifest -/

/-- What the file of a manifest holds once it has been written. -/
def content (m : Manifest) : List UInt8 :=
  Key.textBytes ((Format.ofName (m.path.getLast?.getD "")).write m.resource)

/-- The file of a manifest is gone if its resource was marked for deletion and was reconciled with
success. Otherwise it holds the resource as the reconcile has left it. -/
structure Tells (m : Manifest) (r : Reconciled) (t : FileTree) : Prop where
  gone : t.read m.path = .error .missing ↔
    m.resource.metadata.isDeleting = true ∧ r.failure? = none
  kept : ¬ (m.resource.metadata.isDeleting = true ∧ r.failure? = none) →
    t.read m.path = .ok { m with resource := r.resource }.content

theorem Tells.of_read {m : Manifest} {r : Reconciled} {t t' : FileTree} (h : m.Tells r t)
    (hread : t'.read m.path = t.read m.path) : m.Tells r t' :=
  ⟨by rw [hread]; exact h.gone, fun hn => by rw [hread]; exact h.kept hn⟩

theorem isGone_iff {m : Manifest} {r : Reconciled}
    (hmark : r.resource.metadata.isDeleting = m.resource.metadata.isDeleting) :
    r.isGone = true ↔ m.resource.metadata.isDeleting = true ∧ r.failure? = none := by
  rw [Reconciled.isGone, Bool.and_eq_true, Option.isNone_iff_eq_none, hmark, and_comm]

/-- A file that has been brought up to date tells what became of the resource. -/
theorem tells_of_conclude {m : Manifest} {r : Reconciled} {t t' : FileTree} {d : Path} {x : String}
    (hpath : m.path = d ++ [x])
    (hmark : r.resource.metadata.isDeleting = m.resource.metadata.isDeleting)
    (h : m.conclude r t = .ok t') : m.Tells r t' := by
  have hgone := isGone_iff hmark
  have hremoved : r.isGone = true → t'.read m.path = .error .missing → m.Tells r t' :=
    fun hg hread => ⟨iff_of_true hread (hgone.mp hg), fun hn => absurd (hgone.mp hg) hn⟩
  rw [conclude] at h
  cases hg : r.isGone with
  | true =>
    simp only [hg, if_true, remove] at h
    cases hr : t.removeFile m.path with
    | ok t₁ =>
      rw [hr] at h
      obtain rfl := Except.ok.inj h
      rw [hpath] at hr
      exact hremoved hg (hpath ▸ read_of_removed hr)
    | error fault =>
      rw [hr] at h
      cases fault with
      | missing =>
        obtain rfl := Except.ok.inj h
        exact hremoved hg (read_of_removeFile hr)
      | _ => contradiction
  | false =>
    simp only [hg, Bool.false_eq_true, if_false, save] at h
    rw [hpath] at h
    have hread := read_of_write h
    have hstays : ¬ (m.resource.metadata.isDeleting = true ∧ r.failure? = none) :=
      fun hd => by simp [hgone.mpr hd] at hg
    rw [← hpath] at hread
    refine ⟨iff_of_false (fun hm => ?_) hstays, fun _ => ?_⟩
    · rw [hread] at hm
      contradiction
    · rw [hread, content, hpath]

/-- A file that is there can be written and removed. -/
theorem exists_conclude {m : Manifest} {r : Reconciled} {t : FileTree} {bytes : List UInt8}
    (h : t.read m.path = .ok bytes) : ∃ t', m.conclude r t = .ok t' := by
  obtain ⟨mode, hfile⟩ : ∃ mode, t.resolve [] m.path = .ok (.file bytes mode) := by
    rw [FileTree.read] at h
    split at h
    · rename_i mode hr
      exact ⟨mode, Except.ok.inj h ▸ hr⟩
    · contradiction
    · contradiction
  rw [conclude]
  split
  · exact ⟨_, by rw [remove, FileTree.removeFile, hfile]⟩
  · exact ⟨_, by rw [save, FileTree.write, hfile]⟩

/-- Nothing else changes when a file is brought up to date. -/
theorem agreeOn_conclude {m : Manifest} {r : Reconciled} {t t' : FileTree} {p : Path}
    (hp : ¬ m.path <+: p) (h : m.conclude r t = .ok t') : AgreeOn p t t' := by
  rw [conclude] at h
  split at h
  · rw [remove] at h
    split at h
    · exact Except.ok.inj h ▸ .refl p t
    · exact agreeOn_removeFile hp h
  · exact agreeOn_write hp h

end CredentialEngine.Manifest
