import CredentialEngine.Proofs.Action
import CredentialEngine.Proofs.FileTree
import CredentialEngine.Proofs.Secret.Table
import CredentialEngine.Secret.Faults

/-!
# Storages apart from other files

The files of a directory may stand among those of a storage. A folder leaves them alone when its
root is neither above nor below them, and a storage beside a tree leaves all of the tree alone.
-/
namespace CredentialEngine

open CredentialEngine.Action FileTree

/-- The tree that is set is the one that is found. -/
class LawfulFiled (σ : Type) [Filed σ] : Prop where
  files_setFiles : ∀ (t : FileTree) (s : σ), Filed.files (Filed.setFiles t s) = t

instance : LawfulFiled Secret.Folder where
  files_setFiles _ _ := rfl

instance {σ : Type} : LawfulFiled (Secret.Beside σ) where
  files_setFiles _ _ := rfl

instance {σ : Type} [Filed σ] [LawfulFiled σ] : LawfulFiled (Secret.Faulty σ) where
  files_setFiles t s := LawfulFiled.files_setFiles t s.inner

/-- While a storage is in order, no operation on it dies or touches files of some names in a
directory, and it stays in order. -/
structure Apart (σ : Type) [Storage σ] [Filed σ] (inOrder : σ → Prop) (d : Path)
    (names : List String) : Prop where
  maintain : ∀ t : FileTree, t.resolve [] d = .ok .dir → Storage.Maintain σ (· ≠ .crashed)
    fun s => inOrder s ∧ ∀ x ∈ names, AgreeOn (d ++ [x]) t (Filed.files s)
  setFiles : ∀ t s, inOrder s → inOrder (Filed.setFiles t s)

namespace Secret

theorem failed_ne_crashed (e : Error) : Halt.failed e ≠ .crashed := nofun

/-! ## Storages beside a tree -/

theorem Beside.apart {σ : Type} [Storage σ] (h : Storage.Maintain σ (· ≠ .crashed) fun _ => True)
    (d : Path) (names : List String) : Apart (Beside σ) (fun _ => True) d names := by
  refine ⟨fun t _ => ?_, fun _ _ h => h⟩
  have hpart : ∀ {α : Type} {act : Action σ α}, Maintains (· ≠ .crashed) (fun _ => True) act →
      Maintains (· ≠ .crashed) (fun b : Beside σ => True ∧ ∀ x ∈ names, AgreeOn (d ++ [x]) t b.files)
        (onSecrets act) :=
    fun h => maintains_onPart h (fun _ _ => trivial) fun _ _ hb _ => hb
  exact ⟨fun loc => hpart (h.get loc), fun space l => hpart (h.list space l),
    fun r => hpart (h.create r), fun r => hpart (h.update r), fun loc => hpart (h.delete loc),
    fun space l => hpart (h.deleteSelected space l)⟩

/-- Nothing that is done to a table dies. -/
theorem Table.maintain : Storage.Maintain Table (· ≠ .crashed) fun _ => True := by
  constructor
  · refine fun loc => maintains_true fun t e t' h => ?_
    have hr := (get_eq loc t).symm.trans h
    split at hr
    · contradiction
    · exact (EStateM.Result.error.inj hr).1 ▸ failed_ne_crashed _
  · exact fun space selector => maintains_true fun t e t' h =>
      nomatch (list_eq space selector t).symm.trans h
  · refine fun r => maintains_true fun t e t' h => ?_
    have hr := (create_eq r t).symm.trans h
    split at hr
    · exact (EStateM.Result.error.inj hr).1 ▸ failed_ne_crashed _
    · contradiction
  · refine fun r => maintains_true fun t e t' h => ?_
    have hr := (update_eq r t).symm.trans h
    split at hr
    · contradiction
    · exact (EStateM.Result.error.inj hr).1 ▸ failed_ne_crashed _
  · refine fun loc => maintains_true fun t e t' h => ?_
    have hr := (delete_eq loc t).symm.trans h
    split at hr
    · contradiction
    · exact (EStateM.Result.error.inj hr).1 ▸ failed_ne_crashed _
  · exact fun space selector => maintains_true fun t e t' h =>
      nomatch (deleteSelected_eq space selector t).symm.trans h

/-! ## Folders -/

namespace Folder

/-- A file of a directory is neither below the root of a folder nor above it. -/
structure Outside (root d : Path) (x : String) : Prop where
  not_below : ¬ root <+: d ++ [x]
  not_above : ¬ d ++ [x] <+: root

/-- A folder has its root, and some files of a directory as they are in a tree. -/
structure Leaves (root d : Path) (names : List String) (t : FileTree) (f : Folder) : Prop where
  root_eq : f.root = root
  agree : ∀ x ∈ names, AgreeOn (d ++ [x]) t f.files

variable {root d : Path} {names : List String} {t : FileTree}

theorem of_pathOf_ok {loc : Location} {path : Path} (h : pathOf root loc = .ok path) :
    path = root ++ [loc.space] ++ [loc.name ++ ".json"] := by
  have hcheck : ∀ {s s' : String}, checkSegment s = .ok s' → s' = s := by
    intro s s' hs
    rw [checkSegment] at hs
    split at hs
    · exact (Except.ok.inj hs).symm
    · contradiction
  rw [pathOf] at h
  cases hname : checkSegment loc.name with
  | error e =>
    rw [hname] at h
    contradiction
  | ok name =>
    cases hspace : checkSegment loc.space with
    | error e =>
      rw [hname, hspace] at h
      contradiction
    | ok space =>
      rw [hname, hspace] at h
      obtain rfl := Except.ok.inj h
      rw [hcheck hname, hcheck hspace, List.append_assoc]
      rfl

/-- Nothing that starts with the root is on the way to a file outside. -/
theorem Outside.not_prefix_of_root {x : String} (h : Outside root d x) {q : Path} (hq : root <+: q) :
    ¬ q <+: d ++ [x] :=
  fun hx => h.not_below (hq.trans hx)

theorem Outside.not_prefix_directory {x : String} (h : Outside root d x) (space : String) :
    ¬ d ++ [x] <+: root ++ [space] := by
  intro hp
  rcases List.prefix_concat_iff.mp hp with he | hp
  · exact h.not_below (he ▸ List.prefix_append root [space])
  · exact h.not_above hp

theorem maintains_tree : Maintains (· ≠ .crashed) (Leaves root d names t) tree :=
  fun _ h => h

theorem maintains_locate {β : Type} {loc : Location} {k : Path → Action Folder β}
    (h : Maintains (· ≠ .crashed) (Leaves root d names t)
      (k (root ++ [loc.space] ++ [loc.name ++ ".json"]))) :
    Maintains (· ≠ .crashed) (Leaves root d names t) (locate loc >>= k) := by
  intro f hf
  have hlocate : locate loc f = Action.ofExcept (pathOf root loc) f := by
    rw [← hf.root_eq]
    rfl
  cases hp : pathOf root loc with
  | error e =>
    rw [hp] at hlocate
    rw [bind_of_error hlocate]
    exact ⟨nofun, hf⟩
  | ok path =>
    rw [hp] at hlocate
    rw [bind_of_ok hlocate, of_pathOf_ok hp]
    exact h f hf

theorem maintains_readRecord (path : Path) (loc : Location) :
    Maintains (· ≠ .crashed) (Leaves root d names t) (readRecord path loc) := by
  refine maintains_bind maintains_tree fun files => ?_
  cases files.read path with
  | ok bytes =>
    cases hr : (Json.ofBytes? bytes).bind Record.ofJson? with
    | some r =>
      simp only [hr]
      exact maintains_pure r
    | none =>
      simp only [hr]
      exact maintains_fail (failed_ne_crashed _)
  | error fault => cases fault <;> exact maintains_fail (failed_ne_crashed _)

/-- A change of the tree that leaves the files alone. -/
theorem maintains_change {f : FileTree → Except FileFault FileTree}
    (hf : ∀ t₁ t₂, (∀ x ∈ names, AgreeOn (d ++ [x]) t t₁) → f t₁ = .ok t₂ →
      ∀ x ∈ names, AgreeOn (d ++ [x]) t₁ t₂) :
    Maintains (· ≠ .crashed) (Leaves root d names t) (change f) := by
  intro s hs
  have htree : tree s = .ok s.files s := rfl
  rw [change, bind_of_ok htree]
  cases hr : f s.files with
  | ok t' => exact ⟨hs.root_eq, fun x hx => (hs.agree x hx).trans (hf _ _ hs.agree hr x hx)⟩
  | error fault => exact ⟨nofun, hs⟩

theorem maintains_writeRecord (hd : t.resolve [] d = .ok .dir)
    (hout : ∀ x ∈ names, Outside root d x) (r : Record) :
    Maintains (· ≠ .crashed) (Leaves root d names t)
      (writeRecord (root ++ [r.space] ++ [r.name ++ ".json"]) r) := by
  have hbelow : ∀ names' : Path, root <+: root ++ names' := List.prefix_append root
  intro s hs
  have hsteps : writeRecord (root ++ [r.space] ++ [r.name ++ ".json"]) r s = (do
      change fun t => t.makeDir [] (root ++ [r.space] ++ [r.name ++ ".json"]).dropLast
      change fun t => t.write (temporaryOf s.root r.location) (Key.textBytes r.toJson.pretty)
        FileTree.privateMode
      change fun t => t.moveFile (temporaryOf s.root r.location)
        (root ++ [r.space] ++ [r.name ++ ".json"])) s := rfl
  rw [hsteps, hs.root_eq, List.dropLast_concat]
  refine maintains_bind (maintains_change ?_) (fun _ => maintains_bind (maintains_change ?_)
    fun _ => maintains_change ?_) s hs
  · intro t₁ t₂ hagree hmake x hx
    have hd₁ : t₁.resolve [] d = .ok .dir :=
      ((hagree x hx).above (List.prefix_append d [x])).resolve.trans hd
    exact agreeOn_makeDir hd₁ ((hout x hx).not_prefix_directory _) hmake
  · exact fun t₁ t₂ _ hwrite x hx =>
      agreeOn_write ((hout x hx).not_prefix_of_root (hbelow _)) hwrite
  · refine fun t₁ t₂ _ hmove x hx =>
      agreeOn_moveFile ((hout x hx).not_prefix_of_root (hbelow _))
        ((hout x hx).not_prefix_of_root ?_) hmove
    rw [List.append_assoc]
    exact hbelow _

theorem maintains_isTaken (path : Path) :
    Maintains (· ≠ .crashed) (Leaves root d names t) (isTaken path) := by
  refine maintains_bind maintains_tree fun files => ?_
  cases files.leads path with
  | ok taken => exact maintains_pure taken
  | error fault => exact maintains_fail (failed_ne_crashed _)

theorem maintains_list (space : String) (selector : Labels) :
    Maintains (· ≠ .crashed) (Leaves root d names t) (list space selector) := by
  have hread : ∀ directory space (entries : List String),
      Maintains (· ≠ .crashed) (Leaves root d names t) (readAll directory space entries) := by
    intro directory space entries
    induction entries with
    | nil => exact maintains_pure _
    | cons name entries ih =>
      rw [readAll]
      split
      · exact maintains_bind (maintains_readRecord _ _) fun _ =>
          maintains_bind ih fun _ => maintains_pure _
      · exact ih
  refine maintains_bind (maintains_ofExcept failed_ne_crashed _) fun space => ?_
  refine maintains_bind (fun _ h => h) fun s => ?_
  refine maintains_bind maintains_tree fun files => ?_
  split
  · exact maintains_pure _
  · exact maintains_fail (failed_ne_crashed _)
  · exact maintains_bind (hread _ _ _) fun _ => maintains_pure _

theorem maintains_delete (hout : ∀ x ∈ names, Outside root d x) (loc : Location) :
    Maintains (· ≠ .crashed) (Leaves root d names t) (delete loc) := by
  refine maintains_locate ?_
  intro s hs
  have htree : tree s = .ok s.files s := rfl
  rw [bind_of_ok htree]
  cases hr : s.files.removeFile (root ++ [loc.space] ++ [loc.name ++ ".json"]) with
  | error fault => cases fault <;> exact ⟨nofun, hs⟩
  | ok t' =>
    refine ⟨hs.root_eq, fun x hx => (hs.agree x hx).trans (agreeOn_removeFile ?_ hr)⟩
    refine (hout x hx).not_prefix_of_root ?_
    exact (List.prefix_append root [loc.space]).trans (List.prefix_append _ _)

theorem maintains_deleteEach (hout : ∀ x ∈ names, Outside root d x) (rs : List Record) :
    Maintains (· ≠ .crashed) (Leaves root d names t) (deleteEach rs) := by
  induction rs with
  | nil => exact maintains_pure _
  | cons r rs ih =>
    refine maintains_bind (maintains_attempt (maintains_delete hout r.location)
      fun _ he _ => he) fun outcome => ?_
    cases outcome with
    | ok _ => exact maintains_bind ih fun _ => maintains_pure _
    | error e =>
      simp only []
      split
      · exact ih
      · exact maintains_fail (failed_ne_crashed _)

/-- A folder leaves alone what is outside its root, and nothing that is done to it dies. -/
theorem apart (hout : ∀ x ∈ names, Outside root d x) :
    Apart Folder (fun f => f.root = root) d names := by
  refine ⟨fun t hd => ?_, fun _ _ h => h⟩
  have hand : ∀ {α : Type} {act : Action Folder α},
      Maintains (· ≠ .crashed) (Leaves root d names t) act →
      Maintains (· ≠ .crashed) (fun f : Folder => f.root = root ∧
        ∀ x ∈ names, AgreeOn (d ++ [x]) t (Filed.files f)) act := by
    intro α act h s hs
    have hact := h s ⟨hs.1, hs.2⟩
    cases hr : act s with
    | ok a s' =>
      rw [hr] at hact
      exact ⟨hact.root_eq, hact.agree⟩
    | error e s' =>
      rw [hr] at hact
      exact ⟨hact.1, hact.2.root_eq, hact.2.agree⟩
  refine ⟨fun loc => hand ?_, fun space l => hand (maintains_list space l), fun r => hand ?_,
    fun r => hand ?_, fun loc => hand (maintains_delete hout loc), fun space l => hand ?_⟩
  · exact maintains_locate (maintains_readRecord _ _)
  · refine maintains_locate (maintains_bind (maintains_isTaken _) fun taken => ?_)
    cases taken with
    | true => exact maintains_fail (failed_ne_crashed _)
    | false => exact maintains_writeRecord hd hout r
  · refine maintains_locate (maintains_bind (maintains_isTaken _) fun taken => ?_)
    cases taken with
    | true => exact maintains_writeRecord hd hout r
    | false => exact maintains_fail (failed_ne_crashed _)
  · exact maintains_bind (maintains_list space l) fun rs => maintains_deleteEach hout rs

end Folder

end Secret

end CredentialEngine
