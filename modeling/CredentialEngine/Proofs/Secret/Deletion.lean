import CredentialEngine.Proofs.Secret.Lawful

/-!
# Deleting records

Deleting takes the record at a location away, whoever made it, or leaves the storage as it was. A
storage that reports that there is no record tells the truth.
-/
namespace CredentialEngine.Secret

open CredentialEngine.Action

/-- What has become of a record, given how deleting it has ended. -/
def Deleted {σ : Type} [Storage σ] [LawfulStorage σ] (t : Table) (loc : Location) :
    Except Error Unit → σ → Prop
  | .ok _, s => (t.find? loc).isSome = true ∧ Shows s (t.keep fun r => r.location ≠ loc)
  | .error e, s => Shows s t ∧ (e.isNotFound = true → t.find? loc = none)

/-- The law of deleting a record. -/
class LawfulDeletion (σ : Type) [Storage σ] extends LawfulStorage σ where
  ends_delete {s : σ} {t : Table} (h : Shows s t) (loc : Location) :
    Ends (attempt (Storage.delete loc)) (Deleted t loc) (Shows · t) s

export LawfulDeletion (ends_delete)

instance : LawfulDeletion Table where
  ends_delete {s t} h loc := by
    obtain rfl : s = t := h
    change Ends (attempt (Table.delete loc)) _ _ s
    unfold Ends
    rw [attempt, Table.delete_eq]
    cases hf : s.find? loc with
    | some r => exact ⟨hf ▸ Option.isSome_some, rfl⟩
    | none => exact ⟨rfl, fun _ => hf⟩

section Around

variable {σ : Type} [Storage σ] [LawfulDeletion σ]

instance : LawfulDeletion (Beside σ) where
  ends_delete h loc := ends_attempt_onPart ((ends_delete h loc).mono
    (fun outcome _ hd => by cases outcome <;> exact hd) fun _ hs => hs)

/-- A fault is not reported as a record that is missing. -/
instance : LawfulDeletion (Faulty σ) where
  ends_delete {s t} h loc := by
    change Ends (attempt (Faulty.guarded .delete loc.name (Storage.delete loc))) _ _ s
    unfold Ends
    rw [attempt, Faulty.guarded]
    cases s.faults.find? fun f => Faulty.hits f .delete loc.name with
    | some f =>
      by_cases hm : f.mode = .crash
      · simp only [if_pos hm]
        exact h
      · simp only [if_neg hm]
        exact ⟨h, nofun⟩
    | none => exact ends_attempt_onPart ((ends_delete h loc).mono
        (fun outcome _ hd => by cases outcome <;> exact hd) fun _ hs => hs)

end Around

instance : LawfulDeletion Folder where
  ends_delete {f t} h loc := by
    cases hf : t.find? loc with
    | some r =>
      obtain ⟨hr, rfl⟩ := Table.found hf
      obtain ⟨f', hdelete, h'⟩ := Folder.Represents.delete_ok h hr
      have hshows : Folder.Represents f'.root f' _ := h'.root_eq.symm ▸ h'
      exact ends_ok (attempt_ok hdelete) ⟨hf ▸ Option.isSome_some, hshows⟩
    | none =>
      have hstays : Ends (Folder.delete loc) (fun _ _ => False) (· = f) f := by
        by_cases hs : loc.isSafe = true
        · obtain ⟨fault, hp⟩ := Folder.Represents.absent h hs hf
          unfold Ends
          rw [Folder.delete_eq hs, FileTree.removeFile, hp]
          cases fault <;> rfl
        · exact ends_bind (Folder.ends_locate (fun hs' => absurd hs' hs) rfl)
      refine ends_attempt (hstays.mono (fun _ _ => False.elim) ?_)
      rintro _ rfl
      exact ⟨fun e => ⟨h, fun _ => hf⟩, h⟩

end CredentialEngine.Secret
