import CredentialEngine.Proofs.Secret.Lawful

/-!
# Storages that can be read

Where a storage can be read, every look-up and every listing answers as the table that is shown, and
touches nothing. Updates may still fail, each on its own, and then leave what was shown. So are
tables, and storages whose faults concern updates alone.
-/
namespace CredentialEngine.Secret

open CredentialEngine.Action

/-- Reads answer and touch nothing; an update of a record that is there succeeds or fails. -/
structure Storage.Readable (σ : Type) [Storage σ] (Reads : σ → Table → Prop) : Prop where
  get_of_some {s : σ} {t : Table} {loc : Location} {r : Record} (h : Reads s t)
    (hf : t.find? loc = some r) : Storage.get loc s = .ok r s
  get_of_none {s : σ} {t : Table} {loc : Location} (h : Reads s t) (hf : t.find? loc = none) :
    Storage.get loc s = .error (.failed (.secretNotFound loc)) s
  list {s : σ} {t : Table} (h : Reads s t) (space : String) (selector : Labels) :
    Storage.list space selector s = .ok (t.selected space selector) s
  update {s : σ} {t : Table} {r : Record} (h : Reads s t) (r' : Record)
    (hf : t.find? r'.location = some r) :
    (∃ s', Storage.update r' s = .ok () s' ∧ Reads s' (t.put r')) ∨
      ∃ e s', Storage.update r' s = .error (.failed e) s' ∧ Reads s' t

theorem Table.readable : Storage.Readable Table fun s t => s = t where
  get_of_some {s t loc r} h hf := by
    subst h
    change Table.get loc s = _
    rw [Table.get_eq, hf]
  get_of_none {s t loc} h hf := by
    subst h
    change Table.get loc s = _
    rw [Table.get_eq, hf]
  list {s t} h space selector := by
    subst h
    exact Table.list_eq space selector s
  update {s t r} h r' hf := by
    subst h
    refine .inl ⟨s.put r', ?_, rfl⟩
    change Table.update r' s = _
    rw [Table.update_eq, hf]

namespace Faulty

variable {σ : Type} {s : Faulty σ}

/-- The faults keep updates alone from taking effect, and none is deadly. -/
def UpdatesOnly (faults : List PlannedFault) : Prop :=
  ∀ f ∈ faults, f.operation = .update ∧ f.mode ≠ .crash

instance (faults : List PlannedFault) : Decidable (UpdatesOnly faults) :=
  inferInstanceAs (Decidable (∀ f ∈ faults, f.operation = .update ∧ f.mode ≠ .crash))

theorem UpdatesOnly.used {faults : List PlannedFault} (h : UpdatesOnly faults) (f : PlannedFault) :
    UpdatesOnly (used faults f) := by
  unfold Faulty.used
  split
  · exact fun f' hf' => h f' (List.mem_of_mem_erase hf')
  · exact h

/-- An operation that no fault concerns goes through to the storage. -/
theorem guarded_of_updatesOnly (h : UpdatesOnly s.faults) {α : Type} {op : Operation}
    (hop : op ≠ .update) (subject : String) (act : Action σ α) :
    guarded op subject act s =
      Action.onPart Faulty.inner (fun i s => { s with inner := i }) act s := by
  have hnone : (s.faults.find? fun f => hits f op subject) = none := by
    refine List.find?_eq_none.mpr fun f hf hh => hop ?_
    rw [hits, Bool.and_eq_true, beq_iff_eq] at hh
    exact hh.1.symm.trans (h f hf).1
  rw [guarded, hnone]

/-- Where reads touch nothing in the storage, they touch nothing around it. -/
theorem readable [Storage σ] {Reads : σ → Table → Prop} (h : Storage.Readable σ Reads) :
    Storage.Readable (Faulty σ) fun s t => Reads s.inner t ∧ UpdatesOnly s.faults where
  get_of_some {s t loc r} hr hf := by
    change guarded .get loc.name (Storage.get loc) s = _
    rw [guarded_of_updatesOnly hr.2 (by decide), onPart, h.get_of_some hr.1 hf]
  get_of_none {s t loc} hr hf := by
    change guarded .get loc.name (Storage.get loc) s = _
    rw [guarded_of_updatesOnly hr.2 (by decide), onPart, h.get_of_none hr.1 hf]
  list {s t} hr space selector := by
    change guarded .list space (Storage.list space selector) s = _
    rw [guarded_of_updatesOnly hr.2 (by decide), onPart, h.list hr.1]
  update {s t r} hr r' hf := by
    change (∃ s', guarded .update r'.name (Storage.update r') s = _ ∧ _) ∨
      ∃ e s', guarded .update r'.name (Storage.update r') s = _ ∧ _
    rw [guarded]
    cases hh : s.faults.find? fun f => hits f .update r'.name with
    | some f =>
      have hmode := (hr.2 f (List.mem_of_find?_eq_some hh)).2
      refine .inr ⟨_, _, if_neg hmode, hr.1, hr.2.used f⟩
    | none =>
      simp only [onPart]
      rcases h.update hr.1 r' hf with ⟨i, hi, hri⟩ | ⟨e, i, hi, hri⟩
      · rw [hi]
        exact .inl ⟨_, rfl, hri, hr.2⟩
      · rw [hi]
        exact .inr ⟨e, _, rfl, hri, hr.2⟩

end Faulty

end CredentialEngine.Secret
