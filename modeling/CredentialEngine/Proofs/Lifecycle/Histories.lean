import CredentialEngine.Proofs.Lifecycle.Invariants
import CredentialEngine.Proofs.Lifecycle.Phases
import Mathlib.Data.List.Induction

/-!
# Histories of runs

A history lists the manifests that have had their turn, with what became of each. Manifests that
were run have gone through a history, and who goes through a history runs its manifests.
-/
namespace CredentialEngine.Estate

open CredentialEngine.Action

variable {σ κ : Type} [Storage σ] [Filed σ] [Control κ]

/-! ## Histories -/

/-- Manifests have had their turns one after another: each was reconciled as the one before it has
left the estate, and then its file was brought up to date. -/
inductive Ran (setting : Setting) (e : Estate σ κ) :
    List (Manifest × Reconciled) → Estate σ κ → Prop
  | start : Ran setting e [] e
  | turn {results : List (Manifest × Reconciled)} {e₁ e₂ : Estate σ κ} {m : Manifest}
    {r : Reconciled} {t : FileTree} (h : Ran setting e results e₁)
    (hreconcile : reconcile setting m.resource e₁ = .ok r e₂)
    (hfile : m.conclude r e₂.files = .ok t) :
    Ran setting e (results ++ [(m, r)]) (e₂.setFiles t)

/-- How many of the reconciles have failed. -/
def failures (results : List (Manifest × Reconciled)) : Nat :=
  results.countP fun x => x.2.failure?.isSome

variable {setting : Setting} {e e' e₁ e₂ : Estate σ κ} {m : Manifest} {r : Reconciled}
  {results : List (Manifest × Reconciled)}

theorem runManifest_of_ok {t : FileTree} (hreconcile : reconcile setting m.resource e₁ = .ok r e₂)
    (hfile : m.conclude r e₂.files = .ok t) :
    runManifest setting m e₁ = .ok r (e₂.setFiles t) := by
  have hchange : changeFiles (m.conclude r) e₂ = .ok () (e₂.setFiles t) := by
    rw [changeFiles, hfile]
  rw [runManifest, bind_of_ok hreconcile, bind_of_ok hchange]
  rfl

/-- Who has gone through a history has run its manifests and counted its failures. -/
theorem Ran.runManifests_eq (h : Ran setting e results e') :
    runManifests setting (results.map (·.1)) e = .ok (failures results) e' := by
  induction h with
  | start => rfl
  | @turn results e₁ e₂ m r t h hreconcile hfile ih =>
    have hrun := runManifest_of_ok hreconcile hfile
    have hlast : runManifests setting [m] e₁ =
        .ok (if r.failure?.isSome then 1 else 0) (e₂.setFiles t) := by
      rw [runManifests, bind_of_ok hrun]
      rfl
    rw [List.map_append, List.map_singleton, runManifests_append, bind_of_ok ih, bind_of_ok hlast,
      failures, failures, List.countP_append, List.countP_singleton]
    rfl

omit [Storage σ] [Control κ] in
theorem of_changeFiles_ok {f : FileTree → Except FileFault FileTree} {e' : Estate σ κ}
    (h : changeFiles f e = .ok () e') : ∃ t, f e.files = .ok t ∧ e' = e.setFiles t := by
  rw [changeFiles] at h
  split at h
  · exact ⟨_, ‹_›, (EStateM.Result.ok.inj h).2.symm⟩
  · contradiction

/-- Manifests that were run have gone through a history. -/
theorem exists_ran_of_ok {ms : List Manifest} {n : Nat}
    (h : runManifests setting ms e = .ok n e') :
    ∃ results, results.map (·.1) = ms ∧ Ran setting e results e' := by
  induction ms using List.reverseRecOn generalizing n e' with
  | nil =>
    obtain ⟨-, rfl⟩ := EStateM.Result.ok.inj h
    exact ⟨[], rfl, .start⟩
  | append_singleton ms m ih =>
    rw [runManifests_append] at h
    obtain ⟨n₁, e₁, hms, h⟩ := of_bind_ok h
    obtain ⟨n₂, e₂, hlast, h⟩ := of_bind_ok h
    obtain ⟨-, rfl⟩ := EStateM.Result.ok.inj h
    obtain ⟨r, e₃, n₃, hm, hnone⟩ := of_runManifests_cons hlast
    obtain ⟨-, rfl⟩ := EStateM.Result.ok.inj hnone
    obtain ⟨r', e₄, hreconcile, h⟩ := of_bind_ok hm
    obtain ⟨⟨⟩, e₅, hchange, h⟩ := of_bind_ok h
    obtain ⟨rfl, rfl⟩ := EStateM.Result.ok.inj h
    obtain ⟨t, hfile, rfl⟩ := of_changeFiles_ok hchange
    obtain ⟨results, rfl, hran⟩ := ih hms
    exact ⟨results ++ [(m, r')], by rw [List.map_append, List.map_singleton],
      .turn hran hreconcile hfile⟩

omit [Filed σ] in
/-- A reconcile ends without a result only where an operation of the storage or of a cluster
dies. -/
theorem crashed_of_reconcile {x : Resource} {halt : Halt}
    (h : reconcile setting x e = .error halt e') : halt = .crashed :=
  ((maintains_reconcile .trivial .trivial (fun _ => trivial) setting x).of_error
    ⟨trivial, fun _ _ _ => trivial⟩ h).1.2

/-! ## Turns of a run -/

section Runs

variable {d : Directory} {defaults : Manifest.Defaults} {ms : List Manifest}

/-- In no turn an operation of the storage or of a cluster dies. -/
def Lives (setting : Setting) (d : Directory) (defaults : Manifest.Defaults) (e : Estate σ κ)
    (ms : List Manifest) : Prop :=
  ∀ before m e₁ e₂, Turn setting d defaults e ms before m e₁ →
    reconcile setting m.resource e₁ ≠ .error .crashed e₂

/-- In every turn the file of the manifest can be written or removed. -/
def Files (setting : Setting) (d : Directory) (defaults : Manifest.Defaults) (e : Estate σ κ)
    (ms : List Manifest) : Prop :=
  ∀ before m e₁ r e₂, Turn setting d defaults e ms before m e₁ →
    reconcile setting m.resource e₁ = .ok r e₂ → ∃ t, m.conclude r e₂.files = .ok t

/-- In the turns that come after that of a manifest, its file stays as it is while the other
manifest is reconciled. -/
def Spares (setting : Setting) (d : Directory) (defaults : Manifest.Defaults) (e : Estate σ κ)
    (ms : List Manifest) (m : Manifest) : Prop :=
  ∀ before m' e₁ r e₂, Turn setting d defaults e ms before m' e₁ → m ∈ before →
    reconcile setting m'.resource e₁ = .ok r e₂ → e₂.files.read m.path = e₁.files.read m.path

/-- A history that has come to a manifest is its turn. -/
theorem Ran.turn_of_order (hload : Manifest.loadAll e.files d defaults = .ok ms)
    (h : Ran setting (declared ms e) results e₁) {after : List Manifest}
    (horder : Manifest.inOrder ms = results.map (·.1) ++ m :: after) :
    Turn setting d defaults e ms (results.map (·.1)) m e₁ :=
  ⟨hload, ⟨after, horder⟩, _, h.runManifests_eq⟩

end Runs

end CredentialEngine.Estate
