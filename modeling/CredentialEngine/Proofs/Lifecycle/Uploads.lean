import CredentialEngine.Proofs.Lifecycle.Calls

/-!
# Tokens handed to clusters

A cluster that notes its calls tells which tokens it was handed for publication. A request on a
fresh connection adds to them what the request itself hands over, and an operation on one cluster of
a fleet that was handed nothing yet leaves in the fleet what that cluster was handed. Observing and
revoking an account hand nothing over.
-/
namespace CredentialEngine

open CredentialEngine.Action Cluster

namespace Cluster

/-- The token that a call hands over for publication. -/
def Call.uploaded? : Call → Option String
  | .upload token => some token
  | _ => none

namespace Recorded

variable {κ : Type} {c c' : Recorded κ}

/-- The tokens that a cluster was handed for publication, the latest last. -/
def uploads (c : Recorded κ) : List String :=
  c.calls.filterMap Call.uploaded?

/-- Calls that hand nothing over add nothing to what was handed over. -/
theorem Since.uploads_eq (h : Since (·.uploaded? = none) c c') : c'.uploads = c.uploads := by
  obtain ⟨made, hcalls, hmade⟩ := h
  rw [uploads, uploads, hcalls, List.filterMap_append, List.filterMap_eq_nil_iff.mpr hmade,
    List.append_nil]

end Recorded

end Cluster

/-- A request hands over what its call does, if the call is made. -/
theorem World.Requested.uploads_eq {σ κ : Type} [Storage σ] [Control κ] {setting : Setting}
    {call : Call} {w w' : World σ (Recorded κ)} (h : World.Requested setting call w w') :
    w'.cluster.uploads = w.cluster.uploads ++
      if w.cluster.reaches (World.credentials w) setting.operatorSpace then call.uploaded?.toList
      else [] := by
  obtain ⟨closing, hclosing, hcalls⟩ := h.calls
  have hnone : closing.filterMap Call.uploaded? = [] := by
    rcases hclosing with rfl | rfl <;> rfl
  rw [Recorded.uploads, Recorded.uploads, hcalls, List.filterMap_append,
    List.filterMap_cons_none rfl, List.filterMap_append, hnone, List.append_nil]
  split
  · cases hc : call.uploaded? <;> simp [hc]
  · rfl

namespace Fleet

variable {σ κ α : Type}

/-- The tokens that the clusters of a fleet were handed for publication. -/
def uploads (f : Fleet (Recorded κ)) : List String :=
  f.default.uploads ++ f.others.entries.flatMap fun e => e.2.uploads

theorem flatMap_insertEntry {β γ : Type} {g : β → List γ} {k : String} {v : β}
    {es : List (String × β)} (h : es.flatMap (fun e => g e.2) = []) :
    (insertEntry k v es).flatMap (fun e => g e.2) = g v := by
  induction es with
  | nil => simp [insertEntry]
  | cons e es ih =>
    obtain ⟨k', v'⟩ := e
    rw [List.flatMap_cons, List.append_eq_nil_iff] at h
    rw [insertEntry]
    split
    · simp [h.1, h.2]
    · split
      · simp [h.2]
      · simp [h.1, ih h.2]

/-- Where no cluster was handed anything, a new state of one is all that the fleet was handed. -/
theorem uploads_set {f : Fleet (Recorded κ)} (h : f.uploads = []) (c : Recorded κ) (r : Route) :
    (f.set c r).uploads = c.uploads := by
  rw [uploads, List.append_eq_nil_iff] at h
  cases r with
  | default => rw [uploads, set, h.2, List.append_nil]
  | named key =>
    rw [uploads, set, h.1, List.nil_append]
    exact flatMap_insertEntry h.2

theorem uploads_at? {f : Fleet (Recorded κ)} (h : f.uploads = []) {r : Route} {c : Recorded κ}
    (hc : f.at? r = some c) : c.uploads = [] := by
  rw [uploads, List.append_eq_nil_iff, List.flatMap_eq_nil_iff] at h
  cases r with
  | default => exact Option.some.inj hc ▸ h.1
  | named key =>
    exact h.2 (key, c) (Dict.mem_entries_of_get? hc)

/-- What an operation leaves of a cluster that was handed nothing is what it leaves in the fleet. -/
theorem ends_on_uploads {r : Route} {act : Action (World σ (Recorded κ)) α}
    {w : World σ (Fleet (Recorded κ))} {Q : α → σ → Recorded κ → Prop} {E : σ → Recorded κ → Prop}
    (hw : w.cluster.uploads = [])
    (h : ∀ c : Recorded κ, c.uploads = [] → Ends act (fun a w' => Q a w'.secrets w'.cluster)
      (fun w' => E w'.secrets w'.cluster) ⟨w.secrets, c, w.drawn⟩) :
    Ends (on r act)
      (fun a w' => ∃ c, w'.cluster.at? r = some c ∧ w'.cluster.uploads = c.uploads ∧
        Q a w'.secrets c)
      (fun w' => w' = w ∨ ∃ c, w'.cluster.at? r = some c ∧ w'.cluster.uploads = c.uploads ∧
        E w'.secrets c) w := by
  unfold Ends
  rw [on]
  cases hc : w.cluster.at? r with
  | none => exact .inl rfl
  | some c =>
    have hact := h c (uploads_at? hw hc)
    unfold Ends at hact
    simp only []
    cases hr : act ⟨w.secrets, c, w.drawn⟩ with
    | ok a w' =>
      rw [hr] at hact
      exact ⟨w'.cluster, at?_set_self _ _ _, uploads_set hw _ _, hact⟩
    | error e w' =>
      rw [hr] at hact
      exact .inr ⟨w'.cluster, at?_set_self _ _ _, uploads_set hw _ _, hact⟩

end Fleet

/-! ## Operations that hand nothing over -/

namespace Lifecycle

variable {σ κ : Type} [Storage σ] [Control κ] {setting : Setting} {a : Account}

/-- An operation hands nothing over. -/
def HandsNothing {α : Type} (act : Action (World σ (Recorded κ)) α) (w : World σ (Recorded κ)) :
    Prop :=
  Ends act (fun _ w' => w'.cluster.uploads = []) (fun w' => w'.cluster.uploads = []) w

omit [Storage σ] [Control κ] in
theorem handsNothing_of_calls {α : Type} {act : Action (World σ (Recorded κ)) α}
    {w : World σ (Recorded κ)} (hw : w.cluster.uploads = [])
    (h : Calls (·.uploaded? = none) w.cluster act w) : HandsNothing act w :=
  Ends.mono h (fun _ _ hs => hs.uploads_eq.trans hw) fun _ hs => hs.uploads_eq.trans hw

theorem observeAccount_handsNothing {w : World σ (Recorded κ)} (hw : w.cluster.uploads = []) :
    HandsNothing (observeAccount setting a) w :=
  handsNothing_of_calls hw (calls_observeAccount (.refl _) ⟨fun _ => rfl, rfl⟩ fun _ => rfl)

theorem revokeAccount_handsNothing {w : World σ (Recorded κ)} (hw : w.cluster.uploads = []) :
    HandsNothing (revokeAccount setting a) w :=
  handsNothing_of_calls hw (calls_revokeAccount (.refl _) ⟨fun _ => rfl, rfl⟩ fun _ => rfl)

end Lifecycle

end CredentialEngine
