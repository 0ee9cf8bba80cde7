import CredentialEngine.Proofs.Lifecycle.Runs
import Mathlib.Data.List.Nodup

/-!
# Phases of a run

A run may go through the manifests once in each phase and take those that are in the phase by then.
It takes the same manifests in the same order as one that sorts them out beforehand, because a
reconcile changes neither the kind of a resource nor its mark of deletion.
-/
namespace CredentialEngine

open CredentialEngine.Action

/-! ## The order of a run -/

namespace Phase

/-- The kind of the resources in a phase. -/
def kind : Phase → String
  | .accounts | .accountDeletions => "Account"
  | .users | .userDeletions => "User"

/-- Whether the resources in a phase are marked for deletion. -/
def marked : Phase → Bool
  | .accounts | .users => false
  | .userDeletions | .accountDeletions => true

theorem of_eq_iff (r : Resource) (p : Phase) :
    Phase.of r = p ↔ r.kind = p.kind ∧ r.metadata.isDeleting = p.marked := by
  cases r with
  | account a =>
    cases hd : (Resource.account a).metadata.isDeleting <;> cases p <;>
      simp [Phase.of, hd, Resource.kind, kind, marked]
  | user u =>
    cases hd : (Resource.user u).metadata.isDeleting <;> cases p <;>
      simp [Phase.of, hd, Resource.kind, kind, marked]

theorem of_eq_of_same {r r' : Resource} (h : Lifecycle.SameResource r r') :
    Phase.of r' = Phase.of r := by
  obtain ⟨hkind, hmark⟩ := (of_eq_iff r _).mp rfl
  refine (of_eq_iff r' _).mpr ⟨?_, h.metadata.isDeleting.trans hmark⟩
  rw [← hkind]
  cases r <;> cases r' <;> first | rfl | exact h.elim

theorem mem_all (p : Phase) : p ∈ all := by
  cases p <;> decide

theorem nodup_all : all.Nodup := by
  decide

end Phase

namespace Manifest

/-- The manifests of a kind that are marked for deletion, or those that are not. -/
def selected (kind : String) (marked : Bool) (ms : List Manifest) : List Manifest :=
  ms.filter fun m => m.resource.kind = kind ∧ m.resource.metadata.isDeleting = marked

/-- The manifests that are in a phase. -/
def inPhase (p : Phase) (ms : List Manifest) : List Manifest :=
  ms.filter fun m => Phase.of m.resource = p

theorem inPhase_cons_of_pos {p : Phase} {m : Manifest} (h : Phase.of m.resource = p)
    (ms : List Manifest) : inPhase p (m :: ms) = m :: inPhase p ms :=
  List.filter_cons_of_pos (by simpa using h)

theorem inPhase_cons_of_neg {p : Phase} {m : Manifest} (h : Phase.of m.resource ≠ p)
    (ms : List Manifest) : inPhase p (m :: ms) = inPhase p ms :=
  List.filter_cons_of_neg (by simpa using h)

theorem inPhase_eq_selected (p : Phase) (ms : List Manifest) :
    inPhase p ms = selected p.kind p.marked ms :=
  List.filter_congr fun m _ => decide_eq_decide.mpr (Phase.of_eq_iff m.resource p)

/-- Accounts come first, then users, then the users and at last the accounts that are marked for
deletion. -/
theorem inOrder_eq (ms : List Manifest) :
    inOrder ms = selected "Account" false ms ++ selected "User" false ms ++
      selected "User" true ms ++ selected "Account" true ms := by
  have hphases : inOrder ms = inPhase .accounts ms ++ inPhase .users ms ++
      inPhase .userDeletions ms ++ inPhase .accountDeletions ms := by
    change Phase.all.flatMap (inPhase · ms) = _
    simp [Phase.all]
  rw [hphases]
  simp only [inPhase_eq_selected, Phase.kind, Phase.marked]

/-- Going through some phases takes each manifest that is in one of them once. -/
theorem perm_flatMap_inPhase {ps : List Phase} (hps : ps.Nodup) {ms : List Manifest}
    (h : ∀ m ∈ ms, Phase.of m.resource ∈ ps) : (ps.flatMap (inPhase · ms)).Perm ms := by
  induction ps generalizing ms with
  | nil =>
    cases ms with
    | nil => exact .nil
    | cons m ms => exact absurd (h m List.mem_cons_self) List.not_mem_nil
  | cons p ps ih =>
    obtain ⟨hp, hps⟩ := List.nodup_cons.mp hps
    let rest := ms.filter fun m => !decide (Phase.of m.resource = p)
    have hrest : ps.flatMap (inPhase · ms) = ps.flatMap (inPhase · rest) := by
      refine List.flatMap_congr fun q hq => ?_
      rw [inPhase, inPhase, List.filter_filter]
      refine List.filter_congr fun m _ => ?_
      have hqp : q ≠ p := fun he => hp (he ▸ hq)
      by_cases hm : Phase.of m.resource = q <;> simp [hm, hqp]
    have hmem : ∀ m ∈ rest, Phase.of m.resource ∈ ps := by
      intro m hm
      obtain ⟨hm, hne⟩ := List.mem_filter.mp hm
      refine (List.mem_cons.mp (h m hm)).resolve_left fun he => ?_
      simp [he] at hne
    rw [List.flatMap_cons, hrest]
    exact ((ih hps hmem).append_left _).trans (List.filter_append_perm _ ms)

theorem inOrder_perm (ms : List Manifest) : (inOrder ms).Perm ms :=
  perm_flatMap_inPhase Phase.nodup_all fun _ _ => Phase.mem_all _

/-- Manifests with paths of their own keep them apart in a run. -/
theorem path_ne_of_inOrder {ms before after : List Manifest} {m m' : Manifest}
    (hnodup : (ms.map (·.path)).Nodup) (horder : inOrder ms = before ++ m :: after)
    (hm' : m' ∈ before) : m'.path ≠ m.path := by
  have horderly := ((inOrder_perm ms).map (·.path)).nodup_iff.mpr hnodup
  rw [horder, List.map_append] at horderly
  exact (List.nodup_append.mp horderly).2.2 _ (List.mem_map_of_mem hm') _ (by simp)

end Manifest

namespace Estate

variable {σ κ : Type} [Storage σ] [Filed σ] [Control κ]

/-! ## Runs by phases -/

/-- Runs the manifests that are in a phase when it is their turn, counts the failures and keeps all
manifests with what has become of their resources. -/
def runPhase (setting : Setting) (p : Phase) :
    List Manifest → Action (Estate σ κ) (Nat × List Manifest)
  | [] => return (0, [])
  | m :: ms => do
    if Phase.of m.resource = p then
      let result ← runManifest setting m
      let (failures, ms) ← runPhase setting p ms
      return (if result.failure?.isSome then failures + 1 else failures,
        { m with resource := result.resource } :: ms)
    else
      let (failures, ms) ← runPhase setting p ms
      return (failures, m :: ms)

/-- Runs manifests phase by phase and counts the failures. -/
def runPhases (setting : Setting) : List Phase → List Manifest → Action (Estate σ κ) Nat
  | [], _ => return 0
  | p :: ps, ms => do
    let (failures, ms) ← runPhase setting p ms
    let later ← runPhases setting ps ms
    return failures + later

variable {setting : Setting}

theorem runManifests_append (ms ms' : List Manifest) :
    (runManifests setting (ms ++ ms') : Action (Estate σ κ) Nat) = do
      let failures ← runManifests setting ms
      let later ← runManifests setting ms'
      return failures + later := by
  induction ms with
  | nil => simp only [List.nil_append, runManifests, pure_bind, Nat.zero_add, bind_pure]
  | cons m ms ih =>
    simp only [List.cons_append, runManifests, ih, bind_assoc, pure_bind]
    refine congrArg _ (funext fun result => congrArg _ (funext fun failures => ?_))
    refine congrArg _ (funext fun later => congrArg pure ?_)
    split <;> omega

/-- A phase runs the manifests that are in it, and leaves those of other phases as they were. -/
theorem runPhase_eq (setting : Setting) (p : Phase) (ms : List Manifest) (e : Estate σ κ) :
    match runManifests setting (Manifest.inPhase p ms) e with
    | .ok failures e' => ∃ ms', runPhase setting p ms e = .ok (failures, ms') e' ∧
        ∀ q ≠ p, Manifest.inPhase q ms' = Manifest.inPhase q ms
    | .error halt e' => runPhase setting p ms e = .error halt e' := by
  induction ms generalizing e with
  | nil => exact ⟨[], rfl, fun _ _ => rfl⟩
  | cons m ms ih =>
    by_cases hm : Phase.of m.resource = p
    · rw [Manifest.inPhase_cons_of_pos hm]
      simp only [runManifests, runPhase, hm, if_true]
      cases hrun : runManifest setting m e with
      | error halt e₁ =>
        rw [bind_of_error hrun]
        exact bind_of_error hrun
      | ok r e₁ =>
        rw [bind_of_ok hrun, bind_of_ok hrun]
        have hafter := ih e₁
        cases hrest : runManifests setting (Manifest.inPhase p ms) e₁ with
        | error halt e₂ =>
          rw [hrest] at hafter
          rw [bind_of_error hrest]
          exact bind_of_error hafter
        | ok failures e₂ =>
          rw [hrest] at hafter
          obtain ⟨ms', hphase, hothers⟩ := hafter
          rw [bind_of_ok hrest]
          refine ⟨_, by rw [bind_of_ok hphase]; rfl, fun q hq => ?_⟩
          have hne : Phase.of m.resource ≠ q := fun he => hq (he.symm.trans hm)
          have hne' : Phase.of r.resource ≠ q := by
            rwa [Phase.of_eq_of_same (ends_runManifest.returned hrun).2]
          rw [Manifest.inPhase_cons_of_neg hne, Manifest.inPhase_cons_of_neg hne', hothers q hq]
    · rw [Manifest.inPhase_cons_of_neg hm]
      simp only [runPhase, hm, if_false]
      have hafter := ih e
      cases hrest : runManifests setting (Manifest.inPhase p ms) e with
      | error halt e₁ =>
        rw [hrest] at hafter
        exact bind_of_error hafter
      | ok failures e₁ =>
        rw [hrest] at hafter
        obtain ⟨ms', hphase, hothers⟩ := hafter
        refine ⟨_, by rw [bind_of_ok hphase]; rfl, fun q hq => ?_⟩
        by_cases hmq : Phase.of m.resource = q
        · rw [Manifest.inPhase_cons_of_pos hmq, Manifest.inPhase_cons_of_pos hmq, hothers q hq]
        · rw [Manifest.inPhase_cons_of_neg hmq, Manifest.inPhase_cons_of_neg hmq, hothers q hq]

/-- Manifests that are looked at in each of some phases are run as if they had been sorted out
beforehand. -/
theorem runPhases_eq {ps : List Phase} (hps : ps.Nodup) (ms : List Manifest) :
    (runPhases setting ps ms : Action (Estate σ κ) Nat) =
      runManifests setting (ps.flatMap (Manifest.inPhase · ms)) := by
  induction ps generalizing ms with
  | nil => rfl
  | cons p ps ih =>
    obtain ⟨hp, hps⟩ := List.nodup_cons.mp hps
    rw [List.flatMap_cons, runManifests_append]
    funext e
    have hphase := runPhase_eq setting p ms e
    cases hrun : runManifests setting (Manifest.inPhase p ms) e with
    | error halt e₁ =>
      rw [hrun] at hphase
      rw [bind_of_error hrun]
      exact bind_of_error hphase
    | ok failures e₁ =>
      rw [hrun] at hphase
      obtain ⟨ms', hphase, hothers⟩ := hphase
      have hlater : ps.flatMap (Manifest.inPhase · ms') = ps.flatMap (Manifest.inPhase · ms) :=
        List.flatMap_congr fun q hq => hothers q fun he => hp (he ▸ hq)
      rw [bind_of_ok hrun, runPhases, bind_of_ok hphase]
      change (runPhases setting ps ms' >>= fun later => pure (failures + later)) e₁ = _
      rw [ih hps ms', hlater]

/-- The phases of a run take the manifests in the order of a run. -/
theorem runPhases_all (ms : List Manifest) :
    (runPhases setting Phase.all ms : Action (Estate σ κ) Nat) =
      runManifests setting (Manifest.inOrder ms) :=
  runPhases_eq Phase.nodup_all ms

end Estate

end CredentialEngine
