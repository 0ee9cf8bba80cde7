import CredentialEngine.Proofs.Lifecycle.World

/-!
# Transcripts of clusters

A transcript keeps the calls on a cluster together with how each ended. A request on a fresh
connection leaves a bracket in it: connecting, the one call if connecting succeeded, and giving the
connection back. The bracket is cut short only where a call gets no answer.
-/
namespace CredentialEngine

open CredentialEngine.Action

namespace Cluster

/-- How a call has ended. -/
inductive Ending where
  | returned
  | failed (error : Error)
  /-- It never answers, or it has died. -/
  | missing
  deriving DecidableEq, Repr

def Ending.ofHalt : Halt → Ending
  | .failed e => .failed e
  | .stalled => .missing
  | .crashed => .missing

/-- How a call has ended that was answered, with or without a failure. -/
def Ending.ofFailure : Option Error → Ending
  | none => .returned
  | some e => .failed e

structure Exchange where
  call : Call
  ending : Ending
  deriving DecidableEq, Repr

/-- A cluster with the calls on it and how they ended, the latest last. -/
structure Transcribed (κ : Type) where
  exchanges : List Exchange := []
  inner : κ

namespace Transcribed

variable {κ α : Type}

def exchanged (call : Call) (act : Action κ α) : Action (Transcribed κ) α := fun c =>
  match act c.inner with
  | .ok a i => .ok a ⟨c.exchanges ++ [⟨call, .returned⟩], i⟩
  | .error h i => .error h ⟨c.exchanges ++ [⟨call, .ofHalt h⟩], i⟩

instance [Control κ] : Control (Transcribed κ) where
  connect credentials space := exchanged (.connect space) (Control.connect credentials space)
  disconnect c := ⟨c.exchanges ++ [⟨.disconnect, .returned⟩], Control.disconnect c.inner⟩
  upload token := exchanged (.upload token) (Control.upload token)
  delete token := exchanged (.delete token) (Control.delete token)
  lookup id := exchanged (.lookup id) (Control.lookup id)

/-- A call and how it ended are added to the transcript. -/
theorem ends_exchanged {call : Call} {act : Action κ α} {c : Transcribed κ} :
    Ends (attempt (exchanged call act))
      (fun outcome c' => c'.exchanges = c.exchanges ++ [⟨call, .ofFailure (failure? outcome)⟩])
      (fun c' => c'.exchanges = c.exchanges ++ [⟨call, .missing⟩]) c := by
  unfold Ends
  rw [attempt, exchanged]
  cases act c.inner with
  | ok a i => rfl
  | error h i => cases h <;> rfl

end Transcribed

/-! ## Brackets -/

variable {space : String} {asks : Call → Prop} {failure? : Option Error} {made : List Exchange}

/-- The exchanges of one request, of a kind, on a fresh connection; with the error in which
connecting or the request has failed. -/
inductive Bracket (space : String) (asks : Call → Prop) : Option Error → List Exchange → Prop
  | unreached (e : Error) : Bracket space asks (some e)
      [⟨.connect space, .failed e⟩, ⟨.disconnect, .returned⟩]
  | answered {call : Call} (hcall : asks call) (failure? : Option Error) :
      Bracket space asks failure?
        [⟨.connect space, .returned⟩, ⟨call, .ofFailure failure?⟩, ⟨.disconnect, .returned⟩]

/-- What there is of a bracket when a call gets no answer. -/
inductive Cut (space : String) (asks : Call → Prop) : List Exchange → Prop
  | connecting : Cut space asks [⟨.connect space, .missing⟩]
  | asking {call : Call} (hcall : asks call) :
      Cut space asks [⟨.connect space, .returned⟩, ⟨call, .missing⟩]

/-- An error that was passed on: it may say what was being done, and is of the same kind. -/
def Passed (e e' : Error) : Prop :=
  (e' = e ∨ ∃ what, e' = e.within what) ∧ e'.ctorIdx = e.ctorIdx

theorem passed_self (e : Error) : Passed e e := ⟨.inl rfl, rfl⟩

theorem passed_within (what : String) (e : Error) : Passed e (e.within what) :=
  ⟨.inr ⟨what, rfl⟩, by cases e <;> rfl⟩

end Cluster

/-! ## Requests -/

namespace World

open Cluster

variable {σ κ α : Type} [Storage σ] [Control κ] {setting : Setting}

/-- The connection is given back whatever became of connecting and of the request. -/
theorem ends_attempt_connected {request : Action κ α} {w : World σ κ}
    {Q : Except Error α → World σ κ → Prop} {E : World σ κ → Prop}
    (h : Ends (attempt (Control.connect (credentials w) setting.operatorSpace >>= fun _ => request))
      (fun outcome c => Q outcome { w with cluster := Control.disconnect c })
      (fun c => E { w with cluster := c }) w.cluster) :
    Ends (attempt (connected setting request)) Q E w := by
  refine ends_attempt_bind (ends_ok rfl (ends_attempt_bind (ends_attempt_attempt ?_)))
  refine (ends_attempt_onPart (Q := fun outcome w' =>
    Q outcome { w' with cluster := Control.disconnect w'.cluster }) h).mono
      (fun outcome w' hq => ?_) fun _ he => he
  cases outcome <;> exact hq

/-- A request on a fresh connection leaves a bracket, with the error in which it fails. -/
theorem ends_connected_bracket {asks : Call → Prop} {call : Call} {act : Action κ α}
    {w : World σ (Transcribed κ)} (hcall : asks call) :
    Ends (attempt (connected setting (Transcribed.exchanged call act)))
      (fun outcome w' => ∃ made, w'.cluster.exchanges = w.cluster.exchanges ++ made ∧
        Bracket setting.operatorSpace asks (failure? outcome) made)
      (fun w' => ∃ made, w'.cluster.exchanges = w.cluster.exchanges ++ made ∧
        Cut setting.operatorSpace asks made) w := by
  refine ends_attempt_connected (ends_attempt_bind ?_)
  refine Transcribed.ends_exchanged.mono (fun outcome c hc => ?_) fun c hc => ⟨_, hc, .connecting⟩
  cases outcome with
  | error e =>
    refine ⟨_, ?_, .unreached e⟩
    change c.exchanges ++ [⟨.disconnect, .returned⟩] = _
    rw [hc, List.append_assoc]
    rfl
  | ok _ =>
    refine Transcribed.ends_exchanged.mono (fun outcome c' hc' => ?_) fun c' hc' => ?_
    · refine ⟨_, ?_, .answered hcall (failure? outcome)⟩
      change c'.exchanges ++ [⟨.disconnect, .returned⟩] = _
      rw [hc', hc, List.append_assoc, List.append_assoc]
      rfl
    · refine ⟨_, ?_, .asking hcall⟩
      change c'.exchanges = _
      rw [hc', hc, List.append_assoc]
      rfl

end World

end CredentialEngine
