import CredentialEngine.Error
import CredentialEngine.Secret.Record

/-!
# Storage of secrets

A storage answers six operations. An operation that does not return either fails with an error,
never answers, or dies; what it did to the state up to then stays.
-/
namespace CredentialEngine

/-- How an operation ends that does not return. -/
inductive Halt where
  | failed (error : Error)
  /-- It never answers. -/
  | stalled
  /-- It dies without an error. -/
  | crashed
  deriving DecidableEq, Repr

/-- An operation on a state that may halt. Changes made before a halt remain. -/
abbrev Action (ω : Type) := EStateM Halt ω

namespace Action

variable {ω α : Type}

def fail (e : Error) : Action ω α :=
  throw (.failed e)

/-- The outcome of an operation as a value, errors included. Other halts pass through. -/
def attempt (act : Action ω α) : Action ω (Except Error α) := fun s =>
  match act s with
  | .ok a s => .ok (.ok a) s
  | .error (.failed e) s => .ok (.error e) s
  | .error h s => .error h s

/-- Says in an error what was being done. -/
def within (what : String) (act : Action ω α) : Action ω α := fun s =>
  match act s with
  | .error (.failed e) s => .error (.failed (e.within what)) s
  | r => r

def ofExcept : Except Error α → Action ω α
  | .ok a => pure a
  | .error e => fail e

/-- An operation on a part of the state. -/
def onPart {π : Type} (get : ω → π) (set : π → ω → ω) (act : Action π α) : Action ω α := fun s =>
  match act (get s) with
  | .ok a p => .ok a (set p s)
  | .error h p => .error h (set p s)

end Action

/-- A place that keeps secrets, addressed by location and found by labels. -/
class Storage (σ : Type) where
  /-- The record at a location, which must exist. -/
  get : Secret.Location → Action σ Secret.Record
  /-- The records of a namespace that carry every label of a selector, sorted by name. -/
  list : String → Labels → Action σ (List Secret.Record)
  /-- Adds a record where there is none. -/
  create : Secret.Record → Action σ Unit
  /-- Replaces an existing record. -/
  update : Secret.Record → Action σ Unit
  /-- Removes an existing record. -/
  delete : Secret.Location → Action σ Unit
  /-- Removes the selected records and counts them. -/
  deleteSelected : String → Labels → Action σ Nat

end CredentialEngine
