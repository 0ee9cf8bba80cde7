import CredentialEngine.Cluster.Control
import CredentialEngine.Keyring.AccountKeys

/-!
# The world of the engine

The state that an operation works on: the secrets, the cluster and the number of keys drawn so far.
Time, the source of keys and the operator's namespace are given from outside.
-/
namespace CredentialEngine

structure World (σ κ : Type) where
  secrets : σ
  cluster : κ
  /-- How many key pairs have been drawn. -/
  drawn : Nat := 0

/-- What the engine is given from outside. -/
structure Setting where
  /-- The namespace of the operator key and of the system credentials. -/
  operatorSpace : String
  /-- Seconds since 1970. -/
  now : Int
  /-- The seed of the n-th key pair. -/
  keySource : Nat → List UInt8

namespace Setting

def timestamp (s : Setting) : Time.Timestamp :=
  ⟨s.now, 0⟩

end Setting

namespace World

variable {σ κ : Type} {α : Type}

def onSecrets (act : Action σ α) : Action (World σ κ) α :=
  Action.onPart World.secrets (fun s w => { w with secrets := s }) act

def onCluster (act : Action κ α) : Action (World σ κ) α :=
  Action.onPart World.cluster (fun c w => { w with cluster := c }) act

def drawKey (setting : Setting) (role : Key.Role) : Action (World σ κ) Key.Pair := do
  let w ← EStateM.get
  EStateM.set { w with drawn := w.drawn + 1 }
  return Key.Pair.ofSeed role (setting.keySource w.drawn)

/-- The system credentials of a namespace, as the secrets hold them now. -/
def credentials [Storage σ] (w : World σ κ) (space : String) : Except Error Key.Bundle :=
  match Keyring.systemBundle space w.secrets with
  | .ok b _ => .ok b
  | .error (.failed e) _ => .error e
  | .error _ _ => .error .notConnected

/-- Runs a request on a fresh connection, which is given back whether connecting, the request or
neither fails. -/
def connected [Storage σ] [Control κ] (setting : Setting) (request : Action κ α) :
    Action (World σ κ) α := do
  let w ← EStateM.get
  let outcome ← Action.attempt (onCluster do
    Control.connect (credentials w) setting.operatorSpace
    request)
  let w ← EStateM.get
  EStateM.set { w with cluster := Control.disconnect w.cluster }
  Action.ofExcept outcome

end World

end CredentialEngine
