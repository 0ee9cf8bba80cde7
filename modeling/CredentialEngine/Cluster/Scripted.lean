import CredentialEngine.Claims.Account
import CredentialEngine.Cluster.Control

/-!
# A cluster in memory

It keeps the published tokens by account and does what a script says: each kind of call works,
fails, is refused, or never answers. A token must be an account's to be published.
-/
namespace CredentialEngine.Cluster

inductive Behaviour where
  | works
  | fails (words : String)
  | refuses (code : Int64) (message : String)
  | hangs
  deriving DecidableEq, Repr

structure Script where
  connect : Behaviour := .works
  upload : Behaviour := .works
  delete : Behaviour := .works
  lookup : Behaviour := .works
  deriving DecidableEq, Repr

/-- A cluster in memory. -/
structure Scripted where
  script : Script := {}
  published : Dict String := .empty
  deriving Inhabited

namespace Scripted

def play {ω : Type} : Behaviour → Action ω Unit
  | .works => pure ()
  | .fails words => Action.fail (.cluster (.words words : Cause))
  | .refuses code message => Action.fail (.rejected code message)
  | .hangs => throw .stalled

def publish (accountId token : String) (s : Scripted) : Scripted :=
  { s with published := s.published.insert accountId token }

instance : Control Scripted where
  connect _ _ := do play (← EStateM.get).script.connect
  disconnect s := s
  upload token := do
    play (← EStateM.get).script.upload
    match Claims.decodeAccount token with
    | .ok c => EStateM.modifyGet fun s => ((), s.publish c.subject token)
    | .error e => Action.fail (.claims e)
  delete _ := do play (← EStateM.get).script.delete
  lookup accountId := do
    play (← EStateM.get).script.lookup
    return ((← EStateM.get).published.get? accountId).getD ""

end Scripted

end CredentialEngine.Cluster
