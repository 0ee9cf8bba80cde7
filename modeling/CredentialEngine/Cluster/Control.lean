import CredentialEngine.Secret.Storage

/-!
# Control of a cluster

What the engine asks of a cluster, and a wrapper that keeps the calls in order.
-/
namespace CredentialEngine

class Control (κ : Type) where
  /-- Connects with the credentials of a namespace, which the first argument finds. Nothing happens
  when connected. -/
  connect : (String → Except Error Key.Bundle) → String → Action κ Unit
  /-- Gives the connection back; never fails. -/
  disconnect : κ → κ
  /-- Publishes the token of an account. -/
  upload : String → Action κ Unit
  /-- Submits a request to delete accounts. -/
  delete : String → Action κ Unit
  /-- The published token of an account; blank when there is none. -/
  lookup : String → Action κ String

namespace Cluster

inductive Call where
  | connect (space : String)
  | disconnect
  | upload (token : String)
  | delete (token : String)
  | lookup (accountId : String)
  deriving DecidableEq, Repr

/-- A cluster with the calls made on it, the latest last. -/
structure Recorded (κ : Type) where
  calls : List Call := []
  inner : κ

namespace Recorded

variable {κ : Type}

def noted {α : Type} (c : Call) (act : Action κ α) : Action (Recorded κ) α := fun s =>
  Action.onPart Recorded.inner (fun i s => { s with inner := i }) act
    { s with calls := s.calls ++ [c] }

instance [Control κ] : Control (Recorded κ) where
  connect credentials space := noted (.connect space) (Control.connect credentials space)
  disconnect s := { calls := s.calls ++ [.disconnect], inner := Control.disconnect s.inner }
  upload token := noted (.upload token) (Control.upload token)
  delete token := noted (.delete token) (Control.delete token)
  lookup id := noted (.lookup id) (Control.lookup id)

end Recorded

end Cluster

end CredentialEngine
