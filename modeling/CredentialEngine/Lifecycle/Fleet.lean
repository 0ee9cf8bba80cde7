import CredentialEngine.Lifecycle.World
import CredentialEngine.Resource.Account

/-!
# Several clusters

An account may name the cluster that holds it; other accounts belong to the default one.
-/
namespace CredentialEngine

/-- The default cluster and those known by namespace and name, joined by a slash. -/
structure Fleet (κ : Type) where
  default : κ
  others : Dict κ := .empty

/-- Which cluster of a fleet. -/
inductive Route where
  | default
  | named (key : String)
  deriving DecidableEq, Repr

namespace Fleet

variable {κ : Type}

def at? (f : Fleet κ) : Route → Option κ
  | .default => some f.default
  | .named key => f.others.get? key

def set (f : Fleet κ) (c : κ) : Route → Fleet κ
  | .default => { f with default := c }
  | .named key => { f with others := f.others.insert key c }

/-- The cluster of an account, which must be known if the account names one. -/
def routeOf (f : Fleet κ) (a : Account) : Except Error Route :=
  match a.spec.cluster with
  | none => .ok .default
  | some r =>
    let key := r.space.getD a.metadata.space ++ "/" ++ r.name
    match f.others.get? key with
    | some _ => .ok (.named key)
    | none => .error (.precondition (.unknownCluster a.metadata.key key : Cause))

/-- Runs an operation of one cluster in the world of a fleet. -/
def on {σ α : Type} (r : Route) (act : Action (World σ κ) α) : Action (World σ (Fleet κ)) α :=
  fun w =>
    match w.cluster.at? r with
    | none => .error (.failed .notConnected) w
    | some c =>
      let back (w' : World σ κ) : World σ (Fleet κ) :=
        { secrets := w'.secrets, cluster := w.cluster.set w'.cluster r, drawn := w'.drawn }
      match act { secrets := w.secrets, cluster := c, drawn := w.drawn } with
      | .ok a w' => .ok a (back w')
      | .error h w' => .error h (back w')

end Fleet

end CredentialEngine
