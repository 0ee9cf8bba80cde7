import CredentialEngine.Lifecycle.Reconcile
import CredentialEngine.Resource.Basic

/-!
# Estates

An estate is a world of several clusters with the catalog of the resources declared in it. A
reconciled resource is filed in the catalog as it is afterwards; one that was deleted leaves it.
-/
namespace CredentialEngine

/-- A world and the catalog of what is declared in it. -/
structure Estate (σ κ : Type) where
  world : World σ (Fleet κ)
  catalog : Catalog := {}

/-- A resource after a reconcile, with the failure if there was one. -/
structure Reconciled where
  resource : Resource
  failure? : Option Error
  deriving DecidableEq

namespace Reconciled

/-- The resource was to be deleted, and is. -/
def isGone (r : Reconciled) : Bool :=
  r.failure?.isNone && r.resource.metadata.isDeleting

/-- Files the resource, or takes it out if it is gone. -/
def file (r : Reconciled) (c : Catalog) : Catalog :=
  if r.isGone then c.remove r.resource else c.put r.resource

end Reconciled

namespace Lifecycle

variable {σ κ : Type} [Storage σ] [Control κ]

def reconcile (setting : Setting) (catalog : Catalog) (r : Resource) :
    Action (World σ (Fleet κ)) Reconciled := do
  let failure? {α : Type} : Except Error α → Option Error
    | .ok _ => none
    | .error e => some e
  match r with
  | .account a =>
    let (outcome, a) ← reconcileAccount setting catalog a
    return ⟨.account a, failure? outcome⟩
  | .user u =>
    let (outcome, u) ← reconcileUser setting catalog u
    return ⟨.user u, failure? outcome⟩

end Lifecycle

namespace Estate

variable {σ κ : Type} {α : Type}

def onWorld (act : Action (World σ (Fleet κ)) α) : Action (Estate σ κ) α :=
  Action.onPart Estate.world (fun w e => { e with world := w }) act

def modifyCatalog (f : Catalog → Catalog) : Action (Estate σ κ) Unit :=
  EStateM.modifyGet fun e => ((), { e with catalog := f e.catalog })

def reconcile [Storage σ] [Control κ] (setting : Setting) (r : Resource) :
    Action (Estate σ κ) Reconciled := do
  let result ← onWorld (Lifecycle.reconcile setting (← EStateM.get).catalog r)
  modifyCatalog result.file
  return result

end Estate

end CredentialEngine
