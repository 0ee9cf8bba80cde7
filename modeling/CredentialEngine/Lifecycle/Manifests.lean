import CredentialEngine.Lifecycle.Estate
import CredentialEngine.Manifest
import CredentialEngine.Secret.Filed

/-!
# Running the manifests of a directory

All manifests are declared first and then reconciled, each once: accounts before their users, and
what is to be deleted the other way round, so that an account finds its users gone. Each file is
written back with its resource, or removed with it. A resource that fails stops no other; a file
that cannot be written or removed stops the run.
-/
namespace CredentialEngine

inductive Phase where
  | accounts
  | users
  | userDeletions
  | accountDeletions
  deriving DecidableEq, Repr

namespace Phase

def all : List Phase :=
  [.accounts, .users, .userDeletions, .accountDeletions]

def of (r : Resource) : Phase :=
  match r, r.metadata.isDeleting with
  | .account _, false => .accounts
  | .user _, false => .users
  | .user _, true => .userDeletions
  | .account _, true => .accountDeletions

end Phase

/-- The manifests by phase, and as given within one. -/
def Manifest.inOrder (ms : List Manifest) : List Manifest :=
  Phase.all.flatMap fun p => ms.filter fun m => Phase.of m.resource = p

/-- Brings the file of a manifest to what has become of its resource. -/
def Manifest.conclude (m : Manifest) (r : Reconciled) (t : FileTree) : Except FileFault FileTree :=
  let m := { m with resource := r.resource }
  if r.isGone then m.remove t else m.save t

namespace Estate

variable {σ κ : Type} [Filed σ]

/-- The files among which the secrets stand. -/
def files (e : Estate σ κ) : FileTree :=
  Filed.files e.world.secrets

def setFiles (t : FileTree) (e : Estate σ κ) : Estate σ κ :=
  { e with world := { e.world with secrets := Filed.setFiles t e.world.secrets } }

/-- A change of the files, which may fail. -/
def changeFiles (f : FileTree → Except FileFault FileTree) : Action (Estate σ κ) Unit := fun e =>
  match f e.files with
  | .ok t => .ok () (e.setFiles t)
  | .error fault => .error (.failed (.store (.file fault : Cause))) e

variable [Storage σ] [Control κ]

/-- Reconciles a manifest and brings its file up to date. -/
def runManifest (setting : Setting) (m : Manifest) : Action (Estate σ κ) Reconciled := do
  let result ← reconcile setting m.resource
  changeFiles (m.conclude result)
  return result

/-- Runs manifests one after another and counts the failures. -/
def runManifests (setting : Setting) : List Manifest → Action (Estate σ κ) Nat
  | [] => return 0
  | m :: ms => do
    let result ← runManifest setting m
    let failures ← runManifests setting ms
    return if result.failure?.isSome then failures + 1 else failures

def declare (ms : List Manifest) : Action (Estate σ κ) Unit :=
  modifyCatalog fun c => ms.foldl (fun c m => c.put m.resource) c

/-- Runs the manifests of a directory and counts the failures. -/
def runDirectory (setting : Setting) (d : Directory) (defaults : Manifest.Defaults) :
    Action (Estate σ κ) Nat := do
  let ms ← Action.ofExcept (Manifest.loadAll (← EStateM.get).files d defaults)
  declare ms
  runManifests setting (Manifest.inOrder ms)

end Estate

end CredentialEngine
