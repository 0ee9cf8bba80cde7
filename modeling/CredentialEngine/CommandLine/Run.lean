import CredentialEngine.CommandLine.Arguments
import CredentialEngine.Lifecycle.Manifests

/-!
# Running a command line

A run reads and writes the files around it and ends with a code and a text. Zero says that all went
well, one that something failed, two that the arguments were refused or that nothing is published.
-/
namespace CredentialEngine.CommandLine

structure Surroundings where
  /-- Seconds since 1970. -/
  now : Int
  /-- The seed of the n-th key pair. -/
  keySource : Nat → List UInt8
  /-- The identity of the n-th manifest, if it has none. -/
  uid : Nat → String

structure Outcome where
  exit : Nat
  output : String := ""
  deriving DecidableEq, Repr

namespace Outcome

def done : Outcome := ⟨0, ""⟩

def failed : Outcome := ⟨1, ""⟩

/-- The arguments were refused, or nothing was found. -/
def refused : Outcome := ⟨2, ""⟩

end Outcome

namespace Invocation

variable {τ : Type} [Cluster.Transport τ]

def setting (s : Surroundings) (i : Invocation) : CredentialEngine.Setting :=
  { operatorSpace := i.space, now := s.now, keySource := s.keySource }

/-- Shows the claims that are published for an account. -/
def lookup (s : Surroundings) (i : Invocation) (accountId : String) :
    Action (World Secret.Folder (Cluster.Link τ)) Outcome := do
  match ← Lifecycle.publishedClaims (i.setting s) accountId with
  | some claims => return ⟨0, Yaml.write claims.view.toJson ++ "\n"⟩
  | none => return .refused

def reconcile (s : Surroundings) (i : Invocation) (directory : String) :
    Action (Estate Secret.Folder (Cluster.Link τ)) Outcome := do
  let failures ← Estate.runDirectory (i.setting s) (Directory.ofText directory) ⟨i.space, s.uid⟩
  return if failures = 0 then .done else .failed

/-- Runs an invocation on a tree of files, if it is of any use. -/
def run (s : Surroundings) (i : Invocation) (transport : τ) (t : FileTree) : Outcome × FileTree :=
  match i.unfit? with
  | some _ => (.failed, t)
  | none =>
    let secrets : Secret.Folder := ⟨t, Path.ofText i.secretsDirectory⟩
    let link : Cluster.Link τ := { config := i.link, transport }
    match i.command with
    | .lookup accountId =>
      match lookup s i accountId { secrets, cluster := link } with
      | .ok outcome w => (outcome, w.secrets.files)
      | .error _ w => (.failed, w.secrets.files)
    | .reconcile directory =>
      match reconcile s i directory { world := { secrets, cluster := { default := link } } } with
      | .ok outcome e => (outcome, e.files)
      | .error _ e => (.failed, e.files)

end Invocation

def run {τ : Type} [Cluster.Transport τ] (s : Surroundings) (arguments : List String)
    (environment : Dict String) (transport : τ) (t : FileTree) : Outcome × FileTree :=
  match Invocation.ofArguments arguments environment with
  | .ok i => i.run s transport t
  | .error .help => (.done, t)
  | .error .refused => (.refused, t)

end CredentialEngine.CommandLine
