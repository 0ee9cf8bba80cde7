import CredentialEngine.Cluster.Link
import CredentialEngine.CommandLine.Setting
import CredentialEngine.Text.Blank

/-!
# Invocations

What a command line asks for: a command and the settings it runs under. Settings may be well-formed
and still be of no use; the first such fault is reported before anything is done.
-/
namespace CredentialEngine.CommandLine

inductive Command where
  /-- Reconciles the manifests in a directory. -/
  | reconcile (directory : String)
  /-- Shows what is published for an account. -/
  | lookup (accountId : String)
  deriving DecidableEq, Repr

structure Invocation where
  command : Command
  link : Cluster.LinkConfig
  /-- The namespace of the operator, and of manifests that name none. -/
  space : String
  secretsDirectory : String
  operationTimeoutSecs : Nat
  logLevel : String
  logJson : Bool
  deriving DecidableEq, Repr

inductive Unfit where
  | blankSpace
  | scheme (url : String)
  | noRequestTime
  | noOperationTime
  deriving DecidableEq, Repr

def Unfit.message : Unfit → String
  | .blankSpace => "NAUTH_NAMESPACE must not be empty"
  | .scheme url => "Unsupported NATS_URL scheme: " ++ url
  | .noRequestTime => "NATS_REQUEST_TIMEOUT_MS must be greater than zero"
  | .noOperationTime => "OPERATION_TIMEOUT_SECS must be greater than zero"

namespace Invocation

/-- The beginnings of addresses that a cluster may have. -/
def schemes : List String :=
  ["nats://", "tls://", "ws://", "wss://"]

def hasKnownScheme (url : String) : Bool :=
  schemes.any fun s => s.toList.isPrefixOf url.toList

def unfit? (i : Invocation) : Option Unfit :=
  if (Text.trim i.space).isEmpty then some .blankSpace
  else if !hasKnownScheme i.link.url then some (.scheme i.link.url)
  else if i.link.requestTimeoutMs = 0 then some .noRequestTime
  else if i.operationTimeoutSecs = 0 then some .noOperationTime
  else none

end Invocation

end CredentialEngine.CommandLine
