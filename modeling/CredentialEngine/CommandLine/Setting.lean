import CredentialEngine.Text.Numeral

/-!
# Settings of the command line

Each setting has an option name and an environment variable of its own, a kind of value and a
default. The one of the manifests belongs to a command; the others stand before the command.
-/
namespace CredentialEngine.CommandLine

inductive Setting where
  | url
  | requestTimeout
  | reconnectAttempts
  | reconnectBackoff
  | space
  | secrets
  | operationTimeout
  | logLevel
  | logJson
  | manifests
  deriving DecidableEq, Repr

inductive ValueKind where
  | text
  /-- A text that is not empty. -/
  | path
  /-- A number below 2 ^ 64. -/
  | count
  /-- Set by its name alone, or by a variable that says true or false. -/
  | switch
  deriving DecidableEq, Repr

/-- The number that a text gives, which may carry a leading plus. -/
def count? (s : String) : Option Nat :=
  (Text.natOfSigned? s.toList).filter fun n => n < Nat.pow 2 64

/-- Whether a text is a value of a kind. -/
def ValueKind.accepts (value : String) : ValueKind → Bool
  | .text => true
  | .path => value ≠ ""
  | .count => (count? value).isSome
  | .switch => value == "true" || value == "false"

namespace Setting

/-- The name of the option, after its two dashes. -/
def optionName : Setting → String
  | .url => "nats-url"
  | .requestTimeout => "nats-request-timeout-ms"
  | .reconnectAttempts => "nats-reconnect-attempts"
  | .reconnectBackoff => "nats-reconnect-backoff-ms"
  | .space => "namespace"
  | .secrets => "secrets-dir"
  | .operationTimeout => "operation-timeout-secs"
  | .logLevel => "log-level"
  | .logJson => "log-json"
  | .manifests => "manifests-dir"

def variableName : Setting → String
  | .url => "NATS_URL"
  | .requestTimeout => "NATS_REQUEST_TIMEOUT_MS"
  | .reconnectAttempts => "NATS_RECONNECT_ATTEMPTS"
  | .reconnectBackoff => "NATS_RECONNECT_BACKOFF_MS"
  | .space => "NAUTH_NAMESPACE"
  | .secrets => "SECRETS_DIR"
  | .operationTimeout => "OPERATION_TIMEOUT_SECS"
  | .logLevel => "LOG_LEVEL"
  | .logJson => "LOG_JSON"
  | .manifests => "MANIFESTS_DIR"

def default : Setting → String
  | .url => "nats://127.0.0.1:4222"
  | .requestTimeout => "3000"
  | .reconnectAttempts => "10"
  | .reconnectBackoff => "2000"
  | .space => "nauth-system"
  | .secrets => "./secrets"
  | .operationTimeout => "30"
  | .logLevel => "info"
  | .logJson => "false"
  | .manifests => "./manifests"

def kind : Setting → ValueKind
  | .url => .text
  | .requestTimeout => .count
  | .reconnectAttempts => .count
  | .reconnectBackoff => .count
  | .space => .text
  | .secrets => .path
  | .operationTimeout => .count
  | .logLevel => .text
  | .logJson => .switch
  | .manifests => .path

/-- The settings whose options stand before the command. -/
def general : List Setting :=
  [.url, .requestTimeout, .reconnectAttempts, .reconnectBackoff, .space, .secrets,
    .operationTimeout, .logLevel, .logJson]

end Setting

end CredentialEngine.CommandLine
