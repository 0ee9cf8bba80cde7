import CredentialEngine.Cluster.Control
import CredentialEngine.Cluster.Reply

/-!
# The link to a cluster

A link is disconnected, connecting or connected. An attempt to connect begins by taking the link to
connecting and settles later; a disconnect in between overtakes it. Requests fail at once unless the
link is connected.
-/
namespace CredentialEngine.Cluster

structure LinkConfig where
  url : String := "nats://127.0.0.1:4222"
  requestTimeoutMs : Nat := 3000
  reconnectAttempts : Nat := 10
  reconnectBackoffMs : Nat := 2000
  /-- The name that the engine gives itself. -/
  clientName : String := "nauth"
  deriving DecidableEq, Repr

inductive Answer where
  | payload (bytes : List UInt8)
  /-- Nothing within the time allowed. -/
  | silence
  | failure (words : String)
  deriving DecidableEq, Repr

/-- A way to exchange messages with a cluster. -/
class Transport (τ : Type) where
  /-- Opens a connection under credentials, or says why it cannot. -/
  openFor : LinkConfig → Key.Bundle → τ → Option String × τ
  /-- Sends a request and waits for the answer. -/
  request : LinkConfig → String → List UInt8 → τ → Answer × τ

/-- Where nothing answers. -/
structure Unreachable where
  /-- The reason that is given. -/
  words : String
  deriving DecidableEq, Repr

instance : Transport Unreachable where
  openFor _ _ u := (some u.words, u)
  request _ _ _ u := (.failure u.words, u)

inductive LinkState where
  | disconnected
  | connecting
  | connected
  deriving DecidableEq, Repr

def LinkState.text : LinkState → String
  | .disconnected => "Disconnected"
  | .connecting => "Connecting"
  | .connected => "Connected"

structure Link (τ : Type) where
  config : LinkConfig
  state : LinkState := .disconnected
  transport : τ

namespace Link

variable {τ : Type}

/-- Begins an attempt to connect, unless the link is connected. -/
def begin (l : Link τ) : Bool × Link τ :=
  if l.state = .connected then (false, l) else (true, { l with state := .connecting })

/-- Settles an attempt. One that succeeded counts only if nothing has overtaken it; one that failed
leaves the link disconnected. -/
def settle (outcome : Except Error Unit) (l : Link τ) : Except Error Unit × Link τ :=
  match outcome with
  | .error e => (.error e, { l with state := .disconnected })
  | .ok () =>
    if l.state = .connecting then (.ok (), { l with state := .connected })
    else (.error .notConnected, l)

def disconnect (l : Link τ) : Link τ :=
  { l with state := .disconnected }

variable [Transport τ]

/-- Opens the transport under the credentials found. -/
def dial (credentials : Except Error Key.Bundle) (l : Link τ) : Except Error Unit × Link τ :=
  match credentials with
  | .error e => (.error e, l)
  | .ok bundle =>
    if bundle.isPresentable then
      match Transport.openFor l.config bundle l.transport with
      | (none, t) => (.ok (), { l with transport := t })
      | (some words, t) =>
        (.error (.cluster (.connectFailed l.config.url words : Cause)), { l with transport := t })
    else (.error (.cluster (.unpresentableBundle : Cause)), l)

def connect (credentials : String → Except Error Key.Bundle) (space : String) :
    Action (Link τ) Unit := fun l =>
  match begin l with
  | (false, l) => .ok () l
  | (true, l) =>
    let (outcome, l) := dial (credentials space) l
    match settle outcome l with
    | (.ok (), l) => .ok () l
    | (.error e, l) => .error (.failed e) l

def request (subject : String) (payload : List UInt8) : Action (Link τ) (List UInt8) := fun l =>
  if l.state = .connected then
    let (answer, t) := Transport.request l.config subject payload l.transport
    let l := { l with transport := t }
    match answer with
    | .payload bytes => .ok bytes l
    | .silence => .error (.failed (.timeout ("request to " ++ subject))) l
    | .failure words => .error (.failed (.cluster (.requestFailed subject words : Cause))) l
  else .error (.failed .notConnected) l

/-- Sends a token to a subject; the reply must accept it. -/
def submit (subject token : String) : Action (Link τ) Unit := do
  let reply ← request subject (Key.textBytes token)
  let _ ← Action.ofExcept (Reply.parse reply >>= Reply.outcome)
  return ()

def lookup (accountId : String) : Action (Link τ) String := do
  let reply ← request (lookupSubject accountId) []
  match String.fromUTF8? ⟨reply.toArray⟩ with
  | some text => return text
  | none => Action.fail (.cluster (.replyNotText : Cause))

instance : Control (Link τ) where
  connect := connect
  disconnect := disconnect
  upload := submit updateSubject
  delete := submit deleteSubject
  lookup := lookup

end Link

end CredentialEngine.Cluster
