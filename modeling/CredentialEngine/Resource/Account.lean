import CredentialEngine.Resource.Limits
import CredentialEngine.Resource.Meta
import CredentialEngine.Time.Duration

/-!
# Accounts

The declared state of an account: limits, exports, imports and the cluster it belongs to, and the
status that the engine reports on it.
-/
namespace CredentialEngine

open Json

/-- How messages flow over an export or import. -/
inductive Flow where
  | stream
  | service
  deriving DecidableEq, Repr, Inhabited

namespace Flow

def text : Flow → String
  | .stream => "stream"
  | .service => "service"

def ofText? : String → Option Flow
  | "stream" => some .stream
  | "service" => some .service
  | _ => none

def ofJson? (intake : Intake := .direct) (j : Json) : Option Flow :=
  (asName intake ["stream", "service"] j).bind ofText?

def toJson (f : Flow) : Json := .str f.text

end Flow

inductive ReplyKind where
  | singleton
  | stream
  | chunked
  deriving DecidableEq, Repr, Inhabited

namespace ReplyKind

def text : ReplyKind → String
  | .singleton => "Singleton"
  | .stream => "Stream"
  | .chunked => "Chunked"

def ofText? : String → Option ReplyKind
  | "Singleton" => some .singleton
  | "Stream" => some .stream
  | "Chunked" => some .chunked
  | _ => none

def ofJson? (intake : Intake := .direct) (j : Json) : Option ReplyKind :=
  (asName intake ["Singleton", "Stream", "Chunked"] j).bind ofText?

def toJson (r : ReplyKind) : Json := .str r.text

end ReplyKind

def asDuration (j : Json) : Option Duration :=
  match asText j with
  | some s =>
    match Duration.parse s with
    | .ok d => some d
    | .error _ => none
  | none => none

def ofDuration (d : Duration) : Json :=
  .str d.format

/-- Where latency measurements of a service go. -/
structure LatencyReport where
  /-- The sampled percentage; zero means that message headers decide. -/
  sampling : Int64
  results : String
  deriving DecidableEq, Repr

namespace LatencyReport

def toJson (l : LatencyReport) : Json :=
  record [("sampling", some (ofInt64 l.sampling)), ("results", some (.str l.results))]

def ofJson? (j : Json) : Option LatencyReport := do
  match ← j.fields? ["sampling", "results"] with
  | [sampling, results] => return ⟨← required asInt64 sampling, ← required asText results⟩
  | _ => none

end LatencyReport

/-- A subject that an account offers to others. -/
structure Export where
  name : String := ""
  subject : String
  flow : Flow := .stream
  tokenRequired : Bool := false
  /-- Revoked public keys with the time from which they are revoked. -/
  revocations : Dict Int64 := .empty
  replyKind : Option ReplyKind := none
  replyThreshold : Option Duration := none
  latency : Option LatencyReport := none
  accountTokenPosition : UInt32 := 0
  advertise : Bool := false
  allowTrace : Bool := false
  deriving DecidableEq

namespace Export

def toJson (e : Export) : Json :=
  record [("name", some (.str e.name)), ("subject", some (.str e.subject)),
    ("type", some e.flow.toJson), ("tokenReq", some (.bool e.tokenRequired)),
    ("revocations", unlessEmptyDict ofInt64 e.revocations),
    ("responseType", e.replyKind.map ReplyKind.toJson),
    ("responseThreshold", e.replyThreshold.map ofDuration),
    ("serviceLatency", e.latency.map LatencyReport.toJson),
    ("accountTokenPosition", some (ofNat e.accountTokenPosition.toNat)),
    ("advertise", some (.bool e.advertise)), ("allowTrace", some (.bool e.allowTrace))]

def ofJson? (intake : Intake := .direct) (j : Json) : Option Export := do
  match ← j.fields? ["name", "subject", "type", "tokenReq", "revocations", "responseType",
    "responseThreshold", "serviceLatency", "accountTokenPosition", "advertise", "allowTrace"] with
  | [name, subject, flow, tokenRequired, revocations, replyKind, replyThreshold, latency,
      accountTokenPosition, advertise, allowTrace] =>
    return {
      name := ← defaulted "" asText name
      subject := ← required asText subject
      flow := ← defaulted .stream (Flow.ofJson? intake) flow
      tokenRequired := ← defaulted false asBool tokenRequired
      revocations := ← defaulted .empty (asDict asInt64) revocations
      replyKind := ← optional (ReplyKind.ofJson? intake) replyKind
      replyThreshold := ← optional asDuration replyThreshold
      latency := ← optional LatencyReport.ofJson? latency
      accountTokenPosition := ← defaulted 0 asUInt32 accountTokenPosition
      advertise := ← defaulted false asBool advertise
      allowTrace := ← defaulted false asBool allowTrace }
  | _ => none

end Export

/-- A reference to a resource by name; the namespace defaults to that of the referring one. -/
structure Reference where
  name : String
  space : Option String := none
  deriving DecidableEq, Repr

namespace Reference

def toJson (r : Reference) : Json :=
  record [("name", some (.str r.name)), ("namespace", r.space.map .str)]

def ofJson? (j : Json) : Option Reference := do
  match ← j.fields? ["name", "namespace"] with
  | [name, space] => return ⟨← required asText name, ← optional asText space⟩
  | _ => none

end Reference

/-- A subject that an account takes from another. -/
structure Import where
  /-- The exporting account, resolved to its id when claims are built. -/
  source : Option Reference := none
  /-- The id of the exporting account, where it is given directly. -/
  account : Option String := none
  name : String := ""
  subject : String
  /-- The name of the subject inside the importing account. -/
  localSubject : Option String := none
  flow : Flow := .stream
  token : Option String := none
  share : Bool := false
  allowTrace : Bool := false
  deriving DecidableEq, Repr

namespace Import

/-- The subject under which the import is visible in the importing account. -/
def effectiveSubject (i : Import) : String :=
  match i.localSubject with
  | some s => if s.isEmpty then i.subject else s
  | none => i.subject

def toJson (i : Import) : Json :=
  record [("accountRef", i.source.map Reference.toJson), ("account", i.account.map .str),
    ("name", some (.str i.name)), ("subject", some (.str i.subject)),
    ("localSubject", i.localSubject.map .str), ("type", some i.flow.toJson),
    ("token", i.token.map .str), ("share", some (.bool i.share)),
    ("allowTrace", some (.bool i.allowTrace))]

def ofJson? (intake : Intake := .direct) (j : Json) : Option Import := do
  match ← j.fields? ["accountRef", "account", "name", "subject", "localSubject", "type", "token",
    "share", "allowTrace"] with
  | [source, account, name, subject, localSubject, flow, token, share, allowTrace] =>
    return {
      source := ← optional Reference.ofJson? source
      account := ← optional asText account
      name := ← defaulted "" asText name
      subject := ← required asText subject
      localSubject := ← optional asText localSubject
      flow := ← defaulted .stream (Flow.ofJson? intake) flow
      token := ← optional asText token
      share := ← defaulted false asBool share
      allowTrace := ← defaulted false asBool allowTrace }
  | _ => none

end Import

structure AccountSpec where
  accountLimits : Option AccountLimits := none
  natsLimits : Option TrafficLimits := none
  jetStreamLimits : Option StreamLimits := none
  exports : List Export := []
  imports : List Import := []
  /-- The cluster that holds the account; the default one when unset. -/
  cluster : Option Reference := none
  deriving DecidableEq, Inhabited

namespace AccountSpec

def toJson (s : AccountSpec) : Json :=
  record [("accountLimits", s.accountLimits.map AccountLimits.toJson),
    ("natsLimits", s.natsLimits.map TrafficLimits.toJson),
    ("jetStreamLimits", s.jetStreamLimits.map StreamLimits.toJson),
    ("exports", unlessEmpty Export.toJson s.exports),
    ("imports", unlessEmpty Import.toJson s.imports),
    ("natsClusterRef", s.cluster.map Reference.toJson)]

def ofJson? (intake : Intake := .direct) (j : Json) : Option AccountSpec := do
  match ← j.fields? ["accountLimits", "natsLimits", "jetStreamLimits", "exports", "imports",
    "natsClusterRef"] with
  | [accountLimits, natsLimits, jetStreamLimits, exports, imports, cluster] =>
    return {
      accountLimits := ← optional AccountLimits.ofJson? accountLimits
      natsLimits := ← optional TrafficLimits.ofJson? natsLimits
      jetStreamLimits := ← optional StreamLimits.ofJson? jetStreamLimits
      exports := ← defaulted [] (asList (Export.ofJson? intake)) exports
      imports := ← defaulted [] (asList (Import.ofJson? intake)) imports
      cluster := ← optional Reference.ofJson? cluster }
  | _ => none

end AccountSpec

/-- The claims of an account as its status reports them, every limit filled in. -/
structure AccountView where
  accountLimits : AccountLimits
  natsLimits : TrafficLimits
  jetStreamLimits : StreamLimits
  exports : List Export
  imports : List Import
  signingKeys : List String
  deriving DecidableEq

namespace AccountView

def toJson (v : AccountView) : Json :=
  record [("accountLimits", some v.accountLimits.toJson),
    ("natsLimits", some v.natsLimits.toJson),
    ("jetStreamLimits", some v.jetStreamLimits.toJson),
    ("exports", some (ofList Export.toJson v.exports)),
    ("imports", some (ofList Import.toJson v.imports)),
    ("signingKeys", some (ofList .str v.signingKeys))]

def ofJson? (intake : Intake := .direct) (j : Json) : Option AccountView := do
  match ← j.fields? ["accountLimits", "natsLimits", "jetStreamLimits", "exports", "imports",
    "signingKeys"] with
  | [accountLimits, natsLimits, jetStreamLimits, exports, imports, signingKeys] =>
    return {
      accountLimits := ← required AccountLimits.ofJson? accountLimits
      natsLimits := ← required TrafficLimits.ofJson? natsLimits
      jetStreamLimits := ← required StreamLimits.ofJson? jetStreamLimits
      exports := ← defaulted [] (asList (Export.ofJson? intake)) exports
      imports := ← defaulted [] (asList (Import.ofJson? intake)) imports
      signingKeys := ← defaulted [] (asList asText) signingKeys }
  | _ => none

end AccountView

structure AccountStatus where
  claims : Option AccountView := none
  /-- The public key of the account's signing key. -/
  signingKey : Option String := none
  ready : Bool := false
  message : Option String := none
  reconciledAt : Option Time.Timestamp := none
  deriving DecidableEq, Inhabited

namespace AccountStatus

def toJson (s : AccountStatus) : Json :=
  record [("claims", s.claims.map AccountView.toJson), ("signingKey", s.signingKey.map .str),
    ("ready", some (.bool s.ready)), ("message", s.message.map .str),
    ("reconciledAt", s.reconciledAt.map ofTimestamp)]

def ofJson? (intake : Intake := .direct) (j : Json) : Option AccountStatus := do
  match ← j.fields? ["claims", "signingKey", "ready", "message", "reconciledAt"] with
  | [claims, signingKey, ready, message, reconciledAt] =>
    return {
      claims := ← optional (AccountView.ofJson? intake) claims
      signingKey := ← optional asText signingKey
      ready := ← defaulted false asBool ready
      message := ← optional asText message
      reconciledAt := ← optional asTimestamp reconciledAt }
  | _ => none

end AccountStatus

structure Account where
  metadata : Metadata
  spec : AccountSpec := {}
  status : AccountStatus := {}
  deriving DecidableEq, Inhabited

namespace Account

/-- The public id, once the account has been issued or observed. -/
def id? (a : Account) : Option String :=
  a.metadata.label? Label.accountId

/-- The account is managed elsewhere and only looked at. -/
def isObserveOnly (a : Account) : Bool :=
  a.metadata.label? Label.policy == some Label.observePolicy

/-- The members of the resource as an object. -/
def members (a : Account) : List (String × Option Json) :=
  [("metadata", some a.metadata.toJson), ("spec", some a.spec.toJson),
    ("status", some a.status.toJson)]

def toJson (a : Account) : Json :=
  record a.members

def ofJson? (intake : Intake := .direct) (j : Json) : Option Account := do
  match ← j.fields? ["metadata", "spec", "status"] with
  | [metadata, spec, status] =>
    return {
      metadata := ← required Metadata.ofJson? metadata
      spec := ← defaulted {} (AccountSpec.ofJson? intake) spec
      status := ← defaulted {} (AccountStatus.ofJson? intake) status }
  | _ => none

end Account

end CredentialEngine
