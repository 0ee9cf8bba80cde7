import CredentialEngine.Resource.Account

/-!
# Users

The declared state of a user of an account: permissions, limits, where and when it may connect, and
the status that the engine reports on it.
-/
namespace CredentialEngine

open Json

structure SubjectRules where
  allow : List String := []
  deny : List String := []
  deriving DecidableEq, Repr, Inhabited

namespace SubjectRules

def toJson (r : SubjectRules) : Json :=
  record [("allow", unlessEmpty .str r.allow), ("deny", unlessEmpty .str r.deny)]

def ofJson? (j : Json) : Option SubjectRules := do
  match ← j.fields? ["allow", "deny"] with
  | [allow, deny] =>
    return ⟨← defaulted [] (asList asText) allow, ← defaulted [] (asList asText) deny⟩
  | _ => none

end SubjectRules

/-- A bounded permission to publish replies to requests received. -/
structure ReplyRule where
  maxMessages : Int64
  expires : Option Duration := none
  deriving DecidableEq, Repr

namespace ReplyRule

def toJson (r : ReplyRule) : Json :=
  record [("maxMsgs", some (ofInt64 r.maxMessages)), ("expires", r.expires.map ofDuration)]

def ofJson? (j : Json) : Option ReplyRule := do
  match ← j.fields? ["maxMsgs", "expires"] with
  | [maxMessages, expires] =>
    return ⟨← required asInt64 maxMessages, ← optional asDuration expires⟩
  | _ => none

end ReplyRule

/-- What a user may publish and subscribe to. -/
structure Permissions where
  publish : SubjectRules := {}
  subscribe : SubjectRules := {}
  reply : Option ReplyRule := none
  deriving DecidableEq, Repr, Inhabited

namespace Permissions

def toJson (p : Permissions) : Json :=
  record [("pub", some p.publish.toJson), ("sub", some p.subscribe.toJson),
    ("resp", p.reply.map ReplyRule.toJson)]

def ofJson? (j : Json) : Option Permissions := do
  match ← j.fields? ["pub", "sub", "resp"] with
  | [publish, subscribe, reply] =>
    return {
      publish := ← defaulted {} SubjectRules.ofJson? publish
      subscribe := ← defaulted {} SubjectRules.ofJson? subscribe
      reply := ← optional ReplyRule.ofJson? reply }
  | _ => none

end Permissions

/-- A daily window in which a user may connect. -/
structure Window where
  start : String
  stop : String
  deriving DecidableEq, Repr

namespace Window

def toJson (w : Window) : Json :=
  record [("start", some (.str w.start)), ("end", some (.str w.stop))]

def ofJson? (j : Json) : Option Window := do
  match ← j.fields? ["start", "end"] with
  | [start, stop] => return ⟨← required asText start, ← required asText stop⟩
  | _ => none

end Window

/-- From where and when a user may connect. -/
structure UserLimits where
  /-- Source networks. -/
  sources : List String := []
  windows : List Window := []
  /-- The time zone in which the windows lie. -/
  locale : Option String := none
  deriving DecidableEq, Repr, Inhabited

namespace UserLimits

def toJson (l : UserLimits) : Json :=
  record [("src", unlessEmpty .str l.sources), ("times", unlessEmpty Window.toJson l.windows),
    ("locale", l.locale.map .str)]

def ofJson? (j : Json) : Option UserLimits := do
  match ← j.fields? ["src", "times", "locale"] with
  | [sources, windows, locale] =>
    return {
      sources := ← defaulted [] (asList asText) sources
      windows := ← defaulted [] (asList Window.ofJson?) windows
      locale := ← optional asText locale }
  | _ => none

end UserLimits

structure UserSpec where
  /-- The account, in the user's own namespace. -/
  accountName : String
  permissions : Option Permissions := none
  userLimits : Option UserLimits := none
  natsLimits : Option TrafficLimits := none
  deriving DecidableEq, Repr, Inhabited

namespace UserSpec

def toJson (s : UserSpec) : Json :=
  record [("accountName", some (.str s.accountName)),
    ("permissions", s.permissions.map Permissions.toJson),
    ("userLimits", s.userLimits.map UserLimits.toJson),
    ("natsLimits", s.natsLimits.map TrafficLimits.toJson)]

def ofJson? (j : Json) : Option UserSpec := do
  match ← j.fields? ["accountName", "permissions", "userLimits", "natsLimits"] with
  | [accountName, permissions, userLimits, natsLimits] =>
    return {
      accountName := ← required asText accountName
      permissions := ← optional Permissions.ofJson? permissions
      userLimits := ← optional UserLimits.ofJson? userLimits
      natsLimits := ← optional TrafficLimits.ofJson? natsLimits }
  | _ => none

end UserSpec

/-- The claims of a user as its status reports them. -/
structure UserView where
  accountName : String
  permissions : Permissions
  userLimits : UserLimits
  natsLimits : TrafficLimits
  deriving DecidableEq, Repr

namespace UserView

def toJson (v : UserView) : Json :=
  record [("accountName", some (.str v.accountName)),
    ("permissions", some v.permissions.toJson), ("userLimits", some v.userLimits.toJson),
    ("natsLimits", some v.natsLimits.toJson)]

def ofJson? (j : Json) : Option UserView := do
  match ← j.fields? ["accountName", "permissions", "userLimits", "natsLimits"] with
  | [accountName, permissions, userLimits, natsLimits] =>
    return {
      accountName := ← required asText accountName
      permissions := ← required Permissions.ofJson? permissions
      userLimits := ← required UserLimits.ofJson? userLimits
      natsLimits := ← required TrafficLimits.ofJson? natsLimits }
  | _ => none

end UserView

structure UserStatus where
  claims : Option UserView := none
  ready : Bool := false
  message : Option String := none
  reconciledAt : Option Time.Timestamp := none
  deriving DecidableEq, Repr, Inhabited

namespace UserStatus

def toJson (s : UserStatus) : Json :=
  record [("claims", s.claims.map UserView.toJson), ("ready", some (.bool s.ready)),
    ("message", s.message.map .str), ("reconciledAt", s.reconciledAt.map ofTimestamp)]

def ofJson? (j : Json) : Option UserStatus := do
  match ← j.fields? ["claims", "ready", "message", "reconciledAt"] with
  | [claims, ready, message, reconciledAt] =>
    return {
      claims := ← optional UserView.ofJson? claims
      ready := ← defaulted false asBool ready
      message := ← optional asText message
      reconciledAt := ← optional asTimestamp reconciledAt }
  | _ => none

end UserStatus

structure User where
  metadata : Metadata
  spec : UserSpec
  status : UserStatus := {}
  deriving DecidableEq, Inhabited

namespace User

/-- The name of the secret that holds the user's credential bundle. -/
def bundleName (u : User) : String :=
  u.metadata.name ++ "-nats-user-creds"

/-- The members of the resource as an object. -/
def members (u : User) : List (String × Option Json) :=
  [("metadata", some u.metadata.toJson), ("spec", some u.spec.toJson),
    ("status", some u.status.toJson)]

def toJson (u : User) : Json :=
  record u.members

def ofJson? (j : Json) : Option User := do
  match ← j.fields? ["metadata", "spec", "status"] with
  | [metadata, spec, status] =>
    return {
      metadata := ← required Metadata.ofJson? metadata
      spec := ← required UserSpec.ofJson? spec
      status := ← defaulted {} UserStatus.ofJson? status }
  | _ => none

end User

end CredentialEngine
