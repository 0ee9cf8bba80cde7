import CredentialEngine.Resource.User

/-!
# Claims as they are signed

The registered claims around a body, and the three bodies: an account's, a user's, and the request
to delete accounts. Durations are whole nanoseconds and absent limits are minus one.
-/
namespace CredentialEngine.Claims

open Json

/-- The limit that the cluster reads as no limit. -/
def unlimited : Int64 := -1

def layoutVersion : UInt8 := 2

/-- All limits of an account in one group. -/
structure LimitSet where
  subs : Int64 := unlimited
  data : Int64 := unlimited
  payload : Int64 := unlimited
  imports : Int64 := unlimited
  exports : Int64 := unlimited
  wildcards : Bool := true
  conn : Int64 := unlimited
  leaf : Int64 := unlimited
  memStorage : Int64 := unlimited
  diskStorage : Int64 := unlimited
  streams : Int64 := unlimited
  consumer : Int64 := unlimited
  maxAckPending : Int64 := unlimited
  memMaxStreamBytes : Int64 := unlimited
  diskMaxStreamBytes : Int64 := unlimited
  maxBytesRequired : Bool := false
  deriving DecidableEq, Repr, Inhabited

namespace LimitSet

def toJson (l : LimitSet) : Json :=
  record [("subs", some (ofInt64 l.subs)), ("data", some (ofInt64 l.data)),
    ("payload", some (ofInt64 l.payload)), ("imports", some (ofInt64 l.imports)),
    ("exports", some (ofInt64 l.exports)), ("wildcards", some (.bool l.wildcards)),
    ("conn", some (ofInt64 l.conn)), ("leaf", some (ofInt64 l.leaf)),
    ("mem_storage", some (ofInt64 l.memStorage)), ("disk_storage", some (ofInt64 l.diskStorage)),
    ("streams", some (ofInt64 l.streams)), ("consumer", some (ofInt64 l.consumer)),
    ("max_ack_pending", some (ofInt64 l.maxAckPending)),
    ("mem_max_stream_bytes", some (ofInt64 l.memMaxStreamBytes)),
    ("disk_max_stream_bytes", some (ofInt64 l.diskMaxStreamBytes)),
    ("max_bytes_required", some (.bool l.maxBytesRequired))]

def ofJson? (j : Json) : Option LimitSet := do
  match ← j.fields? ["subs", "data", "payload", "imports", "exports", "wildcards", "conn", "leaf",
    "mem_storage", "disk_storage", "streams", "consumer", "max_ack_pending",
    "mem_max_stream_bytes", "disk_max_stream_bytes", "max_bytes_required"] with
  | [subs, data, payload, imports, exports, wildcards, conn, leaf, memStorage, diskStorage,
      streams, consumer, maxAckPending, memMaxStreamBytes, diskMaxStreamBytes,
      maxBytesRequired] =>
    return {
      subs := ← required asInt64 subs
      data := ← required asInt64 data
      payload := ← required asInt64 payload
      imports := ← required asInt64 imports
      exports := ← required asInt64 exports
      wildcards := ← required asBool wildcards
      conn := ← required asInt64 conn
      leaf := ← required asInt64 leaf
      memStorage := ← defaulted unlimited asInt64 memStorage
      diskStorage := ← defaulted unlimited asInt64 diskStorage
      streams := ← defaulted unlimited asInt64 streams
      consumer := ← defaulted unlimited asInt64 consumer
      maxAckPending := ← defaulted unlimited asInt64 maxAckPending
      memMaxStreamBytes := ← defaulted unlimited asInt64 memMaxStreamBytes
      diskMaxStreamBytes := ← defaulted unlimited asInt64 diskMaxStreamBytes
      maxBytesRequired := ← defaulted false asBool maxBytesRequired }
  | _ => none

end LimitSet

/-- A sampling rate; zero is written as `headers`. -/
def samplingToJson (n : Int64) : Json :=
  if n = 0 then .str "headers" else ofInt64 n

/-- Equality of texts up to the case of ASCII letters. -/
def equalsIgnoringCase (a b : String) : Bool :=
  a.toList.map Char.toLower == b.toList.map Char.toLower

/-- A sampling rate as a number, the word `headers`, or a numeral that may end in percent signs. -/
def asSampling : Json → Option Int64
  | .int n => asInt64 (.int n)
  | .str s =>
    if equalsIgnoringCase s "headers" then some 0
    else
      match Text.intOfSigned? (Text.dropEndWhile (· == '%') s.toList) with
      | some n => asInt64 (.int n)
      | none => none
  | _ => none

structure LatencyClaim where
  sampling : Int64
  results : String
  deriving DecidableEq, Repr

namespace LatencyClaim

def toJson (l : LatencyClaim) : Json :=
  record [("sampling", some (samplingToJson l.sampling)), ("results", some (.str l.results))]

def ofJson? (j : Json) : Option LatencyClaim := do
  match ← j.fields? ["sampling", "results"] with
  | [sampling, results] => return ⟨← required asSampling sampling, ← required asText results⟩
  | _ => none

end LatencyClaim

structure ExportClaim where
  name : String := ""
  subject : String
  flow : String
  tokenRequired : Bool := false
  revocations : Dict Int64 := .empty
  replyKind : Option String := none
  /-- Nanoseconds. -/
  replyThreshold : Option Int64 := none
  latency : Option LatencyClaim := none
  accountTokenPosition : UInt32 := 0
  advertise : Bool := false
  allowTrace : Bool := false
  deriving DecidableEq

namespace ExportClaim

def toJson (e : ExportClaim) : Json :=
  record [("name", unlessBlank e.name), ("subject", some (.str e.subject)),
    ("type", some (.str e.flow)), ("token_req", whenSet e.tokenRequired),
    ("revocations", unlessEmptyDict ofInt64 e.revocations),
    ("response_type", e.replyKind.map .str),
    ("response_threshold", e.replyThreshold.map ofInt64),
    ("service_latency", e.latency.map LatencyClaim.toJson),
    ("account_token_position",
      if e.accountTokenPosition = 0 then none else some (ofNat e.accountTokenPosition.toNat)),
    ("advertise", whenSet e.advertise), ("allow_trace", whenSet e.allowTrace)]

def ofJson? (j : Json) : Option ExportClaim := do
  match ← j.fields? ["name", "subject", "type", "token_req", "revocations", "response_type",
    "response_threshold", "service_latency", "account_token_position", "advertise",
    "allow_trace"] with
  | [name, subject, flow, tokenRequired, revocations, replyKind, replyThreshold, latency,
      accountTokenPosition, advertise, allowTrace] =>
    return {
      name := ← defaulted "" asText name
      subject := ← required asText subject
      flow := ← required asText flow
      tokenRequired := ← defaulted false asBool tokenRequired
      revocations := ← defaulted .empty (asDict asInt64) revocations
      replyKind := ← optional asText replyKind
      replyThreshold := ← optional asInt64 replyThreshold
      latency := ← optional LatencyClaim.ofJson? latency
      accountTokenPosition := ← defaulted 0 asUInt32 accountTokenPosition
      advertise := ← defaulted false asBool advertise
      allowTrace := ← defaulted false asBool allowTrace }
  | _ => none

end ExportClaim

structure ImportClaim where
  name : String := ""
  subject : String
  account : String
  token : String := ""
  localSubject : String := ""
  flow : String
  share : Bool := false
  allowTrace : Bool := false
  deriving DecidableEq, Repr

namespace ImportClaim

/-- The subject under which the import is visible in the importing account. -/
def effectiveSubject (i : ImportClaim) : String :=
  if i.localSubject.isEmpty then i.subject else i.localSubject

def toJson (i : ImportClaim) : Json :=
  record [("name", unlessBlank i.name), ("subject", some (.str i.subject)),
    ("account", some (.str i.account)), ("token", unlessBlank i.token),
    ("local_subject", unlessBlank i.localSubject), ("type", some (.str i.flow)),
    ("share", whenSet i.share), ("allow_trace", whenSet i.allowTrace)]

def ofJson? (j : Json) : Option ImportClaim := do
  match ← j.fields? ["name", "subject", "account", "token", "local_subject", "type", "share",
    "allow_trace"] with
  | [name, subject, account, token, localSubject, flow, share, allowTrace] =>
    return {
      name := ← defaulted "" asText name
      subject := ← required asText subject
      account := ← required asText account
      token := ← defaulted "" asText token
      localSubject := ← defaulted "" asText localSubject
      flow := ← required asText flow
      share := ← defaulted false asBool share
      allowTrace := ← defaulted false asBool allowTrace }
  | _ => none

end ImportClaim

structure ReplyClaim where
  max : Int64
  /-- Nanoseconds. -/
  ttl : Int64 := 0
  deriving DecidableEq, Repr

namespace ReplyClaim

def toJson (r : ReplyClaim) : Json :=
  record [("max", some (ofInt64 r.max)), ("ttl", some (ofInt64 r.ttl))]

def ofJson? (j : Json) : Option ReplyClaim := do
  match ← j.fields? ["max", "ttl"] with
  | [max, ttl] => return ⟨← required asInt64 max, ← defaulted 0 asInt64 ttl⟩
  | _ => none

end ReplyClaim

/-- The permissions that an account gives its users by default. -/
structure DefaultPermissions where
  publish : SubjectRules := {}
  subscribe : SubjectRules := {}
  reply : Option ReplyClaim := none
  deriving DecidableEq, Repr, Inhabited

namespace DefaultPermissions

def toJson (p : DefaultPermissions) : Json :=
  record [("pub", some p.publish.toJson), ("sub", some p.subscribe.toJson),
    ("resp", p.reply.map ReplyClaim.toJson)]

def ofJson? (j : Json) : Option DefaultPermissions := do
  match ← j.fields? ["pub", "sub", "resp"] with
  | [publish, subscribe, reply] =>
    return {
      publish := ← defaulted {} SubjectRules.ofJson? publish
      subscribe := ← defaulted {} SubjectRules.ofJson? subscribe
      reply := ← optional ReplyClaim.ofJson? reply }
  | _ => none

end DefaultPermissions

structure AccountBody where
  limits : LimitSet
  exports : List ExportClaim := []
  imports : List ImportClaim := []
  signingKeys : List String := []
  defaultPermissions : DefaultPermissions := {}
  kind : String
  version : UInt8
  deriving DecidableEq

namespace AccountBody

def toJson (b : AccountBody) : Json :=
  record [("limits", some b.limits.toJson), ("exports", unlessEmpty ExportClaim.toJson b.exports),
    ("imports", unlessEmpty ImportClaim.toJson b.imports),
    ("signing_keys", unlessEmpty .str b.signingKeys),
    ("default_permissions", some b.defaultPermissions.toJson), ("type", some (.str b.kind)),
    ("version", some (ofNat b.version.toNat))]

def ofJson? (j : Json) : Option AccountBody := do
  match ← j.fields? ["limits", "exports", "imports", "signing_keys", "default_permissions", "type",
    "version"] with
  | [limits, exports, imports, signingKeys, defaultPermissions, kind, version] =>
    return {
      limits := ← required LimitSet.ofJson? limits
      exports := ← defaulted [] (asList ExportClaim.ofJson?) exports
      imports := ← defaulted [] (asList ImportClaim.ofJson?) imports
      signingKeys := ← defaulted [] (asList asText) signingKeys
      defaultPermissions := ← defaulted {} DefaultPermissions.ofJson? defaultPermissions
      kind := ← required asText kind
      version := ← required asUInt8 version }
  | _ => none

end AccountBody

structure UserBody where
  publish : SubjectRules := {}
  subscribe : SubjectRules := {}
  reply : Option ReplyClaim := none
  sources : List String := []
  windows : List Window := []
  location : String := ""
  subs : Int64 := unlimited
  data : Int64 := unlimited
  payload : Int64 := unlimited
  /-- The account's id, where the issuer is one of its signing keys. -/
  issuerAccount : String := ""
  kind : String
  version : UInt8
  deriving DecidableEq

namespace UserBody

def toJson (b : UserBody) : Json :=
  record [("pub", some b.publish.toJson), ("sub", some b.subscribe.toJson),
    ("resp", b.reply.map ReplyClaim.toJson), ("src", unlessEmpty .str b.sources),
    ("times", unlessEmpty Window.toJson b.windows), ("times_location", unlessBlank b.location),
    ("subs", some (ofInt64 b.subs)), ("data", some (ofInt64 b.data)),
    ("payload", some (ofInt64 b.payload)), ("issuer_account", unlessBlank b.issuerAccount),
    ("type", some (.str b.kind)), ("version", some (ofNat b.version.toNat))]

def ofJson? (j : Json) : Option UserBody := do
  match ← j.fields? ["pub", "sub", "resp", "src", "times", "times_location", "subs", "data",
    "payload", "issuer_account", "type", "version"] with
  | [publish, subscribe, reply, sources, windows, location, subs, data, payload, issuerAccount,
      kind, version] =>
    return {
      publish := ← defaulted {} SubjectRules.ofJson? publish
      subscribe := ← defaulted {} SubjectRules.ofJson? subscribe
      reply := ← optional ReplyClaim.ofJson? reply
      sources := ← defaulted [] (asList asText) sources
      windows := ← defaulted [] (asList Window.ofJson?) windows
      location := ← defaulted "" asText location
      subs := ← required asInt64 subs
      data := ← required asInt64 data
      payload := ← required asInt64 payload
      issuerAccount := ← defaulted "" asText issuerAccount
      kind := ← required asText kind
      version := ← required asUInt8 version }
  | _ => none

end UserBody

/-- The body of a request to delete accounts. -/
structure DeletionBody where
  accounts : List String
  kind : String := "generic"
  version : UInt8 := layoutVersion
  deriving DecidableEq, Repr

namespace DeletionBody

def toJson (b : DeletionBody) : Json :=
  record [("accounts", some (ofList .str b.accounts)), ("type", some (.str b.kind)),
    ("version", some (ofNat b.version.toNat))]

def ofJson? (j : Json) : Option DeletionBody := do
  match ← j.fields? ["accounts", "type", "version"] with
  | [accounts, kind, version] =>
    return {
      accounts := ← required (asList asText) accounts
      kind := ← required asText kind
      version := ← required asUInt8 version }
  | _ => none

end DeletionBody

/-- A body that can be written and read. -/
class Body (β : Type) where
  toJson : β → Json
  ofJson? : Json → Option β

instance : Body AccountBody := ⟨AccountBody.toJson, AccountBody.ofJson?⟩

instance : Body UserBody := ⟨UserBody.toJson, UserBody.ofJson?⟩

instance : Body DeletionBody := ⟨DeletionBody.toJson, DeletionBody.ofJson?⟩

/-- The registered claims around a body. -/
structure ClaimSet (β : Type) where
  id : String := ""
  issuedAt : Int64 := 0
  issuer : String := ""
  name : String := ""
  subject : String
  expires : Option Int64 := none
  body : β
  deriving DecidableEq

namespace ClaimSet

variable {β : Type} [Body β]

def toJson (c : ClaimSet β) : Json :=
  record [("jti", some (.str c.id)), ("iat", some (ofInt64 c.issuedAt)),
    ("iss", some (.str c.issuer)), ("name", unlessBlank c.name), ("sub", some (.str c.subject)),
    ("exp", c.expires.map ofInt64), ("nats", some (Body.toJson c.body))]

def ofJson? (j : Json) : Option (ClaimSet β) := do
  match ← j.fields? ["jti", "iat", "iss", "name", "sub", "exp", "nats"] with
  | [id, issuedAt, issuer, name, subject, expires, body] =>
    return {
      id := ← defaulted "" asText id
      issuedAt := ← defaulted 0 asInt64 issuedAt
      issuer := ← defaulted "" asText issuer
      name := ← defaulted "" asText name
      subject := ← required asText subject
      expires := ← optional asInt64 expires
      body := ← required Body.ofJson? body }
  | _ => none

end ClaimSet

end CredentialEngine.Claims
