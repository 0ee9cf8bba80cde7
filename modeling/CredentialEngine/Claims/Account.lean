import CredentialEngine.Claims.Imports
import CredentialEngine.Claims.Token

/-!
# Account claims

A specification becomes claims by laying each limit that is set over the unlimited default, giving
the exports the form they are signed in, and taking over the checked imports. For status reports
claims are brought back into the declared form.
-/
namespace CredentialEngine.Claims

/-- The claims of an account, before they are signed or after they are read. -/
structure AccountClaims where
  name : String
  /-- The public id of the account. -/
  subject : String
  /-- The issuer, known only of claims that were read. -/
  issuer : Option String
  body : AccountBody
  deriving DecidableEq

def limitSet (s : AccountSpec) : LimitSet :=
  let a := s.accountLimits.getD {}
  let n := s.natsLimits.getD {}
  let j := s.jetStreamLimits.getD {}
  { subs := n.subs.getD unlimited
    data := n.data.getD unlimited
    payload := n.payload.getD unlimited
    imports := a.imports.getD unlimited
    exports := a.exports.getD unlimited
    wildcards := a.wildcardExports.getD true
    conn := a.conn.getD unlimited
    leaf := a.leaf.getD unlimited
    memStorage := j.memStorage.getD unlimited
    diskStorage := j.diskStorage.getD unlimited
    streams := j.streams.getD unlimited
    consumer := j.consumer.getD unlimited
    maxAckPending := j.maxAckPending.getD unlimited
    memMaxStreamBytes := j.memMaxStreamBytes.getD unlimited
    diskMaxStreamBytes := j.diskMaxStreamBytes.getD unlimited
    maxBytesRequired := j.maxBytesRequired.getD false }

/-- A duration as claims hold it, cut off at the largest value. -/
def nanosClaim (d : Duration) : Int64 :=
  Int64.ofNat (min d.nanos (Nat.pow 2 63 - 1))

/-- A claimed number of nanoseconds as a duration; a negative one counts as zero. -/
def nanosView (n : Int64) : Duration :=
  ⟨n.toInt.toNat⟩

def exportClaim (e : Export) : ExportClaim where
  name := e.name
  subject := e.subject
  flow := e.flow.text
  tokenRequired := e.tokenRequired
  revocations := e.revocations
  replyKind := e.replyKind.map ReplyKind.text
  replyThreshold := e.replyThreshold.map nanosClaim
  latency := e.latency.map fun l => ⟨l.sampling, l.results⟩
  accountTokenPosition := e.accountTokenPosition
  advertise := e.advertise
  allowTrace := e.allowTrace

/-- The flow that a claim names; whatever is no service is a stream. -/
def flowOf (s : String) : Flow :=
  if equalsIgnoringCase s "service" then .service else .stream

/-- The reply kind that a claim names; an unknown one is a single reply. -/
def replyKindOf (s : String) : ReplyKind :=
  if s = "Stream" then .stream else if s = "Chunked" then .chunked else .singleton

def exportView (e : ExportClaim) : Export where
  name := e.name
  subject := e.subject
  flow := flowOf e.flow
  tokenRequired := e.tokenRequired
  revocations := e.revocations
  replyKind := e.replyKind.map replyKindOf
  replyThreshold := e.replyThreshold.map nanosView
  latency := e.latency.map fun l => ⟨l.sampling, l.results⟩
  accountTokenPosition := e.accountTokenPosition
  advertise := e.advertise
  allowTrace := e.allowTrace

/-- A text of claims in a field that may be unset; empty counts as unset. -/
def textView (s : String) : Option String :=
  if s.isEmpty then none else some s

def importView (i : ImportClaim) : Import where
  source := none
  account := some i.account
  name := i.name
  subject := i.subject
  localSubject := textView i.localSubject
  flow := flowOf i.flow
  token := textView i.token
  share := i.share
  allowTrace := i.allowTrace

def accountKind : String := "account"

/-- Builds the claims of an account from its specification and resolved imports. All issues are
reported at once: the unresolved imports in their order, then the conflicting subjects. -/
def buildAccount (name id : String) (spec : AccountSpec) (resolved : Resolution)
    (signingKeys : List String) : Except ClaimsError AccountClaims :=
  let (imports, found) := checkImports resolved.imports
  match resolved.issues ++ found with
  | [] =>
    .ok {
      name := name
      subject := id
      issuer := none
      body := {
        limits := limitSet spec
        exports := spec.exports.map exportClaim
        imports := imports
        signingKeys := signingKeys
        kind := accountKind
        version := layoutVersion } }
  | issues => .error (.invalid issues)

def decodeAccount (token : String) : Except ClaimsError AccountClaims :=
  match (decode token : Except DecodeFault (ClaimSet AccountBody)) with
  | .error fault => .error (.decoding fault)
  | .ok c =>
    if c.body.kind = accountKind then .ok ⟨c.name, c.subject, some c.issuer, c.body⟩
    else .error (.decoding (.bodyType c.body.kind))

namespace AccountClaims

def sign (c : AccountClaims) (now : Int) (operator : Key.Pair) : Except ClaimsError String :=
  let claims : ClaimSet AccountBody := { name := c.name, subject := c.subject, body := c.body }
  encode now operator claims

def view (c : AccountClaims) : AccountView :=
  let l := c.body.limits
  { accountLimits := ⟨l.imports, l.exports, l.wildcards, l.conn, l.leaf⟩
    natsLimits := ⟨l.subs, l.data, l.payload⟩
    jetStreamLimits := ⟨l.memStorage, l.diskStorage, l.streams, l.consumer, l.maxAckPending,
      l.memMaxStreamBytes, l.diskMaxStreamBytes, l.maxBytesRequired⟩
    exports := c.body.exports.map exportView
    imports := c.body.imports.map importView
    signingKeys := c.body.signingKeys }

end AccountClaims

end CredentialEngine.Claims
