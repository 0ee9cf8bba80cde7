import CredentialEngine.Claims.Account
import CredentialEngine.Net.Network

/-!
# User claims

Users are issued by their account's signing key; the body names the account. Source networks and
windows are checked, and every bad one is reported, before any claims exist.
-/
namespace CredentialEngine.Claims

structure UserClaims where
  name : String
  /-- The public id of the user. -/
  subject : String
  body : UserBody
  deriving DecidableEq

def replyClaim (r : ReplyRule) : ReplyClaim where
  max := r.maxMessages
  ttl := (r.expires.map nanosClaim).getD 0

/-- A reply permission in the declared form; only a positive time to live is shown. -/
def replyView (r : ReplyClaim) : ReplyRule where
  maxMessages := r.max
  expires := if 0 < r.ttl then some (nanosView r.ttl) else none

/-- Whether both ends of a window are times of day. -/
def isWindow (w : Window) : Bool :=
  Time.isTimeOfDay w.start && Time.isTimeOfDay w.stop

/-- Everything wrong with the connection limits of a user: the sources, then the windows. -/
def userIssues (l : UserLimits) : List Issue :=
  (l.sources.filter fun s => !Net.isNetwork s).map .invalidSource ++
    (l.windows.filter fun w => !isWindow w).map fun w => .invalidWindow w.start w.stop

def userKind : String := "user"

/-- Builds the claims of a user of an account. -/
def buildUser (name id accountId : String) (spec : UserSpec) : Except ClaimsError UserClaims :=
  let limits := spec.userLimits.getD {}
  let traffic := spec.natsLimits.getD {}
  let permissions := spec.permissions.getD {}
  match userIssues limits with
  | [] =>
    .ok {
      name := name
      subject := id
      body := {
        publish := permissions.publish
        subscribe := permissions.subscribe
        reply := permissions.reply.map replyClaim
        sources := limits.sources
        windows := limits.windows
        location := limits.locale.getD ""
        subs := traffic.subs.getD unlimited
        data := traffic.data.getD unlimited
        payload := traffic.payload.getD unlimited
        issuerAccount := accountId
        kind := userKind
        version := layoutVersion } }
  | issues => .error (.invalid issues)

namespace UserClaims

/-- Signs the claims with an account's signing key. -/
def sign (c : UserClaims) (now : Int) (signer : Key.Pair) : Except ClaimsError String :=
  encode now signer ({ name := c.name, subject := c.subject, body := c.body } : ClaimSet UserBody)

def view (c : UserClaims) (accountName : String) : UserView :=
  let b := c.body
  { accountName := accountName
    permissions := ⟨b.publish, b.subscribe, b.reply.map replyView⟩
    userLimits := ⟨b.sources, b.windows, textView b.location⟩
    natsLimits := ⟨b.subs, b.data, b.payload⟩ }

end UserClaims

end CredentialEngine.Claims
