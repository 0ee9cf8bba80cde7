import CredentialEngine.Proofs.Claims.Account
import CredentialEngine.Proofs.Claims.User

/-!
# Nothing declared of a user is lost

From a specification to claims, to a signed token, back to claims and to the view that a status
reports: rules, sources and windows come back in order, each on the side where it was declared,
every limit that is set comes back as it is, and every other one as no limit.
-/
namespace CredentialEngine.Claims

/-- The list of a group that may be absent; without the group it is empty. -/
def listOf {γ α : Type} (group : Option γ) (field : γ → List α) : List α :=
  match group with
  | none => []
  | some g => field g

/-- A reply permission as it is reported: the time to live is at most the largest number of
nanoseconds, and none at all becomes absent. -/
def reportedReply (r : ReplyRule) : ReplyRule where
  maxMessages := r.maxMessages
  expires := (r.expires.filter fun d => d.nanos ≠ 0).map fun d => ⟨min d.nanos (2 ^ 63 - 1)⟩

/-- The view holds what the specification declares. -/
structure UserReflects (spec : UserSpec) (accountName : String) (v : UserView) : Prop where
  accountName : v.accountName = accountName
  publishAllow : v.permissions.publish.allow = listOf spec.permissions (·.publish.allow)
  publishDeny : v.permissions.publish.deny = listOf spec.permissions (·.publish.deny)
  subscribeAllow : v.permissions.subscribe.allow = listOf spec.permissions (·.subscribe.allow)
  subscribeDeny : v.permissions.subscribe.deny = listOf spec.permissions (·.subscribe.deny)
  reply : v.permissions.reply = (spec.permissions.bind (·.reply)).map reportedReply
  sources : v.userLimits.sources = listOf spec.userLimits (·.sources)
  windows : v.userLimits.windows = listOf spec.userLimits (·.windows)
  locale : v.userLimits.locale = reportedText (spec.userLimits.bind (·.locale))
  natsLimits : v.natsLimits = {
    subs := some (limitOr spec.natsLimits (·.subs) (-1))
    data := some (limitOr spec.natsLimits (·.data) (-1))
    payload := some (limitOr spec.natsLimits (·.payload) (-1)) }

/-! ## Translations and their views -/

theorem listOf_eq {γ α : Type} (group : Option γ) (field : γ → List α) {empty : γ}
    (hempty : field empty = []) : field (group.getD empty) = listOf group field := by
  cases group with
  | none => exact hempty
  | some g => rfl

/-- A time to live in nanoseconds is positive unless the declared one is zero. -/
theorem nanosClaim_pos (d : Duration) : 0 < nanosClaim d ↔ d.nanos ≠ 0 := by
  have hlt : min d.nanos (2 ^ 63 - 1) < 2 ^ 63 := by omega
  have hpow : Nat.pow 2 63 = 2 ^ 63 := rfl
  rw [nanosClaim, hpow, Int64.lt_iff_toInt_lt, Int64.toInt_ofNat_of_lt hlt, Int64.toInt_zero]
  omega

theorem replyView_replyClaim (r : ReplyRule) : replyView (replyClaim r) = reportedReply r := by
  obtain ⟨maxMessages, expires⟩ := r
  cases expires with
  | none => rfl
  | some d =>
    by_cases hzero : d.nanos = 0
    · have hnot : ¬ 0 < nanosClaim d := fun hpos => (nanosClaim_pos d).mp hpos hzero
      simp [replyView, replyClaim, reportedReply, hnot, Option.filter, hzero]
    · have hpos : 0 < nanosClaim d := (nanosClaim_pos d).mpr hzero
      simp [replyView, replyClaim, reportedReply, hpos, Option.filter, hzero, nanosView_nanosClaim]

/-- The claims that a specification without bad limits gives. -/
theorem userReflects_view {name id accountId : String} {spec : UserSpec} {claims : UserClaims}
    (h : buildUser name id accountId spec = .ok claims) (accountName : String) :
    UserReflects spec accountName (claims.view accountName) := by
  simp only [buildUser] at h
  split at h
  case h_2 => contradiction
  case h_1 =>
    obtain rfl := Except.ok.inj h
    have hreply : ((spec.permissions.getD {}).reply.map replyClaim).map replyView =
        (spec.permissions.bind (·.reply)).map reportedReply := by
      rw [Option.map_map, show replyView ∘ replyClaim = reportedReply from
        funext replyView_replyClaim]
      cases spec.permissions <;> rfl
    have hlocale : textView ((spec.userLimits.getD {}).locale.getD "") =
        reportedText (spec.userLimits.bind (·.locale)) := by
      rw [textView_getD]
      cases spec.userLimits <;> rfl
    exact {
      accountName := rfl
      publishAllow := listOf_eq spec.permissions (·.publish.allow) rfl
      publishDeny := listOf_eq spec.permissions (·.publish.deny) rfl
      subscribeAllow := listOf_eq spec.permissions (·.subscribe.allow) rfl
      subscribeDeny := listOf_eq spec.permissions (·.subscribe.deny) rfl
      reply := hreply
      sources := listOf_eq spec.userLimits (·.sources) rfl
      windows := listOf_eq spec.userLimits (·.windows) rfl
      locale := hlocale
      natsLimits := by simp only [UserClaims.view, limitOr_eq, unlimited] }

/-! ## The whole way -/

/-- The claims that a token was read as, without what signing stamped on them. -/
def UserClaims.ofClaimSet (c : ClaimSet UserBody) : UserClaims :=
  ⟨c.name, c.subject, c.body⟩

/-- Whatever the account, a specification that a build accepts is signed by any key with a seed
and read back with the same name, subject and body and with the signer as the issuer, and the view
of what is read reflects the whole specification. The curve is assumed to accept the signer's
signature. -/
theorem userReflects_of_signed (name id accountId accountName : String) (spec : UserSpec)
    (now : Int) (role : Key.Role) (seed : List UInt8) (claims : UserClaims)
    (hbuilt : buildUser name id accountId spec = .ok claims)
    (hv : Accepted now (Key.Pair.ofSeed role seed) claims.claimSet) :
    ∃ token read,
      claims.sign now (Key.Pair.ofSeed role seed) = .ok token ∧
      decode token = .ok read ∧
      read.name = name ∧ read.subject = id ∧ read.body = claims.body ∧
      read.body.issuerAccount = accountId ∧
      read.issuer = (Key.Pair.ofSeed role seed).publicText ∧
      UserReflects spec accountName ((UserClaims.ofClaimSet read).view accountName) := by
  obtain ⟨hname, hsubject, haccount⟩ := buildUser_ok hbuilt
  obtain ⟨signature, hencode, hdecode⟩ := encode_ok_decode UserBody.faithful hv
  exact ⟨_, _, hencode, hdecode, hname, hsubject, rfl, haccount, rfl,
    userReflects_view hbuilt accountName⟩

/-- A user with rules on one side each, a reply permission that outlives every count of nanoseconds,
a source, a window in no time zone, and one limit set. -/
def courierSpec : UserSpec where
  accountName := "orders"
  permissions := some {
    publish := { allow := ["parcels.>"] }
    subscribe := { deny := ["audit", "billing"] }
    reply := some ⟨3, some ⟨2 ^ 63⟩⟩ }
  userLimits := some {
    sources := ["10.0.0.0/8"]
    windows := [⟨"08:00:00", "18:00:00"⟩]
    locale := some "" }
  natsLimits := some { payload := some 1024 }

def courierClaims : UserClaims where
  name := "courier"
  subject := "U"
  body := {
    publish := { allow := ["parcels.>"] }
    subscribe := { deny := ["audit", "billing"] }
    reply := some ⟨3, 2 ^ 63 - 1⟩
    sources := ["10.0.0.0/8"]
    windows := [⟨"08:00:00", "18:00:00"⟩]
    location := ""
    subs := -1
    data := -1
    payload := 1024
    issuerAccount := "A"
    kind := "user"
    version := 2 }

theorem built_courier : buildUser "courier" "U" "A" courierSpec = .ok courierClaims := by
  decide +kernel

theorem accepted_courier :
    Accepted 0 (Key.Pair.ofSeed .account (List.replicate 32 0)) courierClaims.claimSet :=
  accepted_of_worked (by decide +kernel)

theorem userReflects_of_signed_courier :
    ∃ token read,
      courierClaims.sign 0 (Key.Pair.ofSeed .account (List.replicate 32 0)) = .ok token ∧
      decode token = .ok read ∧
      read.name = "courier" ∧ read.subject = "U" ∧ read.body = courierClaims.body ∧
      read.body.issuerAccount = "A" ∧
      read.issuer = (Key.Pair.ofSeed .account (List.replicate 32 0)).publicText ∧
      UserReflects courierSpec "orders" ((UserClaims.ofClaimSet read).view "orders") :=
  userReflects_of_signed "courier" "U" "A" "orders" courierSpec 0 .account (List.replicate 32 0)
    courierClaims built_courier accepted_courier

end CredentialEngine.Claims
