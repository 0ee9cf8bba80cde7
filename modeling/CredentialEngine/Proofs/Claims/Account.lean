import CredentialEngine.Proofs.Claims.Imports
import CredentialEngine.Proofs.Claims.Signing

/-!
# Nothing declared of an account is lost

From a specification to claims, to a signed token, back to claims and to the view that a status
reports: every limit that is set comes back as it is and every other one at its default, exports
come back in order, and imports in order at the accounts that they resolve to.
-/
namespace CredentialEngine.Claims

/-- The value of a field in a group of limits that may be absent, or else a default. -/
def limitOr {γ α : Type} (group : Option γ) (field : γ → Option α) (default : α) : α :=
  match group with
  | none => default
  | some g =>
    match field g with
    | none => default
    | some v => v

/-- An export as it is reported, with its threshold at most the largest number of nanoseconds. -/
def reportedExport (e : Export) : Export :=
  { e with replyThreshold := e.replyThreshold.map fun d => ⟨min d.nanos (2 ^ 63 - 1)⟩ }

/-- A text as it is reported; an empty one becomes absent. -/
def reportedText (s : Option String) : Option String :=
  s.filter fun t => t ≠ ""

/-- An import as it is reported: the account is the resolved one and no reference remains. -/
structure ReportedImport (resolver : Resolver) (space : String) (i v : Import) : Prop where
  source : v.source = none
  account : ∃ id, resolveSource space resolver i = .ok id ∧ v.account = some id
  name : v.name = i.name
  subject : v.subject = i.subject
  localSubject : v.localSubject = reportedText i.localSubject
  flow : v.flow = i.flow
  token : v.token = reportedText i.token
  share : v.share = i.share
  allowTrace : v.allowTrace = i.allowTrace

/-- The view holds what the specification declares. -/
structure Reflects (resolver : Resolver) (space : String) (spec : AccountSpec)
    (signingKeys : List String) (v : AccountView) : Prop where
  accountLimits : v.accountLimits = {
    imports := some (limitOr spec.accountLimits (·.imports) (-1))
    exports := some (limitOr spec.accountLimits (·.exports) (-1))
    wildcardExports := some (limitOr spec.accountLimits (·.wildcardExports) true)
    conn := some (limitOr spec.accountLimits (·.conn) (-1))
    leaf := some (limitOr spec.accountLimits (·.leaf) (-1)) }
  natsLimits : v.natsLimits = {
    subs := some (limitOr spec.natsLimits (·.subs) (-1))
    data := some (limitOr spec.natsLimits (·.data) (-1))
    payload := some (limitOr spec.natsLimits (·.payload) (-1)) }
  jetStreamLimits : v.jetStreamLimits = {
    memStorage := some (limitOr spec.jetStreamLimits (·.memStorage) (-1))
    diskStorage := some (limitOr spec.jetStreamLimits (·.diskStorage) (-1))
    streams := some (limitOr spec.jetStreamLimits (·.streams) (-1))
    consumer := some (limitOr spec.jetStreamLimits (·.consumer) (-1))
    maxAckPending := some (limitOr spec.jetStreamLimits (·.maxAckPending) (-1))
    memMaxStreamBytes := some (limitOr spec.jetStreamLimits (·.memMaxStreamBytes) (-1))
    diskMaxStreamBytes := some (limitOr spec.jetStreamLimits (·.diskMaxStreamBytes) (-1))
    maxBytesRequired := some (limitOr spec.jetStreamLimits (·.maxBytesRequired) false) }
  exports : v.exports = spec.exports.map reportedExport
  imports : List.Forall₂ (ReportedImport resolver space) spec.imports v.imports
  signingKeys : v.signingKeys = signingKeys

/-! ## Translations and their views -/

theorem flowOf_text (f : Flow) : flowOf f.text = f := by
  cases f <;> decide

theorem replyKindOf_text (r : ReplyKind) : replyKindOf r.text = r := by
  cases r <;> decide

theorem nanosView_nanosClaim (d : Duration) :
    nanosView (nanosClaim d) = ⟨min d.nanos (2 ^ 63 - 1)⟩ := by
  have hlt : min d.nanos (2 ^ 63 - 1) < 2 ^ 63 := by omega
  have hpow : Nat.pow 2 63 = 2 ^ 63 := rfl
  rw [nanosView, nanosClaim, hpow, Int64.toInt_ofNat_of_lt hlt, Int.toNat_natCast]

theorem exportView_exportClaim (e : Export) : exportView (exportClaim e) = reportedExport e := by
  have hkind : (e.replyKind.map ReplyKind.text).map replyKindOf = e.replyKind := by
    cases e.replyKind with
    | none => rfl
    | some r => rw [Option.map_some, Option.map_some, replyKindOf_text]
  have hthreshold : (e.replyThreshold.map nanosClaim).map nanosView =
      e.replyThreshold.map fun d => ⟨min d.nanos (2 ^ 63 - 1)⟩ := by
    rw [Option.map_map]
    congr 1
    exact funext nanosView_nanosClaim
  have hlatency : (e.latency.map fun l => (⟨l.sampling, l.results⟩ : LatencyClaim)).map
      (fun l => (⟨l.sampling, l.results⟩ : LatencyReport)) = e.latency := by
    cases e.latency <;> rfl
  simp only [exportView, exportClaim, reportedExport, flowOf_text, hkind, hthreshold, hlatency]

theorem textView_getD (s : Option String) : textView (s.getD "") = reportedText s := by
  cases s with
  | none => rfl
  | some t =>
    unfold textView reportedText
    by_cases ht : t = ""
    · subst ht
      rfl
    · have hempty : t.isEmpty = false := Bool.eq_false_iff.mpr (mt String.isEmpty_iff.mp ht)
      simp [Option.filter, ht, hempty]

variable {resolver : Resolver} {space : String}

theorem reportedImport_importView {i : Import} {j : ImportClaim}
    (h : Imported resolver space i j) : ReportedImport resolver space i (importView j) := by
  obtain ⟨account, claim⟩ := h
  generalize j.account = id at account claim
  subst claim
  exact {
    source := rfl
    account := ⟨id, account, rfl⟩
    name := rfl
    subject := rfl
    localSubject := textView_getD i.localSubject
    flow := flowOf_text i.flow
    token := textView_getD i.token
    share := rfl
    allowTrace := rfl }

theorem limitOr_eq {γ α : Type} (group : Option γ) (field : γ → Option α) {empty : γ} (default : α)
    (hempty : field empty = none) :
    (field (group.getD empty)).getD default = limitOr group field default := by
  cases group with
  | none => rw [Option.getD_none, hempty, limitOr, Option.getD_none]
  | some g => cases hg : field g <;> simp [limitOr, hg]

/-- What is built reflects its specification. -/
theorem reflects_view {name id : String} {spec : AccountSpec} {signingKeys : List String}
    {claims : AccountClaims}
    (h : buildAccount name id spec (resolveImports space resolver spec.imports) signingKeys =
      .ok claims) : Reflects resolver space spec signingKeys claims.view := by
  obtain ⟨hissues, hconflicts⟩ := clean_of_buildAccount h
  have himported := imported_of_no_issues resolver space spec.imports hissues
  rw [buildAccount_of_clean name id spec signingKeys hissues hconflicts] at h
  obtain rfl := Except.ok.inj h
  refine ⟨?_, ?_, ?_, ?_, ?_, rfl⟩
  · simp only [AccountClaims.view, limitSet, limitOr_eq, unlimited]
  · simp only [AccountClaims.view, limitSet, limitOr_eq, unlimited]
  · simp only [AccountClaims.view, limitSet, limitOr_eq, unlimited]
  · simp only [AccountClaims.view, List.map_map]
    exact List.map_congr_left fun e _ => exportView_exportClaim e
  · exact List.forall₂_map_right_iff.mpr (himported.imp fun _ _ => reportedImport_importView)

/-! ## The whole way -/

/-- The claims as a token carries them, before they are stamped. -/
def AccountClaims.claimSet (c : AccountClaims) : ClaimSet AccountBody :=
  { name := c.name, subject := c.subject, body := c.body }

/-- Claims that were built are signed and read back as they are, with the signer as the issuer. -/
theorem decodeAccount_of_sign {claims : AccountClaims} {now : Int} {role : Key.Role}
    {seed : List UInt8} (hkind : claims.body.kind = accountKind)
    (hv : Accepted now (Key.Pair.ofSeed role seed) claims.claimSet) :
    ∃ token, claims.sign now (Key.Pair.ofSeed role seed) = .ok token ∧
      decodeAccount token =
        .ok { claims with issuer := some (Key.Pair.ofSeed role seed).publicText } := by
  obtain ⟨signature, hencode, hdecode⟩ := encode_ok_decode AccountBody.faithful hv
  refine ⟨_, hencode, ?_⟩
  rw [decodeAccount, hdecode]
  exact if_pos hkind

/-- A token of signed claims has something in it and no blanks around it. -/
theorem trim_of_sign {claims : AccountClaims} {now : Int} {operator : Key.Pair} {token : String}
    (hsign : claims.sign now operator = .ok token) :
    Text.trim token = token ∧ token.isEmpty = false :=
  ⟨trim_of_encode hsign, isEmpty_of_encode hsign⟩

/-- Claims that are read from a token that was signed have the subject that was signed. -/
theorem subject_of_decodeAccount {claims read : AccountClaims} {now : Int} {operator : Key.Pair}
    {token : String} (hsign : claims.sign now operator = .ok token)
    (hread : decodeAccount token = .ok read) : read.subject = claims.subject := by
  rw [decodeAccount] at hread
  split at hread
  case h_1 => contradiction
  case h_2 c hdecode =>
    obtain rfl := eq_stamped_of_decode AccountBody.faithful hsign hdecode
    split at hread
    · rw [← Except.ok.inj hread]
      rfl
    · contradiction

/-- Whatever directory resolves its imports, a specification that a build accepts is signed by any
operator with a seed and read back with the same name, subject and body and with the operator as the
issuer, and the view of what is read reflects the whole specification. The curve is assumed to
accept the operator's signature. -/
theorem reflects_of_signed (space : String) (resolver : Resolver) (spec : AccountSpec)
    (name id : String) (signingKeys : List String) (now : Int) (role : Key.Role)
    (seed : List UInt8) (claims : AccountClaims)
    (hbuilt : buildAccount name id spec (resolveImports space resolver spec.imports) signingKeys =
      .ok claims)
    (hv : Accepted now (Key.Pair.ofSeed role seed) claims.claimSet) :
    ∃ token read,
      claims.sign now (Key.Pair.ofSeed role seed) = .ok token ∧
      decodeAccount token = .ok read ∧
      read.name = name ∧ read.subject = id ∧ read.body = claims.body ∧
      read.issuer = some (Key.Pair.ofSeed role seed).publicText ∧
      Reflects resolver space spec signingKeys read.view := by
  have hreflects := reflects_view hbuilt
  obtain ⟨hissues, hconflicts⟩ := clean_of_buildAccount hbuilt
  rw [buildAccount_of_clean name id spec signingKeys hissues hconflicts] at hbuilt
  obtain rfl := Except.ok.inj hbuilt
  obtain ⟨token, hsign, hread⟩ := decodeAccount_of_sign rfl hv
  exact ⟨token, _, hsign, hread, rfl, rfl, rfl, rfl, hreflects⟩

/-- An account with one limit set, an export whose threshold is cut off, and an import. -/
def parcelsSpec : AccountSpec where
  accountLimits := some { conn := some 5 }
  exports := [{ subject := "e", flow := .service, replyThreshold := some ⟨2 ^ 63⟩ }]
  imports := [{ source := some { name := "b" }, subject := "i", localSubject := some "" }]

def parcelsClaims : AccountClaims where
  name := "p"
  subject := "A"
  issuer := none
  body := {
    limits := { conn := 5 }
    exports := [{ subject := "e", flow := "service", replyThreshold := some (2 ^ 63 - 1) }]
    imports := [{ subject := "i", account := "B", flow := "stream" }]
    signingKeys := ["S"]
    kind := "account"
    version := 2 }

theorem built_parcels :
    buildAccount "p" "A" parcelsSpec
      (resolveImports "t" (fun _ _ => .issued "B") parcelsSpec.imports) ["S"] =
        .ok parcelsClaims := by
  decide +kernel

theorem accepted_parcels :
    Accepted 0 (Key.Pair.ofSeed .operator (List.replicate 32 0)) parcelsClaims.claimSet :=
  accepted_of_worked (by decide +kernel)

theorem reflects_of_signed_parcels :
    ∃ token read,
      parcelsClaims.sign 0 (Key.Pair.ofSeed .operator (List.replicate 32 0)) = .ok token ∧
      decodeAccount token = .ok read ∧
      read.name = "p" ∧ read.subject = "A" ∧ read.body = parcelsClaims.body ∧
      read.issuer = some (Key.Pair.ofSeed .operator (List.replicate 32 0)).publicText ∧
      Reflects (fun _ _ => .issued "B") "t" parcelsSpec ["S"] read.view :=
  reflects_of_signed "t" (fun _ _ => .issued "B") parcelsSpec "p" "A" ["S"] 0 .operator
    (List.replicate 32 0) parcelsClaims built_parcels accepted_parcels

end CredentialEngine.Claims
