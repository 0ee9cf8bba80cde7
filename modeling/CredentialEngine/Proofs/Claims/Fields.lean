import CredentialEngine.Claims.Token
import CredentialEngine.Proofs.Json.Fields
import CredentialEngine.Proofs.Text.Digits
import CredentialEngine.Proofs.Text.Splitting

/-!
# The shape of claims

Which JSON values denote a token's header and its claims, field by field: what each field is called,
what it holds, and what its absence means. A value is read as a header or as claims exactly when it
denotes them.
-/
namespace CredentialEngine

open Json

/-! ## Parts shared with resources -/

def SubjectRules.Shaped (j : Json) (r : SubjectRules) : Prop :=
  HasFields [("allow", Defaulted [] (IsList IsText) r.allow),
    ("deny", Defaulted [] (IsList IsText) r.deny)] j

theorem SubjectRules.ofJson?_eq_some (j : Json) (r : SubjectRules) :
    ofJson? j = some r ↔ Shaped j r := by
  unfold ofJson? Shaped
  refine bind_fields?_eq_some (by rfl) fun values hvalues => ?_
  match values, hvalues with
  | [_, _], _ =>
    simp only [List.forall₂_cons, List.forall₂_nil_right_iff, and_true, ↓step_eq_some,
      Option.pure_def, Option.some.injEq, defaulted_eq_some (asList_eq_some asText_eq_some)]
    grind

def Window.Shaped (j : Json) (w : Window) : Prop :=
  HasFields [("start", Required IsText w.start), ("end", Required IsText w.stop)] j

theorem Window.ofJson?_eq_some (j : Json) (w : Window) : ofJson? j = some w ↔ Shaped j w := by
  unfold ofJson? Shaped
  refine bind_fields?_eq_some (by rfl) fun values hvalues => ?_
  match values, hvalues with
  | [_, _], _ =>
    simp only [List.forall₂_cons, List.forall₂_nil_right_iff, and_true, ↓step_eq_some,
      Option.pure_def, Option.some.injEq, required_eq_some asText_eq_some]
    grind

namespace Claims

/-! ## Headers -/

def Header.Shaped (j : Json) (h : Header) : Prop :=
  HasFields [("typ", Required IsText h.kind), ("alg", Required IsText h.algorithm)] j

theorem Header.ofJson?_eq_some (j : Json) (h : Header) : ofJson? j = some h ↔ Shaped j h := by
  unfold ofJson? Shaped
  refine bind_fields?_eq_some (by rfl) fun values hvalues => ?_
  match values, hvalues with
  | [_, _], _ =>
    simp only [List.forall₂_cons, List.forall₂_nil_right_iff, and_true, ↓step_eq_some,
      Option.pure_def, Option.some.injEq, required_eq_some asText_eq_some]
    grind

/-! ## Parts of bodies -/

def LimitSet.Shaped (j : Json) (l : LimitSet) : Prop :=
  HasFields [("subs", Required IsInt64 l.subs), ("data", Required IsInt64 l.data),
    ("payload", Required IsInt64 l.payload), ("imports", Required IsInt64 l.imports),
    ("exports", Required IsInt64 l.exports), ("wildcards", Required IsFlag l.wildcards),
    ("conn", Required IsInt64 l.conn), ("leaf", Required IsInt64 l.leaf),
    ("mem_storage", Defaulted (-1) IsInt64 l.memStorage),
    ("disk_storage", Defaulted (-1) IsInt64 l.diskStorage),
    ("streams", Defaulted (-1) IsInt64 l.streams),
    ("consumer", Defaulted (-1) IsInt64 l.consumer),
    ("max_ack_pending", Defaulted (-1) IsInt64 l.maxAckPending),
    ("mem_max_stream_bytes", Defaulted (-1) IsInt64 l.memMaxStreamBytes),
    ("disk_max_stream_bytes", Defaulted (-1) IsInt64 l.diskMaxStreamBytes),
    ("max_bytes_required", Defaulted false IsFlag l.maxBytesRequired)] j

theorem LimitSet.ofJson?_eq_some (j : Json) (l : LimitSet) : ofJson? j = some l ↔ Shaped j l := by
  unfold ofJson? Shaped
  refine bind_fields?_eq_some (by rfl) fun values hvalues => ?_
  match values, hvalues with
  | [_, _, _, _, _, _, _, _, _, _, _, _, _, _, _, _], _ =>
    simp only [List.forall₂_cons, List.forall₂_nil_right_iff, and_true, ↓step_eq_some,
      Option.pure_def, Option.some.injEq, unlimited,
      required_eq_some asInt64_eq_some, required_eq_some asBool_eq_some,
      defaulted_eq_some asInt64_eq_some, defaulted_eq_some asBool_eq_some]
    grind

/-- JSON of a sampling rate: the number, the word `headers` in letters of any case for zero, or a
numeral with percent signs behind it or none. -/
inductive IsSampling : Json → Int64 → Prop
  | number (n : Int64) : IsSampling (.int n.toInt) n
  | word {s : String} (h : s.toList.map Char.toLower = "headers".toList) : IsSampling (.str s) 0
  | numeral {s : String} {cs percents : List Char} {n : Int64} (text : s.toList = cs ++ percents)
    (hcs : Text.IsNumeral cs n.toInt) (hpercents : ∀ c ∈ percents, c = '%') :
    IsSampling (.str s) n

theorem toLower_digit_ne {c : Char} (h : c.isDigit = true) : c.toLower ≠ 'h' := by
  have hrange := Text.toNat_of_isDigit h
  have hstays : c.toLower = c := by
    refine dif_neg ?_
    rintro ⟨hlow, -⟩
    have hupper : 65 ≤ c.toNat := hlow
    omega
  rw [hstays]
  rintro rfl
  contradiction

/-- A numeral is not the word, since it opens with a sign or a digit. -/
theorem ne_word_of_isNumeral {cs : List Char} {n : Int} (h : Text.IsNumeral cs n)
    (after : List Char) : (cs ++ after).map Char.toLower ≠ "headers".toList := by
  obtain ⟨⟨c, hc, hopens⟩, -⟩ := h.ends
  obtain ⟨cs, rfl⟩ := List.head?_eq_some_iff.mp hc
  intro hword
  have hlower : c.toLower = 'h' := (List.cons.inj hword).1
  rcases hopens with rfl | rfl | hdigit
  · exact absurd hlower (by decide)
  · exact absurd hlower (by decide)
  · exact toLower_digit_ne hdigit hlower

theorem asSampling_eq_some (j : Json) (n : Int64) : asSampling j = some n ↔ IsSampling j n := by
  constructor
  · intro h
    unfold asSampling at h
    split at h
    · obtain rfl : _ = n.toInt := int.inj ((asInt64_eq_some _ _).mp h)
      exact .number n
    · rename_i s
      split at h
      · rename_i hword
        obtain rfl := Option.some.inj h
        exact .word (beq_iff_eq.mp hword)
      · split at h
        · rename_i m hm
          obtain rfl : m = n.toInt := int.inj ((asInt64_eq_some _ _).mp h)
          obtain ⟨percents, hpercents, htext⟩ := Text.exists_dropEndWhile (· == '%') s.toList
          exact .numeral htext (Text.intOfSigned?_eq_some.mp hm) fun c hc =>
            beq_iff_eq.mp (hpercents c hc)
        · contradiction
    · contradiction
  · intro h
    cases h with
    | number n => exact (asInt64_eq_some _ _).mpr rfl
    | word hword => exact if_pos (beq_iff_eq.mpr hword)
    | @numeral s cs percents n htext hcs hpercents =>
      have hother : equalsIgnoringCase s "headers" = false := by
        refine beq_eq_false_iff_ne.mpr ?_
        rw [htext]
        exact ne_word_of_isNumeral hcs percents
      have hdropped : Text.dropEndWhile (· == '%') s.toList = cs := by
        rw [htext]
        refine Text.dropEndWhile_append (fun c hc => beq_iff_eq.mpr (hpercents c hc)) fun c hc => ?_
        refine beq_eq_false_iff_ne.mpr ?_
        rintro rfl
        exact absurd (hcs.ends.2 '%' hc) (by decide)
      rw [asSampling, hother, hdropped, Text.intOfSigned?_eq_some.mpr hcs]
      exact (asInt64_eq_some _ _).mpr rfl

def LatencyClaim.Shaped (j : Json) (l : LatencyClaim) : Prop :=
  HasFields [("sampling", Required IsSampling l.sampling), ("results", Required IsText l.results)] j

theorem LatencyClaim.ofJson?_eq_some (j : Json) (l : LatencyClaim) :
    ofJson? j = some l ↔ Shaped j l := by
  unfold ofJson? Shaped
  refine bind_fields?_eq_some (by rfl) fun values hvalues => ?_
  match values, hvalues with
  | [_, _], _ =>
    simp only [List.forall₂_cons, List.forall₂_nil_right_iff, and_true, ↓step_eq_some,
      Option.pure_def, Option.some.injEq,
      required_eq_some asSampling_eq_some, required_eq_some asText_eq_some]
    grind

def ExportClaim.Shaped (j : Json) (e : ExportClaim) : Prop :=
  HasFields [("name", Defaulted "" IsText e.name), ("subject", Required IsText e.subject),
    ("type", Required IsText e.flow), ("token_req", Defaulted false IsFlag e.tokenRequired),
    ("revocations", Defaulted .empty (IsDict IsInt64) e.revocations),
    ("response_type", Nullable IsText e.replyKind),
    ("response_threshold", Nullable IsInt64 e.replyThreshold),
    ("service_latency", Nullable LatencyClaim.Shaped e.latency),
    ("account_token_position", Defaulted 0 IsUInt32 e.accountTokenPosition),
    ("advertise", Defaulted false IsFlag e.advertise),
    ("allow_trace", Defaulted false IsFlag e.allowTrace)] j

theorem ExportClaim.ofJson?_eq_some (j : Json) (e : ExportClaim) :
    ofJson? j = some e ↔ Shaped j e := by
  unfold ofJson? Shaped
  refine bind_fields?_eq_some (by rfl) fun values hvalues => ?_
  match values, hvalues with
  | [_, _, _, _, _, _, _, _, _, _, _], _ =>
    simp only [List.forall₂_cons, List.forall₂_nil_right_iff, and_true, ↓step_eq_some,
      Option.pure_def, Option.some.injEq,
      required_eq_some asText_eq_some, defaulted_eq_some asText_eq_some,
      defaulted_eq_some asBool_eq_some, defaulted_eq_some (asDict_eq_some asInt64_eq_some),
      optional_eq_some asText_eq_some, optional_eq_some asInt64_eq_some,
      optional_eq_some LatencyClaim.ofJson?_eq_some, defaulted_eq_some asUInt32_eq_some]
    grind

def ImportClaim.Shaped (j : Json) (i : ImportClaim) : Prop :=
  HasFields [("name", Defaulted "" IsText i.name), ("subject", Required IsText i.subject),
    ("account", Required IsText i.account), ("token", Defaulted "" IsText i.token),
    ("local_subject", Defaulted "" IsText i.localSubject), ("type", Required IsText i.flow),
    ("share", Defaulted false IsFlag i.share),
    ("allow_trace", Defaulted false IsFlag i.allowTrace)] j

theorem ImportClaim.ofJson?_eq_some (j : Json) (i : ImportClaim) :
    ofJson? j = some i ↔ Shaped j i := by
  unfold ofJson? Shaped
  refine bind_fields?_eq_some (by rfl) fun values hvalues => ?_
  match values, hvalues with
  | [_, _, _, _, _, _, _, _], _ =>
    simp only [List.forall₂_cons, List.forall₂_nil_right_iff, and_true, ↓step_eq_some,
      Option.pure_def, Option.some.injEq,
      required_eq_some asText_eq_some, defaulted_eq_some asText_eq_some,
      defaulted_eq_some asBool_eq_some]
    grind

def ReplyClaim.Shaped (j : Json) (r : ReplyClaim) : Prop :=
  HasFields [("max", Required IsInt64 r.max), ("ttl", Defaulted 0 IsInt64 r.ttl)] j

theorem ReplyClaim.ofJson?_eq_some (j : Json) (r : ReplyClaim) :
    ofJson? j = some r ↔ Shaped j r := by
  unfold ofJson? Shaped
  refine bind_fields?_eq_some (by rfl) fun values hvalues => ?_
  match values, hvalues with
  | [_, _], _ =>
    simp only [List.forall₂_cons, List.forall₂_nil_right_iff, and_true, ↓step_eq_some,
      Option.pure_def, Option.some.injEq,
      required_eq_some asInt64_eq_some, defaulted_eq_some asInt64_eq_some]
    grind

def DefaultPermissions.Shaped (j : Json) (p : DefaultPermissions) : Prop :=
  HasFields [("pub", Defaulted {} SubjectRules.Shaped p.publish),
    ("sub", Defaulted {} SubjectRules.Shaped p.subscribe),
    ("resp", Nullable ReplyClaim.Shaped p.reply)] j

theorem DefaultPermissions.ofJson?_eq_some (j : Json) (p : DefaultPermissions) :
    ofJson? j = some p ↔ Shaped j p := by
  unfold ofJson? Shaped
  refine bind_fields?_eq_some (by rfl) fun values hvalues => ?_
  match values, hvalues with
  | [_, _, _], _ =>
    simp only [List.forall₂_cons, List.forall₂_nil_right_iff, and_true, ↓step_eq_some,
      Option.pure_def, Option.some.injEq,
      defaulted_eq_some SubjectRules.ofJson?_eq_some, optional_eq_some ReplyClaim.ofJson?_eq_some]
    grind

/-! ## Bodies -/

def AccountBody.Shaped (j : Json) (b : AccountBody) : Prop :=
  HasFields [("limits", Required LimitSet.Shaped b.limits),
    ("exports", Defaulted [] (IsList ExportClaim.Shaped) b.exports),
    ("imports", Defaulted [] (IsList ImportClaim.Shaped) b.imports),
    ("signing_keys", Defaulted [] (IsList IsText) b.signingKeys),
    ("default_permissions", Defaulted {} DefaultPermissions.Shaped b.defaultPermissions),
    ("type", Required IsText b.kind), ("version", Required IsUInt8 b.version)] j

theorem AccountBody.ofJson?_eq_some (j : Json) (b : AccountBody) :
    ofJson? j = some b ↔ Shaped j b := by
  unfold ofJson? Shaped
  refine bind_fields?_eq_some (by rfl) fun values hvalues => ?_
  match values, hvalues with
  | [_, _, _, _, _, _, _], _ =>
    simp only [List.forall₂_cons, List.forall₂_nil_right_iff, and_true, ↓step_eq_some,
      Option.pure_def, Option.some.injEq, required_eq_some LimitSet.ofJson?_eq_some,
      defaulted_eq_some (asList_eq_some ExportClaim.ofJson?_eq_some),
      defaulted_eq_some (asList_eq_some ImportClaim.ofJson?_eq_some),
      defaulted_eq_some (asList_eq_some asText_eq_some),
      defaulted_eq_some DefaultPermissions.ofJson?_eq_some, required_eq_some asText_eq_some,
      required_eq_some asUInt8_eq_some]
    grind

def UserBody.Shaped (j : Json) (b : UserBody) : Prop :=
  HasFields [("pub", Defaulted {} SubjectRules.Shaped b.publish),
    ("sub", Defaulted {} SubjectRules.Shaped b.subscribe),
    ("resp", Nullable ReplyClaim.Shaped b.reply),
    ("src", Defaulted [] (IsList IsText) b.sources),
    ("times", Defaulted [] (IsList Window.Shaped) b.windows),
    ("times_location", Defaulted "" IsText b.location), ("subs", Required IsInt64 b.subs),
    ("data", Required IsInt64 b.data), ("payload", Required IsInt64 b.payload),
    ("issuer_account", Defaulted "" IsText b.issuerAccount), ("type", Required IsText b.kind),
    ("version", Required IsUInt8 b.version)] j

theorem UserBody.ofJson?_eq_some (j : Json) (b : UserBody) : ofJson? j = some b ↔ Shaped j b := by
  unfold ofJson? Shaped
  refine bind_fields?_eq_some (by rfl) fun values hvalues => ?_
  match values, hvalues with
  | [_, _, _, _, _, _, _, _, _, _, _, _], _ =>
    simp only [List.forall₂_cons, List.forall₂_nil_right_iff, and_true, ↓step_eq_some,
      Option.pure_def, Option.some.injEq,
      defaulted_eq_some SubjectRules.ofJson?_eq_some, optional_eq_some ReplyClaim.ofJson?_eq_some,
      defaulted_eq_some (asList_eq_some asText_eq_some),
      defaulted_eq_some (asList_eq_some Window.ofJson?_eq_some), defaulted_eq_some asText_eq_some,
      required_eq_some asInt64_eq_some, required_eq_some asText_eq_some,
      required_eq_some asUInt8_eq_some]
    grind

def DeletionBody.Shaped (j : Json) (b : DeletionBody) : Prop :=
  HasFields [("accounts", Required (IsList IsText) b.accounts), ("type", Required IsText b.kind),
    ("version", Required IsUInt8 b.version)] j

theorem DeletionBody.ofJson?_eq_some (j : Json) (b : DeletionBody) :
    ofJson? j = some b ↔ Shaped j b := by
  unfold ofJson? Shaped
  refine bind_fields?_eq_some (by rfl) fun values hvalues => ?_
  match values, hvalues with
  | [_, _, _], _ =>
    simp only [List.forall₂_cons, List.forall₂_nil_right_iff, and_true, ↓step_eq_some,
      Option.pure_def, Option.some.injEq,
      required_eq_some (asList_eq_some asText_eq_some), required_eq_some asText_eq_some,
      required_eq_some asUInt8_eq_some]
    grind

/-- A body of which it is known what JSON denotes it. -/
class ShapedBody (β : Type) [Body β] where
  Shaped : Json → β → Prop
  ofJson?_eq_some (j : Json) (b : β) : Body.ofJson? j = some b ↔ Shaped j b

instance : ShapedBody AccountBody := ⟨AccountBody.Shaped, AccountBody.ofJson?_eq_some⟩

instance : ShapedBody UserBody := ⟨UserBody.Shaped, UserBody.ofJson?_eq_some⟩

instance : ShapedBody DeletionBody := ⟨DeletionBody.Shaped, DeletionBody.ofJson?_eq_some⟩

/-! ## Claims -/

variable {β : Type} [Body β] [ShapedBody β]

def ClaimSet.Shaped (j : Json) (c : ClaimSet β) : Prop :=
  HasFields [("jti", Defaulted "" IsText c.id), ("iat", Defaulted 0 IsInt64 c.issuedAt),
    ("iss", Defaulted "" IsText c.issuer), ("name", Defaulted "" IsText c.name),
    ("sub", Required IsText c.subject), ("exp", Nullable IsInt64 c.expires),
    ("nats", Required ShapedBody.Shaped c.body)] j

theorem ClaimSet.ofJson?_eq_some (j : Json) (c : ClaimSet β) : ofJson? j = some c ↔ Shaped j c := by
  unfold ofJson? Shaped
  refine bind_fields?_eq_some (by rfl) fun values hvalues => ?_
  match values, hvalues with
  | [_, _, _, _, _, _, _], _ =>
    simp only [List.forall₂_cons, List.forall₂_nil_right_iff, and_true, ↓step_eq_some,
      Option.pure_def, Option.some.injEq,
      required_eq_some asText_eq_some, defaulted_eq_some asText_eq_some,
      defaulted_eq_some asInt64_eq_some, optional_eq_some asInt64_eq_some,
      required_eq_some (@ShapedBody.ofJson?_eq_some β _ _)]
    grind

end Claims

end CredentialEngine
