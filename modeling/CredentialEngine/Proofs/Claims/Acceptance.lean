import CredentialEngine.Proofs.Claims.Fields
import CredentialEngine.Proofs.Claims.Token

/-!
# Which tokens are accepted

A token is accepted just when it is properly signed: among blanks, three segments that carry a
header, the claims and a signature, of which the signature is by the issuer of the claims and over
everything before the last dot. Segments are strict texts, so that no other spelling of a token
passes, and the part that is verified is the part that is read.
-/
namespace CredentialEngine.Claims

open Json Encoding

/-! ## Segments -/

/-- A segment carries a value: it is the text of bytes that hold JSON of the value's shape. -/
def Carries {α : Type} (shaped : Json → α → Prop) (cs : List Char) (v : α) : Prop :=
  ∃ bytes j, cs = segment bytes ∧ Json.ofBytes? bytes = some j ∧ shaped j v

theorem readSegment_eq_ok {α : Type} {read : Json → Option α} {shaped : Json → α → Prop}
    (hshaped : ∀ j v, read j = some v ↔ shaped j v) {cs : List Char} {v : α} :
    readSegment read cs = .ok v ↔ Carries shaped cs v := by
  constructor
  · intro h
    rw [readSegment, segmentJson] at h
    cases hbytes : Radix.base64url.decode? cs with
    | none =>
      rw [hbytes] at h
      contradiction
    | some bytes =>
      cases hj : Json.ofBytes? bytes with
      | none =>
        simp only [hbytes, hj] at h
        contradiction
      | some j =>
        cases hv : read j with
        | none =>
          simp only [hbytes, hj, hv] at h
          contradiction
        | some w =>
          simp only [hbytes, hj, hv] at h
          obtain rfl := Except.ok.inj h
          exact ⟨bytes, j, Radix.base64url_lawful.eq_encode_of_decode? hbytes, hj,
            (hshaped j w).mp hv⟩
  · rintro ⟨bytes, j, rfl, hj, hv⟩
    have hread := (hshaped j v).mpr hv
    rw [readSegment, segmentJson, segment, Radix.base64url_lawful.decode?_encode]
    simp only [hj, hread]

/-! ## Tokens -/

variable {β : Type} [Body β] [ShapedBody β]

/-- What makes a token a properly signed one of the claims. -/
structure SignedToken (token : String) (c : ClaimSet β) where
  /-- The token without the blanks around it. -/
  text : List Char
  header : List Char
  payload : List Char
  last : List Char
  head : Header
  issuer : Key.Pair
  signature : List UInt8
  /-- Everything before the last dot. -/
  input : List Char
  rest : List Char
  trimmed : Text.Trims token.toList text
  segments : text = header ++ '.' :: (payload ++ '.' :: last)
  dotless : '.' ∉ header ∧ '.' ∉ payload ∧ '.' ∉ last
  header_shape : Carries Header.Shaped header head
  known : head.algorithm = "ed25519-nkey" ∨ head.algorithm = "ed25519"
  payload_shape : Carries ClaimSet.Shaped payload c
  signature_text : last = segment signature
  issuer_text : issuer.IsPublicText c.issuer
  cut : text = input ++ '.' :: rest
  last_dot : '.' ∉ rest
  verified : issuer.verifies (Key.textBytes (String.ofList input)) signature = true

/-- What is read as claims is properly signed. The three segments make up the text, so the part
before the last dot is the first two of them. -/
theorem nonempty_signedToken {token : String} {c : ClaimSet β} (h : decode token = .ok c) :
    Nonempty (SignedToken token c) := by
  obtain ⟨header, payload, last, head, signature, issuer, hparts, hhead, hknown, hc, hs, hi, hv⟩ :=
    (decode_eq_ok_iff rfl).mp h
  obtain ⟨hdotless, htext⟩ := Text.parts_eq_iff.mp hparts
  simp only [List.forall_mem_cons] at hdotless
  obtain ⟨hheader, hpayload, hlast, -⟩ := hdotless
  have hcut : Text.trimChars token.toList = (header ++ '.' :: payload) ++ '.' :: last := by
    rw [htext]
    simp [List.intercalate]
  rw [hcut, Text.beforeLast_append hlast] at hv
  exact ⟨{
    text := Text.trimChars token.toList
    header, payload, last, head, issuer, signature
    input := header ++ '.' :: payload
    rest := last
    trimmed := Text.trims_trimChars token.toList
    segments := by rw [hcut, List.append_assoc, List.cons_append]
    dotless := ⟨hheader, hpayload, hlast⟩
    header_shape := (readSegment_eq_ok Header.ofJson?_eq_some).mp hhead
    known := hknown
    payload_shape := (readSegment_eq_ok ClaimSet.ofJson?_eq_some).mp hc
    signature_text := Radix.base64url_lawful.eq_encode_of_decode? hs
    issuer_text := Key.Pair.ofPublicText_eq_ok.mp hi
    cut := hcut
    last_dot := hlast
    verified := hv }⟩

/-- A properly signed token is read as its claims: the last dot of its text is one and the same,
however the text is taken apart. -/
theorem SignedToken.decode_eq {token : String} {c : ClaimSet β} (signed : SignedToken token c) :
    decode token = .ok c := by
  have hparts : Text.parts '.' signed.text = [signed.header, signed.payload, signed.last] := by
    obtain ⟨hheader, hpayload, hlast⟩ := signed.dotless
    refine Text.parts_eq_iff.mpr ⟨by simp [hheader, hpayload, hlast], ?_⟩
    rw [signed.segments]
    simp [List.intercalate]
  have hinput : Text.beforeLast '.' signed.text = signed.input := by
    rw [signed.cut, Text.beforeLast_append signed.last_dot]
  have hsignature : Radix.base64url.decode? signed.last = some signed.signature := by
    rw [signed.signature_text, segment, Radix.base64url_lawful.decode?_encode]
  rw [decode_eq_ok_iff signed.trimmed.trimChars_eq]
  refine ⟨signed.header, signed.payload, signed.last, signed.head, signed.signature,
    signed.issuer, hparts, ?_, signed.known, ?_, hsignature, ?_, ?_⟩
  · exact (readSegment_eq_ok Header.ofJson?_eq_some).mpr signed.header_shape
  · exact (readSegment_eq_ok ClaimSet.ofJson?_eq_some).mpr signed.payload_shape
  · exact Key.Pair.ofPublicText_eq_ok.mpr signed.issuer_text
  · rw [hinput]
    exact signed.verified

/-- A token is accepted as claims exactly when it is a properly signed token of them, for each type
of body, and is refused with a fault exactly when it is one of no claims at all. -/
theorem decode_accepts_signed (token : String) :
    (∀ c : ClaimSet β, decode token = .ok c ↔ Nonempty (SignedToken token c)) ∧
      ((∃ fault, (decode token : Except DecodeFault (ClaimSet β)) = .error fault) ↔
        ∀ c : ClaimSet β, IsEmpty (SignedToken token c)) := by
  refine ⟨fun c => ⟨nonempty_signedToken, fun ⟨signed⟩ => signed.decode_eq⟩, ?_⟩
  constructor
  · rintro ⟨fault, hfault⟩ c
    refine ⟨fun signed => ?_⟩
    have hread := signed.decode_eq
    rw [hfault] at hread
    contradiction
  · intro hnone
    cases hread : (decode token : Except DecodeFault (ClaimSet β)) with
    | error fault => exact ⟨fault, rfl⟩
    | ok c =>
      obtain ⟨signed⟩ := nonempty_signedToken hread
      exact ((hnone c).false signed).elim

end CredentialEngine.Claims
