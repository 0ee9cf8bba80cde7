import CredentialEngine.Proofs.Claims.Shapes
import CredentialEngine.Proofs.Json.Reading
import CredentialEngine.Proofs.Key.Curve

/-!
# Tokens are read back

A token that a key pair signs is three segments, and reading it, blanks around it or not, gives the
claims with the issuer, the time of issue and the id that signing stamps on them.
-/
namespace CredentialEngine.Claims

open Json Encoding

/-- What a token's body may be. -/
inductive BodyKind where
  | account
  | user
  | deletion
  deriving DecidableEq, Repr

namespace BodyKind

def Content : BodyKind → Type
  | account => AccountBody
  | user => UserBody
  | deletion => DeletionBody

instance : (k : BodyKind) → Body k.Content
  | account => inferInstanceAs (Body AccountBody)
  | user => inferInstanceAs (Body UserBody)
  | deletion => inferInstanceAs (Body DeletionBody)

theorem faithful : (k : BodyKind) → Faithful (Body.toJson : k.Content → Json) Body.ofJson?
  | account => AccountBody.faithful
  | user => UserBody.faithful
  | deletion => DeletionBody.faithful

end BodyKind

/-! ## Segments -/

theorem base64url_letters :
    ∀ c ∈ Radix.base64url.alphabet, c ≠ '.' ∧ Text.isBlank c = false :=
  Text.forall_of_all (by decide)

theorem letter_of_mem_segment {bytes : List UInt8} {c : Char} (h : c ∈ segment bytes) :
    c ≠ '.' ∧ Text.isBlank c = false :=
  base64url_letters c (Radix.base64url_lawful.mem_alphabet h)

theorem dot_notMem_segment (bytes : List UInt8) : '.' ∉ segment bytes :=
  fun h => (letter_of_mem_segment h).1 rfl

theorem readSegment_jsonSegment {α : Type} {write : α → Json} {read : Json → Option α}
    (h : Faithful write read) (x : α) : readSegment read (jsonSegment (write x)) = .ok x := by
  have hj : segmentJson (jsonSegment (write x)) = .ok (write x) := by
    rw [segmentJson, jsonSegment, segment, Radix.base64url_lawful.decode?_encode]
    simp only [ofBytes?_compact (h.writable x)]
  rw [readSegment, hj]
  simp only [h.read_write]

/-! ## Whole tokens -/

variable {β : Type} [Body β]

/-- The bytes that are signed. -/
def signedBytes (c : ClaimSet β) : List UInt8 :=
  Key.textBytes (String.ofList (signingInput c))

/-- The characters of a token: the signed part and the signature. -/
def tokenChars (c : ClaimSet β) (signature : List UInt8) : List Char :=
  signingInput c ++ '.' :: segment signature

theorem encode_of_sign {now : Int} {signer : Key.Pair} {c : ClaimSet β} {signature : List UInt8}
    (h : signer.sign (signedBytes (stamped now signer c)) = .ok signature) :
    encode now signer c = .ok (String.ofList (tokenChars (stamped now signer c) signature)) := by
  have hs : signer.sign (Key.textBytes (String.ofList (signingInput (stamped now signer c)))) =
      .ok signature := h
  simp only [encode, hs]
  rfl

/-- The three segments of a token. -/
theorem parts_tokenChars (c : ClaimSet β) (signature : List UInt8) :
    Text.parts '.' (tokenChars c signature) =
      [jsonSegment (Header.toJson ⟨"JWT", algorithm⟩), jsonSegment c.toJson, segment signature] := by
  rw [tokenChars, signingInput, List.append_assoc, List.cons_append, jsonSegment,
    Text.parts_append (dot_notMem_segment _), jsonSegment,
    Text.parts_append (dot_notMem_segment _), Text.parts_of_notMem (dot_notMem_segment _)]

theorem tokenChars_unblank (c : ClaimSet β) (signature : List UInt8) :
    ∀ ch ∈ tokenChars c signature, Text.isBlank ch = false := by
  intro ch h
  rw [tokenChars, signingInput, List.append_assoc, List.mem_append, List.cons_append, List.mem_cons,
    List.mem_append, List.mem_cons] at h
  rcases h with h | rfl | h | rfl | h
  · exact (letter_of_mem_segment h).2
  · decide
  · exact (letter_of_mem_segment h).2
  · decide
  · exact (letter_of_mem_segment h).2

/-- A token is read as claims just when every step on the way succeeds. -/
theorem decode_eq_ok_iff {token : String} {c : ClaimSet β} {chars : List Char}
    (hchars : Text.trimChars token.toList = chars) :
    decode token = .ok c ↔
      ∃ header payload last h signature issuer,
        Text.parts '.' chars = [header, payload, last] ∧
        readSegment Header.ofJson? header = .ok h ∧
        (h.algorithm = algorithm ∨ h.algorithm = olderAlgorithm) ∧
        readSegment ClaimSet.ofJson? payload = .ok c ∧
        Radix.base64url.decode? last = some signature ∧
        Key.Pair.ofPublicText c.issuer = .ok issuer ∧
        issuer.verifies (Key.textBytes (String.ofList (Text.beforeLast '.' chars))) signature =
          true := by
  constructor
  · intro hread
    simp only [decode, hchars] at hread
    split at hread
    · rename_i header payload last hparts
      obtain ⟨h, hh, hread⟩ := exists_ok_of_bind hread
      split at hread
      · contradiction
      · rename_i hknown
        obtain ⟨claims, hc, hread⟩ := exists_ok_of_bind hread
        split at hread
        · rename_i signature hs
          split at hread
          · contradiction
          · rename_i issuer hi
            split at hread
            · rename_i hv
              obtain rfl := Except.ok.inj hread
              exact ⟨header, payload, last, h, signature, issuer, hparts, hh,
                by rwa [not_and_or, not_not, not_not] at hknown, hc, hs, hi, hv⟩
            · contradiction
        · contradiction
    · contradiction
  · rintro ⟨header, payload, last, h, signature, issuer, hparts, hh, hknown, hc, hs, hi, hv⟩
    have hstop : ¬ (h.algorithm ≠ algorithm ∧ h.algorithm ≠ olderAlgorithm) :=
      fun hne => hknown.elim hne.1 hne.2
    simp only [decode, hchars, hparts, hh, hc, hs, hi, hv, hstop, bind, Except.bind, if_false,
      if_true]
    rfl

/-- Reading a token whose issuer reads as a key that accepts its signature gives its claims. -/
theorem decode_tokenChars (hb : Faithful (Body.toJson : β → Json) Body.ofJson?) {c : ClaimSet β}
    {signature : List UInt8} {issuer : Key.Pair} (hi : Key.Pair.ofPublicText c.issuer = .ok issuer)
    (hv : issuer.verifies (signedBytes c) signature = true) {before after : String}
    (hbefore : ∀ ch ∈ before.toList, Text.isBlank ch = true)
    (hafter : ∀ ch ∈ after.toList, Text.isBlank ch = true) :
    decode (before ++ String.ofList (tokenChars c signature) ++ after) = .ok c := by
  have ht : Text.trimChars (before ++ String.ofList (tokenChars c signature) ++ after).toList =
      tokenChars c signature := by
    rw [String.toList_append, String.toList_append, String.toList_ofList]
    exact Text.trimChars_padded hbefore hafter (tokenChars_unblank c signature)
  have hinput : Text.beforeLast '.' (tokenChars c signature) = signingInput c :=
    Text.beforeLast_append (dot_notMem_segment signature) (signingInput c)
  rw [decode_eq_ok_iff ht, hinput]
  exact ⟨_, _, _, _, signature, issuer, parts_tokenChars c signature,
    readSegment_jsonSegment Header.faithful ⟨"JWT", algorithm⟩, .inl rfl,
    readSegment_jsonSegment (ClaimSet.faithful hb) c,
    Radix.base64url_lawful.decode?_encode signature, hi, hv⟩

/-! ## Working out acceptance -/

/-- The bytes of the compact text of a value. -/
def jsonBytes (j : Json) : List UInt8 :=
  (compactChars j).flatMap String.utf8EncodeChar

theorem textBytes_compact (j : Json) : Key.textBytes j.compact = jsonBytes j :=
  Text.textBytes_ofList _

/-- Whether the key of a seed accepts its signature of claims, each part of the text worked out
before it is used. -/
def acceptsOwn (now : Int) (role : Key.Role) (seed : List UInt8) (c : ClaimSet β) : Bool :=
  Key.Curve.workedBytes (Key.Curve.workedPublicKey seed) fun pub =>
  let c := { c with
    issuer := Key.checkedText (role.byte :: pub), issuedAt := Int64.ofInt now }
  Key.Curve.workedBytes (jsonBytes ({ c with id := "" } : ClaimSet β).toJson) fun text =>
  Key.Curve.workedBytes ((Digest.plainHash Digest.variant512to256 text).take 32) fun hash =>
  let c := { c with id := String.ofList (Encoding.Radix.base32.encode hash) }
  Key.Curve.workedBytes (jsonBytes c.toJson) fun payload =>
  Key.Curve.acceptsOwn seed
    ((segment (jsonBytes (Header.toJson ⟨"JWT", algorithm⟩)) ++ '.' :: segment payload).flatMap
      String.utf8EncodeChar)

theorem acceptsOwn_of_worked {now : Int} {role : Key.Role} {seed : List UInt8} {c : ClaimSet β}
    (h : acceptsOwn now role seed c = true) :
    (Key.Pair.ofSeed role seed).AcceptsOwn
      (signedBytes (stamped now (Key.Pair.ofSeed role seed) c)) := by
  simp only [acceptsOwn, Key.Curve.workedBytes_eq, Key.Curve.workedPublicKey_eq,
    ← Digest.sha512to256_eq, ← textBytes_compact] at h
  apply Key.Pair.acceptsOwn_of_worked
  rw [signedBytes, Text.textBytes_ofList]
  exact h

/-! ## The round trip -/

/-- Claims of any kind that a key pair with a seed signs make a token of three segments, and reading
the token among any blanks gives the claims with the signer as issuer, the time of signing, and for
an id the hash of their text without one. The curve is assumed to accept the signer's signature. -/
theorem decode_encode (k : BodyKind) (c : ClaimSet k.Content) (now : Int64) (role : Key.Role)
    (seed : List UInt8)
    (hv : (Key.Pair.ofSeed role seed).AcceptsOwn
      (signedBytes (stamped now.toInt (Key.Pair.ofSeed role seed) c))) :
    ∃ token id,
      encode now.toInt (Key.Pair.ofSeed role seed) c = .ok token ∧
      (Text.parts '.' token.toList).length = 3 ∧
      (∀ before after : String, (∀ ch ∈ before.toList, Text.isBlank ch = true) →
        (∀ ch ∈ after.toList, Text.isBlank ch = true) →
        decode (before ++ token ++ after) = .ok { c with
          id, issuedAt := now, issuer := (Key.Pair.ofSeed role seed).publicText }) ∧
      id = String.ofList (Radix.base32.encode (Digest.sha512to256 (Key.textBytes
        ({ c with
          id := "", issuedAt := now, issuer := (Key.Pair.ofSeed role seed).publicText } :
          ClaimSet k.Content).toJson.compact))) := by
  generalize hsigner : Key.Pair.ofSeed role seed = signer at hv ⊢
  have hseed : signer.seed? = some seed := by rw [← hsigner]; rfl
  have hkey : signer.publicKey.length = 32 := by
    rw [← hsigner]
    exact Key.Pair.length_publicKey seed
  have hstamp : stamped now.toInt signer c = { c with
      id := claimsId ({ c with issuer := signer.publicText, issuedAt := now } : ClaimSet k.Content),
      issuedAt := now, issuer := signer.publicText } := by
    rw [stamped, Int64.ofInt_toInt]
  have hsign : signer.sign (signedBytes (stamped now.toInt signer c)) =
      .ok (Key.Curve.sign seed (signedBytes (stamped now.toInt signer c))) := by
    rw [Key.Pair.sign, hseed]
  have haccept : (⟨signer.role, signer.publicKey, none⟩ : Key.Pair).verifies
      (signedBytes (stamped now.toInt signer c))
      (Key.Curve.sign seed (signedBytes (stamped now.toInt signer c))) = true := hv _ hsign
  -- a key that accepts a signature denotes a point, so its text is read back
  have hissuer := Key.Pair.ofPublicText_publicText hkey
    (Key.Pair.isSome_decode?_of_verifies (hv _ hsign))
  refine ⟨_, _, encode_of_sign hsign, ?_, fun before after hbefore hafter => ?_, rfl⟩
  · rw [String.toList_ofList, parts_tokenChars]
    rfl
  · rw [decode_tokenChars k.faithful hissuer haccept hbefore hafter, hstamp]
    rfl

/-- An account that exports a service, sampled on request, and imports a stream. -/
def sharingAccount : ClaimSet BodyKind.account.Content where
  name := "orders"
  subject := "s"
  expires := some 1800000000
  body := ({
    limits := { subs := 10, payload := Int64.minValue, memStorage := Int64.maxValue }
    exports := [{
      subject := "orders.>", flow := "service", revocations := Dict.ofList [("*", 5)]
      replyThreshold := some 1000, latency := some ⟨0, "latency"⟩ }]
    imports := [{ subject := "é.*", account := "A", localSubject := "x", flow := "stream" }]
    kind := "account"
    version := 2 } : AccountBody)

theorem acceptsOwn_sharingAccount :
    (Key.Pair.ofSeed .operator (List.replicate 32 0)).AcceptsOwn (signedBytes
      (stamped (0 : Int64).toInt (Key.Pair.ofSeed .operator (List.replicate 32 0)) sharingAccount)) :=
  acceptsOwn_of_worked (by decide +kernel)

theorem decode_encode_sharingAccount :
    ∃ token id,
      encode (0 : Int64).toInt (Key.Pair.ofSeed .operator (List.replicate 32 0)) sharingAccount =
        .ok token ∧
      (Text.parts '.' token.toList).length = 3 ∧
      (∀ before after : String, (∀ ch ∈ before.toList, Text.isBlank ch = true) →
        (∀ ch ∈ after.toList, Text.isBlank ch = true) →
        decode (before ++ token ++ after) = .ok { sharingAccount with
          id, issuedAt := 0,
          issuer := (Key.Pair.ofSeed .operator (List.replicate 32 0)).publicText }) ∧
      id = String.ofList (Radix.base32.encode (Digest.sha512to256 (Key.textBytes
        ({ sharingAccount with
          id := "", issuedAt := 0,
          issuer := (Key.Pair.ofSeed .operator (List.replicate 32 0)).publicText } :
          ClaimSet BodyKind.account.Content).toJson.compact))) :=
  decode_encode .account sharingAccount 0 .operator (List.replicate 32 0) acceptsOwn_sharingAccount

end CredentialEngine.Claims
