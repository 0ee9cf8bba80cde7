import CredentialEngine.Proofs.Claims.Token

/-!
# Signed claims

What a key pair with a seed signs is a token that reads back as the stamped claims, for every type
of body that is read back from its own text.
-/
namespace CredentialEngine.Claims

open Json

variable {β : Type} [Body β]

/-- The signer's key accepts its signature of these claims. -/
def Accepted (now : Int) (signer : Key.Pair) (c : ClaimSet β) : Prop :=
  signer.AcceptsOwn (signedBytes (stamped now signer c))

/-- Signing gives a token with the characters of one, which reads back as the stamped claims. -/
theorem encode_ok_decode (hb : Faithful (Body.toJson : β → Json) Body.ofJson?) {c : ClaimSet β}
    {now : Int} {role : Key.Role} {seed : List UInt8}
    (hv : Accepted now (Key.Pair.ofSeed role seed) c) :
    ∃ signature,
      encode now (Key.Pair.ofSeed role seed) c =
        .ok (String.ofList (tokenChars (stamped now (Key.Pair.ofSeed role seed) c) signature)) ∧
      decode (String.ofList (tokenChars (stamped now (Key.Pair.ofSeed role seed) c) signature)) =
        .ok (stamped now (Key.Pair.ofSeed role seed) c) := by
  unfold Accepted at hv
  generalize hstamped : stamped now (Key.Pair.ofSeed role seed) c = stamp at hv ⊢
  have hsign : (Key.Pair.ofSeed role seed).sign (signedBytes stamp) =
      .ok (Key.Curve.sign seed (signedBytes stamp)) := rfl
  have hverifies := hv _ hsign
  -- a key that accepts a signature denotes a point, so its text is read back
  have hissuer : Key.Pair.ofPublicText stamp.issuer =
      .ok ⟨role, (Key.Pair.ofSeed role seed).publicKey, none⟩ := by
    rw [← hstamped]
    exact Key.Pair.ofPublicText_publicText (Key.Pair.length_publicKey seed)
      (Key.Pair.isSome_decode?_of_verifies hverifies)
  have hpublic : (⟨role, (Key.Pair.ofSeed role seed).publicKey, none⟩ : Key.Pair).verifies
      (signedBytes stamp) (Key.Curve.sign seed (signedBytes stamp)) = true := hverifies
  have hread : decode ("" ++ String.ofList (tokenChars stamp
      (Key.Curve.sign seed (signedBytes stamp))) ++ "") = .ok stamp :=
    decode_tokenChars hb hissuer hpublic nofun nofun
  rw [String.append_empty, String.empty_append] at hread
  refine ⟨Key.Curve.sign seed (signedBytes stamp), ?_, hread⟩
  rw [← hstamped] at hsign ⊢
  exact encode_of_sign hsign

/-- What was signed has the characters of a token. -/
theorem toList_of_encode {c : ClaimSet β} {now : Int} {signer : Key.Pair} {token : String}
    (h : encode now signer c = .ok token) :
    ∃ signature, token.toList = tokenChars (stamped now signer c) signature := by
  simp only [encode] at h
  split at h
  case h_1 signature _ =>
    rw [← Except.ok.inj h, String.toList_ofList]
    exact ⟨signature, rfl⟩
  case h_2 => contradiction

theorem trim_of_encode {c : ClaimSet β} {now : Int} {signer : Key.Pair} {token : String}
    (h : encode now signer c = .ok token) : Text.trim token = token := by
  obtain ⟨signature, hchars⟩ := toList_of_encode h
  rw [Text.trim, hchars, Text.trimChars_of_unblank (tokenChars_unblank _ _), ← hchars,
    String.ofList_toList]

theorem isEmpty_of_encode {c : ClaimSet β} {now : Int} {signer : Key.Pair} {token : String}
    (h : encode now signer c = .ok token) : token.isEmpty = false := by
  obtain ⟨signature, hchars⟩ := toList_of_encode h
  have hne : token ≠ "" := by
    rintro rfl
    simp [tokenChars] at hchars
  simpa using hne

/-- Whatever reading makes of a token that was signed is the stamped claims. -/
theorem eq_stamped_of_decode (hb : Faithful (Body.toJson : β → Json) Body.ofJson?) {c c' : ClaimSet β}
    {now : Int} {signer : Key.Pair} {token : String} (hencode : encode now signer c = .ok token)
    (hdecode : decode token = .ok c') : c' = stamped now signer c := by
  obtain ⟨signature, hchars⟩ := toList_of_encode hencode
  have ht : Text.trimChars token.toList = tokenChars (stamped now signer c) signature := by
    rw [hchars, Text.trimChars_of_unblank (tokenChars_unblank _ _)]
  obtain ⟨header, payload, last, -, -, -, hparts, -, -, hread, -⟩ :=
    (decode_eq_ok_iff ht).mp hdecode
  rw [parts_tokenChars] at hparts
  obtain ⟨-, hparts⟩ := List.cons.inj hparts
  rw [← (List.cons.inj hparts).1, readSegment_jsonSegment (ClaimSet.faithful hb)] at hread
  exact (Except.ok.inj hread).symm

theorem accepted_of_worked {now : Int} {role : Key.Role} {seed : List UInt8} {c : ClaimSet β}
    (h : acceptsOwn now role seed c = true) : Accepted now (Key.Pair.ofSeed role seed) c :=
  acceptsOwn_of_worked h

end CredentialEngine.Claims
