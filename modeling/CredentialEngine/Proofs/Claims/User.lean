import CredentialEngine.Claims.User
import CredentialEngine.Proofs.Claims.Signing
import CredentialEngine.Proofs.Key.Bundle

/-!
# Signed user claims

A token fills one line of a bundle, and what is signed for a user is read back from it: the user as
the subject, the account in the body, and the signer as the issuer.
-/
namespace CredentialEngine.Claims

open Json

/-- Every token starts with the letter that starts the text of a JSON record. -/
theorem head?_header : (jsonSegment (Header.toJson ⟨"JWT", algorithm⟩)).head? = some 'e' := by
  decide +kernel

/-- A token can be a block of a bundle. -/
theorem isPayload_token {β : Type} [Body β] (c : ClaimSet β) (signature : List UInt8) :
    Key.Bundle.IsPayload (String.ofList (tokenChars c signature)) := by
  obtain ⟨cs, hcs⟩ : ∃ cs, tokenChars c signature = 'e' :: cs := by
    obtain ⟨cs, hcs⟩ := List.head?_eq_some_iff.mp head?_header
    exact ⟨_, by rw [tokenChars, signingInput, hcs]; rfl⟩
  have hunblank := tokenChars_unblank c signature
  rw [hcs] at hunblank ⊢
  refine Key.Bundle.isPayload_of_unblank ?_ ?_ ?_ <;> rw [String.toList_ofList]
  · rfl
  · exact hunblank
  · rfl

/-- The claims as a token carries them, before they are stamped. -/
def UserClaims.claimSet (c : UserClaims) : ClaimSet UserBody :=
  { name := c.name, subject := c.subject, body := c.body }

/-- What is signed of a user's claims is a token that reads back as they were stamped. -/
theorem decode_of_signUser {claims : UserClaims} {now : Int} {role : Key.Role} {seed : List UInt8}
    (hv : Accepted now (Key.Pair.ofSeed role seed) claims.claimSet) {token : String}
    (h : claims.sign now (Key.Pair.ofSeed role seed) = .ok token) :
    Key.Bundle.IsPayload token ∧
      decode token = .ok (stamped now (Key.Pair.ofSeed role seed) claims.claimSet) := by
  obtain ⟨signature, hencode, hdecode⟩ := encode_ok_decode UserBody.faithful hv
  have htoken := Except.ok.inj (hencode.symm.trans h)
  rw [← htoken]
  exact ⟨isPayload_token _ signature, hdecode⟩

theorem buildUser_ok {name id accountId : String} {spec : UserSpec} {claims : UserClaims}
    (h : buildUser name id accountId spec = .ok claims) :
    claims.name = name ∧ claims.subject = id ∧ claims.body.issuerAccount = accountId := by
  simp only [buildUser] at h
  split at h
  · obtain rfl := Except.ok.inj h
    exact ⟨rfl, rfl, rfl⟩
  · contradiction

end CredentialEngine.Claims
