import CredentialEngine.Key.Pair
import CredentialEngine.Proofs.Encoding.Strict
import CredentialEngine.Proofs.Text.Bytes
import CredentialEngine.Proofs.Text.Splitting

/-!
# Keys are read back from their texts

A checked text gives back its bytes, and bytes are read from no other text. A seed's text gives back
the key pair, and the texts that are read as keys are the public texts of keys that denote a point.
-/
namespace CredentialEngine

/-- What succeeds in two steps succeeds in each. -/
theorem exists_ok_of_bind {ε α β : Type} {act : Except ε α} {k : α → Except ε β} {b : β}
    (h : (act >>= k) = .ok b) : ∃ a, act = .ok a ∧ k a = .ok b := by
  cases act with
  | error fault => contradiction
  | ok a => exact ⟨a, rfl, h⟩

namespace Key

open Encoding (Radix)

theorem base32_ascii : ∀ c ∈ Radix.base32.alphabet, c.toNat < 0x80 :=
  Text.forall_of_all (by decide)

theorem base32_unblank : ∀ c ∈ Radix.base32.alphabet, Text.isBlank c = false :=
  Text.forall_of_all (by decide)

theorem length_crcBytes (bytes : List UInt8) : (Encoding.crcBytes bytes).length = 2 := rfl

theorem checkedBytes_checkedText (bytes : List UInt8) :
    checkedBytes (checkedText bytes) = .ok bytes := by
  have hl : (bytes ++ Encoding.crcBytes bytes).length - 2 = bytes.length := by
    rw [List.length_append, length_crcBytes]
    omega
  rw [checkedBytes, checkedText, String.toList_ofList, Radix.base32_lawful.decode?_encode]
  simp only [hl, List.take_left, List.drop_left, if_pos]

/-- Bytes are read from their checked text only. -/
theorem checkedBytes_eq_ok {text : String} {bytes : List UInt8} :
    checkedBytes text = .ok bytes ↔ text = checkedText bytes := by
  constructor
  · intro h
    rw [checkedBytes] at h
    cases hd : Radix.base32.decode? text.toList with
    | none =>
      rw [hd] at h
      contradiction
    | some all =>
      simp only [hd] at h
      split at h
      · rename_i hcrc
        have hbytes := Except.ok.inj h
        have htext := Radix.base32_lawful.eq_encode_of_decode? hd
        rw [hbytes] at hcrc
        rw [checkedText, ← hcrc, ← hbytes, List.take_append_drop, ← htext, String.ofList_toList]
      · contradiction
  · rintro rfl
    exact checkedBytes_checkedText bytes

/-- The size of a checked text, of which two bytes are the checksum. -/
theorem utf8ByteSize_checkedText (bytes : List UInt8) :
    (checkedText bytes).utf8ByteSize = (8 * (bytes.length + 2) + 4) / 5 := by
  have ha : ∀ c ∈ Radix.base32.encode (bytes ++ Encoding.crcBytes bytes), c.toNat < 0x80 :=
    fun c hc => base32_ascii c (Radix.base32_lawful.mem_alphabet hc)
  rw [checkedText, Text.utf8ByteSize_of_ascii ha, Radix.base32_lawful.length_encode,
    List.length_append, length_crcBytes]
  rfl

theorem trim_checkedText (bytes : List UInt8) :
    Text.trim (checkedText bytes) = checkedText bytes := by
  rw [checkedText, Text.trim, String.toList_ofList, Text.trimChars_of_unblank fun c hc =>
    base32_unblank c (Radix.base32_lawful.mem_alphabet hc)]

theorem Role.ofByte?_byte (r : Role) : Role.ofByte? r.byte = some r := by
  cases r <;> decide

theorem Role.byte_of_ofByte? {b : UInt8} {r : Role} (h : ofByte? b = some r) : r.byte = b := by
  have hfound := List.find?_some h
  exact of_decide_eq_true hfound

namespace Pair

theorem length_publicKey (seed : List UInt8) : (Curve.publicKey seed).length = 32 := by
  rw [Curve.publicKey, Curve.Point.encode, Curve.littleEndian, List.length_map, List.length_range]

/-- The type byte decides the first letter of a public text. -/
theorem startsWith_publicText (p : Pair) :
    startsWith p.publicText
      (Radix.base32.letter ((Encoding.bitsOf 8 p.role.byte.toNat).take 5)) = true := by
  rw [startsWith, publicText, checkedText, String.toList_ofList, List.cons_append,
    Radix.base32_lawful.head?_encode]
  exact beq_self_eq_true _

theorem isEmpty_publicText (p : Pair) : p.publicText.isEmpty = false := by
  cases he : p.publicText.isEmpty with
  | false => rfl
  | true =>
    have hs := startsWith_publicText p
    rw [String.isEmpty_iff.mp he] at hs
    contradiction

theorem publicKey_eq_of_publicText {p q : Pair} (h : p.publicText = q.publicText) :
    p.publicKey = q.publicKey := by
  have hc := congrArg checkedBytes h
  rw [publicText, publicText, checkedBytes_checkedText, checkedBytes_checkedText] at hc
  exact (List.cons.inj (Except.ok.inj hc)).2

/-- Reading a public text whose checksum and type byte are right ends with the test for a point. -/
theorem ofPublicText_of_checked {text : String} {b : UInt8} {key : List UInt8} {role : Role}
    (hs : text.utf8ByteSize = publicLength) (hc : checkedBytes text = .ok (b :: key))
    (hr : Role.ofByte? b = some role) :
    ofPublicText text =
      if (Curve.Point.decode? key).isNone then .error .offCurve else .ok ⟨role, key, none⟩ := by
  simp only [ofPublicText, hs, hc, hr, ne_eq, not_true_eq_false, if_false, bind, Except.bind]
  rfl

/-- A public text is read back where the key denotes a point of the curve. -/
theorem ofPublicText_publicText {p : Pair} (hl : p.publicKey.length = 32)
    (hp : (Curve.Point.decode? p.publicKey).isSome) :
    ofPublicText p.publicText = .ok ⟨p.role, p.publicKey, none⟩ := by
  have hs : p.publicText.utf8ByteSize = publicLength := by
    rw [publicText, utf8ByteSize_checkedText, List.length_cons, hl]
    rfl
  have hn : ¬ (Curve.Point.decode? p.publicKey).isNone = true := by
    rw [Option.isNone_iff_eq_none]
    exact Option.isSome_iff_ne_none.mp hp
  rw [ofPublicText_of_checked hs (checkedBytes_checkedText _) p.role.ofByte?_byte, if_neg hn]

/-- A text is the public text of a key, of which only the public half is known and denotes a point
of the curve. -/
structure IsPublicText (p : Pair) (text : String) : Prop where
  text : text = p.publicText
  seedless : p.seed? = none
  length : p.publicKey.length = 32
  onCurve : (Curve.Point.decode? p.publicKey).isSome

/-- Reading a key passes every test on the way. -/
theorem checked_of_ofPublicText {text : String} {p : Pair} (h : ofPublicText text = .ok p) :
    text.utf8ByteSize = publicLength ∧ checkedBytes text = .ok (p.role.byte :: p.publicKey) ∧
      p.seed? = none ∧ (Curve.Point.decode? p.publicKey).isSome := by
  rw [ofPublicText] at h
  split at h
  · contradiction
  · rename_i hsize
    obtain ⟨bytes, hchecked, h⟩ := exists_ok_of_bind h
    split at h
    · split at h
      · contradiction
      · rename_i role hrole
        split at h
        · contradiction
        · rename_i hcurve
          obtain rfl := Except.ok.inj h
          rw [Option.isNone_iff_eq_none, ← ne_eq, ← Option.isSome_iff_ne_none] at hcurve
          rw [Role.byte_of_ofByte? hrole]
          exact ⟨not_ne_iff.mp hsize, hchecked, rfl, hcurve⟩
    · contradiction

/-- A key is read from its public text only, and from that wherever it denotes a point. -/
theorem ofPublicText_eq_ok {text : String} {p : Pair} :
    ofPublicText text = .ok p ↔ p.IsPublicText text := by
  constructor
  · intro h
    obtain ⟨hsize, hchecked, hseedless, hcurve⟩ := checked_of_ofPublicText h
    have htext := checkedBytes_eq_ok.mp hchecked
    have hlength : p.publicKey.length = 32 := by
      rw [htext, utf8ByteSize_checkedText, List.length_cons, publicLength] at hsize
      omega
    exact ⟨htext, hseedless, hlength, hcurve⟩
  · intro h
    obtain ⟨role, publicKey, seed?⟩ := p
    obtain rfl := h.seedless
    rw [h.text, ofPublicText_publicText h.length h.onCurve]

/-- The key accepts the signature that its own pair makes of a message. -/
def AcceptsOwn (p : Pair) (message : List UInt8) : Prop :=
  ∀ signature, p.sign message = .ok signature → p.verifies message signature = true

/-- A key that verifies anything denotes a point of the curve. -/
theorem isSome_decode?_of_verifies {p : Pair} {message signature : List UInt8}
    (h : p.verifies message signature = true) : (Curve.Point.decode? p.publicKey).isSome := by
  refine Option.isSome_iff_ne_none.mpr fun hd => ?_
  rw [verifies, Curve.verify, hd] at h
  exact Bool.false_ne_true h

/-- The type byte is spread over the first two bytes of a seed's text. -/
theorem seedBytes_role (r : Role) :
    (seedMark ||| (r.byte >>> 5)) &&& 248 = seedMark ∧
      ((((seedMark ||| (r.byte >>> 5)) &&& 7) <<< 5) ||| (((r.byte &&& 31) <<< 3) >>> 3)) =
        r.byte := by
  cases r <;> decide

theorem ofSeedText_of_checked {text : String} {b₀ b₁ : UInt8} {seed : List UInt8} {role : Role}
    (hs : text.utf8ByteSize = seedLength) (hc : checkedBytes text = .ok (b₀ :: b₁ :: seed))
    (hm : b₀ &&& 248 = seedMark) (hr : Role.ofByte? (((b₀ &&& 7) <<< 5) ||| (b₁ >>> 3)) = some role) :
    ofSeedText text = .ok (ofSeed role seed) := by
  simp only [ofSeedText, hs, hc, hm, hr, ne_eq, not_true_eq_false, if_false, bind, Except.bind]
  rfl

/-- What is read from a seed's text is the pair of a seed. -/
theorem exists_ofSeed {text : String} {p : Pair} (h : ofSeedText text = .ok p) :
    ∃ role seed, p = ofSeed role seed := by
  rw [ofSeedText] at h
  split at h
  · contradiction
  · obtain ⟨bytes, -, h⟩ := exists_ok_of_bind h
    split at h
    · split at h
      · contradiction
      · exact ⟨_, _, (Except.ok.inj h).symm⟩
    · contradiction

/-- Seeds are read from checked texts only. -/
theorem checkedText_of_ofSeedText {text : String} {p : Pair} (h : ofSeedText text = .ok p) :
    ∃ bytes, text = checkedText bytes := by
  rw [ofSeedText] at h
  split at h
  · contradiction
  · obtain ⟨bytes, hchecked, -⟩ := exists_ok_of_bind h
    exact ⟨bytes, checkedBytes_eq_ok.mp hchecked⟩

/-- The text of a pair's 32-byte seed has no blanks around it and gives back the pair. -/
theorem seedText?_ofSeed (role : Role) {seed : List UInt8} (hl : seed.length = 32) :
    ∃ text, (ofSeed role seed).seedText? = some text ∧ Text.trim text = text ∧
      ofSeedText text = .ok (ofSeed role seed) := by
  obtain ⟨hmark, hbyte⟩ := seedBytes_role role
  have hs : (checkedText ((seedMark ||| (role.byte >>> 5)) :: ((role.byte &&& 31) <<< 3) ::
      seed)).utf8ByteSize = seedLength := by
    rw [utf8ByteSize_checkedText, List.length_cons, List.length_cons, hl]
    rfl
  have hr := role.ofByte?_byte
  rw [← hbyte] at hr
  exact ⟨_, rfl, trim_checkedText _,
    ofSeedText_of_checked hs (checkedBytes_checkedText _) hmark hr⟩

end Pair

end Key

end CredentialEngine
