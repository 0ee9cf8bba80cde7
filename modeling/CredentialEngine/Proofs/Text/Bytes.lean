import CredentialEngine.Key.Pair

/-!
# The bytes of a text

Texts are hashed, signed and stored as their UTF-8 bytes. A character below U+0080 is its own byte,
every other one is spelled with bytes from 0x80 on, and the bytes of a text denote that text alone.
-/
namespace CredentialEngine.Text

open String (utf8EncodeChar)

/-- What a test finds of all characters of a list holds of each. -/
theorem forall_of_all {p : Char → Prop} [DecidablePred p] {cs : List Char}
    (h : (cs.all fun c => decide (p c)) = true) : ∀ c ∈ cs, p c :=
  fun c hc => of_decide_eq_true (List.all_eq_true.mp h c hc)

theorem textBytes_ofList (cs : List Char) :
    Key.textBytes (String.ofList cs) = cs.flatMap utf8EncodeChar := by
  unfold Key.textBytes
  rw [String.toUTF8_eq_toByteArray, String.toByteArray_ofList, List.utf8Encode,
    List.data_toByteArray]

theorem toUTF8_singleton (c : Char) :
    (String.singleton c).toUTF8.data.toList = utf8EncodeChar c := by
  have h := textBytes_ofList [c]
  simpa [Key.textBytes] using h

/-- Bytes that spell a list of characters are read back as that list. -/
theorem fromUTF8?_flatMap (cs : List Char) :
    String.fromUTF8? ⟨(cs.flatMap utf8EncodeChar).toArray⟩ = some (String.ofList cs) := by
  have hb : (⟨(cs.flatMap utf8EncodeChar).toArray⟩ : ByteArray) = cs.utf8Encode := by
    rw [List.utf8Encode, ← List.data_toByteArray]
  have hv : ByteArray.IsValidUTF8 ⟨(cs.flatMap utf8EncodeChar).toArray⟩ :=
    hb ▸ ByteArray.isValidUTF8_utf8Encode
  unfold String.fromUTF8?
  rw [dif_pos hv]
  congr 1
  rw [← String.toByteArray_inj, String.toByteArray_ofList]
  exact hb

/-- The bytes of a text denote it. -/
theorem fromUTF8?_textBytes (s : String) :
    String.fromUTF8? ⟨(Key.textBytes s).toArray⟩ = some s := by
  have h := fromUTF8?_flatMap s.toList
  rwa [← textBytes_ofList, String.ofList_toList] at h

theorem utf8EncodeChar_of_lt {c : Char} (h : c.toNat < 0x80) :
    utf8EncodeChar c = [UInt8.ofNat c.toNat] := by
  unfold utf8EncodeChar
  rw [if_pos (by change c.toNat ≤ 127; omega)]
  rfl

theorem le_of_mem_utf8EncodeChar {c : Char} (h : 0x80 ≤ c.toNat) {b : UInt8}
    (hb : b ∈ utf8EncodeChar c) : 0x80 ≤ b.toNat := by
  have hv : c.val.toNat = c.toNat := rfl
  unfold utf8EncodeChar at hb
  rw [if_neg (by omega)] at hb
  split at hb
  · simp only [List.mem_cons, List.not_mem_nil, or_false] at hb
    rcases hb with rfl | rfl <;> rw [UInt8.toNat_ofNat'] <;> omega
  · split at hb
    · simp only [List.mem_cons, List.not_mem_nil, or_false] at hb
      rcases hb with rfl | rfl | rfl <;> rw [UInt8.toNat_ofNat'] <;> omega
    · simp only [List.mem_cons, List.not_mem_nil, or_false] at hb
      rcases hb with rfl | rfl | rfl | rfl <;> rw [UInt8.toNat_ofNat'] <;> omega

/-- A text of characters below U+0080 has one byte for each. -/
theorem utf8ByteSize_of_ascii {cs : List Char} (h : ∀ c ∈ cs, c.toNat < 0x80) :
    (String.ofList cs).utf8ByteSize = cs.length := by
  have hb : (cs.flatMap utf8EncodeChar).length = cs.length := by
    induction cs with
    | nil => rfl
    | cons c cs ih =>
      rw [List.forall_mem_cons] at h
      rw [List.flatMap_cons, List.length_append, utf8EncodeChar_of_lt h.1, ih h.2,
        List.length_singleton, List.length_cons, Nat.add_comm]
  rw [← hb, ← textBytes_ofList]
  rfl

theorem toNat_ofUInt8 (b : UInt8) : (Char.ofUInt8 b).toNat = b.toNat := by
  change b.toUInt32.toNat = b.toNat
  rw [UInt8.toNat_toUInt32]

theorem toUInt8_ofUInt8 (b : UInt8) : (Char.ofUInt8 b).toUInt8 = b := by
  change b.toUInt32.toUInt8 = b
  rw [UInt8.toUInt8_toUInt32]

theorem ofUInt8_ofNat {c : Char} (h : c.toNat < 0x80) :
    Char.ofUInt8 (UInt8.ofNat c.toNat) = c := by
  apply Char.toNat_inj.mp
  rw [toNat_ofUInt8, UInt8.toNat_ofNat', Nat.mod_eq_of_lt (by omega)]

end CredentialEngine.Text
