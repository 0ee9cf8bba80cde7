import CredentialEngine.Proofs.Text.Bytes
import Mathlib.Tactic.SplitIfs

/-!
# The order of texts

Texts compare by code point. UTF-8 keeps that order: the bytes of a smaller character come first,
whatever follows, so dictionaries list their keys in the order of the bytes of the keys.
-/
namespace CredentialEngine.Text

open String (utf8EncodeChar)

theorem ofNat_lt_ofNat {m n : Nat} (hm : m < 256) (hn : n < 256) :
    UInt8.ofNat m < UInt8.ofNat n ↔ m < n := by
  rw [UInt8.lt_iff_toNat_lt, UInt8.toNat_ofNat', UInt8.toNat_ofNat', Nat.mod_eq_of_lt hm,
    Nat.mod_eq_of_lt hn]

theorem ofNat_eq_ofNat {m n : Nat} (hm : m < 256) (hn : n < 256) :
    UInt8.ofNat m = UInt8.ofNat n ↔ m = n := by
  rw [← UInt8.toNat_inj, UInt8.toNat_ofNat', UInt8.toNat_ofNat', Nat.mod_eq_of_lt hm,
    Nat.mod_eq_of_lt hn]

/-- Numbers compare by all but their last digit in base 64, then by that digit. -/
theorem lt_iff_digits {m n : Nat} :
    m < n ↔ m / 64 < n / 64 ∨ m / 64 = n / 64 ∧ m % 64 < n % 64 := by
  omega

theorem toNat_val_lt (c : Char) : c.val.toNat < 0x110000 := by
  have h := c.valid
  simp only [UInt32.isValidChar, Nat.isValidChar] at h
  omega

theorem utf8EncodeChar_ne_nil (c : Char) : utf8EncodeChar c ≠ [] := by
  unfold utf8EncodeChar
  dsimp only
  split_ifs <;> exact List.cons_ne_nil _ _

/-- The bytes of a smaller character come first, whatever follows either. -/
theorem utf8EncodeChar_append_lt {c d : Char} (h : c < d) (u v : List UInt8) :
    utf8EncodeChar c ++ u < utf8EncodeChar d ++ v := by
  have hn : c.val.toNat < d.val.toNat := h
  have hd : d.val.toNat < 0x110000 := toNat_val_lt d
  unfold utf8EncodeChar
  generalize c.val.toNat = m at hn
  generalize d.val.toNat = n at hn hd
  -- the bytes are made from the digits, so what counts is where these first differ
  have h₁ := lt_iff_digits.mp hn
  rw [lt_iff_digits (m := m / 64), lt_iff_digits (m := m / 64 / 64)] at h₁
  have h₂ (k : Nat) : k / 4096 = k / 64 / 64 := by omega
  have h₃ (k : Nat) : k / 262144 = k / 64 / 64 / 64 := by omega
  have hm : m / 64 / 64 / 64 % 8 = m / 64 / 64 / 64 := by omega
  have hn : n / 64 / 64 / 64 % 8 = n / 64 / 64 / 64 := by omega
  simp only [h₂, h₃]
  -- a character of fewer bytes has the smaller first byte
  split_ifs <;> simp only [List.cons_append, List.cons_lt_cons_iff] <;>
    simp (disch := omega) only [ofNat_lt_ofNat, ofNat_eq_ofNat, Nat.add_lt_add_iff_right,
      Nat.add_right_cancel_iff] <;> omega

/-- Texts in the order of their code points are in the order of their bytes. -/
theorem textBytes_lt {s t : String} (h : s < t) : Key.textBytes s < Key.textBytes t := by
  rw [← String.ofList_toList (s := s), ← String.ofList_toList (s := t), textBytes_ofList,
    textBytes_ofList]
  have hl : s.toList < t.toList := h
  clear h
  generalize s.toList = cs at hl ⊢
  generalize t.toList = ds at hl ⊢
  induction hl with
  | @nil d ds =>
    obtain ⟨b, bs, hb⟩ := List.exists_cons_of_ne_nil (utf8EncodeChar_ne_nil d)
    rw [List.flatMap_nil, List.flatMap_cons, hb, List.cons_append]
    exact List.Lex.nil
  | cons _ ih =>
    rw [List.flatMap_cons, List.flatMap_cons]
    exact List.append_left_lt ih
  | rel hcd =>
    rw [List.flatMap_cons, List.flatMap_cons]
    exact utf8EncodeChar_append_lt hcd _ _

end CredentialEngine.Text
