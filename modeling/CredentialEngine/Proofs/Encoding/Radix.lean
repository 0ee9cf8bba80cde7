import CredentialEngine.Encoding.Radix
import Mathlib.Algebra.Group.Nat.Defs
import Mathlib.Data.List.GetD
import Mathlib.Data.List.Induction
import Mathlib.Data.List.Nodup

/-!
# Texts over bytes are read back

A number of a given width is its bits and conversely. A text written in a lawful alphabet has whole
groups: the bytes' bits followed by fewer zeros than a group holds, which the reader drops.
-/
namespace CredentialEngine.Encoding

/-! ## Bits of a number -/

theorem length_bitsOf (width n : Nat) : (bitsOf width n).length = width := by
  rw [bitsOf, List.length_map, List.length_range]

theorem bitsOf_succ (width n : Nat) :
    bitsOf (width + 1) n = bitsOf width (n / 2) ++ [n.testBit 0] := by
  have hlast : width + 1 - 1 - width = 0 := by omega
  rw [bitsOf, List.range_succ, List.map_append, List.map_singleton, hlast]
  congr 1
  refine List.map_congr_left fun i hi => ?_
  have hlt := List.mem_range.mp hi
  have hs : width + 1 - 1 - i = width - 1 - i + 1 := by omega
  rw [hs, Nat.testBit_succ]

theorem ofBits_concat (bs : List Bool) (b : Bool) :
    ofBits (bs ++ [b]) = 2 * ofBits bs + b.toNat := by
  rw [ofBits, List.foldl_append]
  rfl

theorem ofBits_bitsOf {width n : Nat} (h : n < 2 ^ width) : ofBits (bitsOf width n) = n := by
  induction width generalizing n with
  | zero =>
    rw [Nat.pow_zero] at h
    have hn : n = 0 := by omega
    rw [hn]
    rfl
  | succ width ih =>
    have hhalf : n / 2 < 2 ^ width := by
      rw [Nat.pow_succ] at h
      omega
    have hbit : (n.testBit 0).toNat = n % 2 := by
      rw [Nat.testBit_zero]
      by_cases ho : n % 2 = 1
      · rw [ho]
        rfl
      · have he : n % 2 = 0 := by omega
        rw [he]
        rfl
    rw [bitsOf_succ, ofBits_concat, ih hhalf, hbit]
    omega

theorem ofBits_lt (bs : List Bool) : ofBits bs < 2 ^ bs.length := by
  induction bs using List.reverseRecOn with
  | nil => decide
  | append_singleton bs b ih =>
    have hb : b.toNat ≤ 1 := Bool.toNat_le b
    rw [ofBits_concat, List.length_append, List.length_singleton, Nat.pow_succ]
    omega

theorem bitsOf_ofBits (bs : List Bool) : bitsOf bs.length (ofBits bs) = bs := by
  induction bs using List.reverseRecOn with
  | nil => rfl
  | append_singleton bs b ih =>
    have hb : b.toNat ≤ 1 := Bool.toNat_le b
    have hhalf : (2 * ofBits bs + b.toNat) / 2 = ofBits bs := by omega
    have hbit : (2 * ofBits bs + b.toNat).testBit 0 = b := by
      rw [Nat.testBit_zero, Nat.mul_add_mod]
      cases b <;> rfl
    rw [List.length_append, List.length_singleton, bitsOf_succ, ofBits_concat, hhalf, hbit, ih]

/-! ## Groups -/

theorem groups_nil (k : Nat) : groups k [] = [] := by
  rw [groups]
  simp

theorem groups_step {k : Nat} (hk : 0 < k) {bs : List Bool} (hb : bs ≠ []) :
    groups k bs = bs.take k :: groups k (bs.drop k) := by
  rw [groups, dif_neg (not_or.mpr ⟨by omega, hb⟩)]

theorem length_le_of_mem_groups {k : Nat} (hk : 0 < k) {bs g : List Bool} (h : g ∈ groups k bs) :
    g.length ≤ k := by
  induction hn : bs.length using Nat.strongRecOn generalizing bs with
  | ind n ih =>
    by_cases hb : bs = []
    · rw [hb, groups_nil] at h
      contradiction
    · have hpos := List.length_pos_iff.mpr hb
      rw [groups_step hk hb] at h
      rcases List.mem_cons.mp h with rfl | h
      · rw [List.length_take]
        omega
      · exact ih (bs.drop k).length (by rw [List.length_drop]; omega) h rfl

theorem length_groups {k : Nat} (hk : 0 < k) (bs : List Bool) :
    (groups k bs).length = (bs.length + (k - 1)) / k := by
  induction hn : bs.length using Nat.strongRecOn generalizing bs with
  | ind n ih =>
    by_cases hb : bs = []
    · rw [← hn, hb, groups_nil, List.length_nil, List.length_nil, Nat.zero_add,
        Nat.div_eq_of_lt (by omega)]
    · have hpos := List.length_pos_iff.mpr hb
      have hr := ih (bs.drop k).length (by rw [List.length_drop]; omega) (bs.drop k) rfl
      rw [groups_step hk hb, List.length_cons, hr, List.length_drop, ← hn]
      by_cases hle : k ≤ bs.length
      · have hs : bs.length + (k - 1) = bs.length - k + (k - 1) + k := by omega
        rw [hs, Nat.add_div_right _ hk]
      · have hz : bs.length - k = 0 := by omega
        have hq : (bs.length + (k - 1)) / k = 1 :=
          Nat.div_eq_of_lt_le (by omega) (by omega)
        rw [hz, Nat.zero_add, Nat.div_eq_of_lt (by omega), hq]

/-- A group filled up with zeros. -/
def filled (k : Nat) (g : List Bool) : List Bool :=
  g ++ List.replicate (k - g.length) false

theorem length_filled {k : Nat} {g : List Bool} (h : g.length ≤ k) : (filled k g).length = k := by
  rw [filled, List.length_append, List.length_replicate]
  omega

/-- The filled groups spell the bits themselves and fewer zeros than a group holds. -/
theorem flatMap_filled {k : Nat} (hk : 0 < k) (bs : List Bool) :
    ∃ z < k, (groups k bs).flatMap (filled k) = bs ++ List.replicate z false := by
  induction hn : bs.length using Nat.strongRecOn generalizing bs with
  | ind n ih =>
    by_cases hb : bs = []
    · refine ⟨0, hk, ?_⟩
      rw [hb, groups_nil]
      rfl
    · have hpos := List.length_pos_iff.mpr hb
      rw [groups_step hk hb, List.flatMap_cons]
      by_cases hle : k ≤ bs.length
      · obtain ⟨z, hz, he⟩ := ih (bs.drop k).length (by rw [List.length_drop]; omega) (bs.drop k) rfl
        have hfull : k - (bs.take k).length = 0 := by
          rw [List.length_take]
          omega
        refine ⟨z, hz, ?_⟩
        rw [he, filled, hfull, List.replicate_zero, List.append_nil, ← List.append_assoc,
          List.take_append_drop]
      · refine ⟨k - bs.length, by omega, ?_⟩
        rw [List.drop_eq_nil_of_le (by omega), groups_nil, List.take_of_length_le (by omega),
          List.flatMap_nil, List.append_nil]
        rfl

/-- Groups of bytes' bits are the bits of the bytes. -/
theorem groups_bytes (bytes : List UInt8) :
    groups 8 (bytes.flatMap fun b => bitsOf 8 b.toNat) = bytes.map fun b => bitsOf 8 b.toNat := by
  induction bytes with
  | nil => exact groups_nil 8
  | cons b bytes ih =>
    have hl := length_bitsOf 8 b.toNat
    have hb : bitsOf 8 b.toNat ++ bytes.flatMap (fun b => bitsOf 8 b.toNat) ≠ [] := by
      intro he
      have := congrArg List.length he
      rw [List.length_append, hl, List.length_nil] at this
      omega
    rw [List.flatMap_cons, groups_step (by decide) hb, List.take_left' hl, List.drop_left' hl, ih,
      List.map_cons]

theorem length_flatMap_bits (bytes : List UInt8) :
    (bytes.flatMap fun b => bitsOf 8 b.toNat).length = 8 * bytes.length := by
  induction bytes with
  | nil => rfl
  | cons b bytes ih =>
    rw [List.flatMap_cons, List.length_append, ih, length_bitsOf, List.length_cons]
    omega

/-! ## Alphabets -/

namespace Radix

/-- Distinct letters for all values of a group of at most one byte. -/
structure Lawful (r : Radix) : Prop where
  pos : 0 < r.width
  le : r.width ≤ 8
  letters : r.alphabet.length = 2 ^ r.width
  distinct : r.alphabet.Nodup

theorem base32_lawful : base32.Lawful := ⟨by decide, by decide, by decide, by decide⟩

theorem base64url_lawful : base64url.Lawful := ⟨by decide, by decide, by decide, by decide⟩

variable {r : Radix} (h : r.Lawful)

include h

theorem Lawful.letter_eq {g : List Bool} (hg : g.length ≤ r.width) :
    ∃ hn : ofBits (filled r.width g) < r.alphabet.length,
      r.letter g = r.alphabet[ofBits (filled r.width g)] := by
  have hlt := ofBits_lt (filled r.width g)
  rw [length_filled hg, ← h.letters] at hlt
  refine ⟨hlt, ?_⟩
  rw [letter, ← filled, List.getD_eq_getElem _ _ hlt]

theorem Lawful.letter_mem {g : List Bool} (hg : g.length ≤ r.width) : r.letter g ∈ r.alphabet := by
  obtain ⟨hn, he⟩ := h.letter_eq hg
  rw [he]
  exact List.getElem_mem hn

/-- Every letter of a text is of the alphabet. -/
theorem Lawful.mem_alphabet {bytes : List UInt8} {c : Char} (hc : c ∈ r.encode bytes) :
    c ∈ r.alphabet := by
  obtain ⟨g, hg, rfl⟩ := List.mem_map.mp hc
  exact h.letter_mem (length_le_of_mem_groups h.pos hg)

theorem Lawful.idxOf?_letter {g : List Bool} (hg : g.length ≤ r.width) :
    r.alphabet.idxOf? (r.letter g) = some (ofBits (filled r.width g)) := by
  obtain ⟨hn, he⟩ := h.letter_eq hg
  rw [List.idxOf?_eq_some_iff]
  refine ⟨hn, he.symm, fun j hj hs => ?_⟩
  have hi := (h.distinct.getElem_inj_iff).mp (hs.trans he)
  omega

theorem Lawful.length_encode (bytes : List UInt8) :
    (r.encode bytes).length = (8 * bytes.length + (r.width - 1)) / r.width := by
  rw [encode, List.length_map, length_groups h.pos, length_flatMap_bits]

/-- The first letter is that of the leading bits of the first byte. -/
theorem Lawful.head?_encode (b : UInt8) (bytes : List UInt8) :
    (r.encode (b :: bytes)).head? = some (r.letter ((bitsOf 8 b.toNat).take r.width)) := by
  have hl : r.width ≤ (bitsOf 8 b.toNat).length := by
    rw [length_bitsOf]
    exact h.le
  have hn : bitsOf 8 b.toNat ++ (bytes.flatMap fun b => bitsOf 8 b.toNat) ≠ [] := by
    intro he
    have hz := congrArg List.length he
    rw [List.length_append, length_bitsOf] at hz
    exact absurd hz (by simp)
  rw [encode, List.flatMap_cons, groups_step h.pos hn, List.map_cons, List.head?_cons,
    List.take_append_of_le_length hl]

/-- The bits that a text spells are those of the bytes and fewer zeros than a group holds. -/
theorem Lawful.bits?_encode (bytes : List UInt8) :
    ∃ z < r.width, r.bits? (r.encode bytes) =
      some ((bytes.flatMap fun b => bitsOf 8 b.toNat) ++ List.replicate z false) := by
  generalize hb : (bytes.flatMap fun b => bitsOf 8 b.toNat) = bs
  obtain ⟨z, hz, he⟩ := flatMap_filled h.pos bs
  refine ⟨z, hz, ?_⟩
  have hnumbers : ∀ gs : List (List Bool), (∀ g ∈ gs, g.length ≤ r.width) →
      (gs.map r.letter).mapM (fun c => r.alphabet.idxOf? c) =
        some (gs.map fun g => ofBits (filled r.width g)) := by
    intro gs hgs
    induction gs with
    | nil => rfl
    | cons g gs ih =>
      rw [List.forall_mem_cons] at hgs
      simp [List.mapM_cons, h.idxOf?_letter hgs.1, ih hgs.2]
  have hbits : (groups r.width bs).flatMap (fun g => bitsOf r.width (ofBits (filled r.width g))) =
      (groups r.width bs).flatMap (filled r.width) := by
    rw [List.flatMap_def, List.flatMap_def]
    congr 1
    refine List.map_congr_left fun g hg => ?_
    have hl := length_filled (length_le_of_mem_groups h.pos hg)
    have hr := bitsOf_ofBits (filled r.width g)
    rwa [hl] at hr
  rw [bits?, encode, hb, hnumbers _ fun g hg => length_le_of_mem_groups h.pos hg, Option.map_some,
    List.flatMap_map, hbits, he]

/-- Reading undoes writing. -/
theorem Lawful.decode?_encode (bytes : List UInt8) : r.decode? (r.encode bytes) = some bytes := by
  obtain ⟨z, hz, he⟩ := h.bits?_encode bytes
  have hle := h.le
  have hlen := length_flatMap_bits bytes
  have hwhole : ((bytes.flatMap fun b => bitsOf 8 b.toNat) ++ List.replicate z false).length / 8 * 8 =
      (bytes.flatMap fun b => bitsOf 8 b.toNat).length := by
    rw [List.length_append, List.length_replicate, hlen]
    omega
  have hread : (bytes.map fun b => bitsOf 8 b.toNat).map (fun g => UInt8.ofNat (ofBits g)) = bytes := by
    rw [List.map_map]
    refine (List.map_congr_left fun b _ => ?_).trans (List.map_id bytes)
    have hb : ofBits (bitsOf 8 b.toNat) = b.toNat := ofBits_bitsOf b.toNat_lt
    rw [Function.comp_apply, hb, UInt8.ofNat_toNat]
    rfl
  rw [decode?, he]
  simp only [hwhole, List.drop_left, List.take_left, List.length_replicate, groups_bytes, hread]
  rw [if_pos]
  simp [hz]

end Radix

end CredentialEngine.Encoding
