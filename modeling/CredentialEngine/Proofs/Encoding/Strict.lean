import CredentialEngine.Proofs.Encoding.Radix

/-!
# Reading accepts only what is written

The letters of a text are determined by the bits that they spell, and the reader refuses filling
that is not zero or holds a whole group. So a text that is read is the one that its bytes are
written as: no padding, no spare letter, no second spelling.
-/
namespace CredentialEngine.Encoding

/-- Bits in whole bytes are the bits of the bytes that they spell. -/
theorem flatMap_bytes (n : Nat) {bs : List Bool} (h : bs.length = 8 * n) :
    ((groups 8 bs).map fun g => UInt8.ofNat (ofBits g)).flatMap (fun b => bitsOf 8 b.toNat) = bs := by
  induction n generalizing bs with
  | zero =>
    have hnil : bs = [] := List.length_eq_zero_iff.mp (by omega)
    rw [hnil, groups_nil]
    rfl
  | succ n ih =>
    have htake : (bs.take 8).length = 8 := by
      rw [List.length_take]
      omega
    have hne : bs ≠ [] := List.ne_nil_of_length_pos (by omega)
    have hlt := ofBits_lt (bs.take 8)
    have hbits := bitsOf_ofBits (bs.take 8)
    rw [htake] at hlt hbits
    have hfirst : bitsOf 8 (UInt8.ofNat (ofBits (bs.take 8))).toNat = bs.take 8 := by
      rw [UInt8.toNat_ofNat', Nat.mod_eq_of_lt hlt, hbits]
    have hdrop : (bs.drop 8).length = 8 * n := by
      rw [List.length_drop]
      omega
    rw [groups_step (by decide) hne, List.map_cons, List.flatMap_cons, hfirst, ih hdrop,
      List.take_append_drop]

/-- Numbers of a width are determined by the bits that they spell in a row. -/
theorem flatMap_bitsOf_inj {width : Nat} {ns ms : List Nat} (hns : ∀ n ∈ ns, n < 2 ^ width)
    (hms : ∀ m ∈ ms, m < 2 ^ width) (hlength : ns.length = ms.length)
    (h : ns.flatMap (bitsOf width) = ms.flatMap (bitsOf width)) : ns = ms := by
  induction ns generalizing ms with
  | nil => exact (List.length_eq_zero_iff.mp hlength.symm).symm
  | cons n ns ih =>
    cases ms with
    | nil => exact absurd hlength (by simp)
    | cons m ms =>
      rw [List.forall_mem_cons] at hns hms
      rw [List.flatMap_cons, List.flatMap_cons] at h
      obtain ⟨hfirst, hrest⟩ := List.append_inj h (by rw [length_bitsOf, length_bitsOf])
      have hnm := congrArg ofBits hfirst
      rw [ofBits_bitsOf hns.1, ofBits_bitsOf hms.1] at hnm
      rw [hnm, ih hns.2 hms.2 (Nat.succ.inj hlength) hrest]

namespace Radix

variable {r : Radix}

/-- Letters are found again by their values. -/
theorem letters_of_values {cs : List Char} {ns : List Nat}
    (h : cs.mapM (fun c => r.alphabet.idxOf? c) = some ns) :
    cs = ns.map (fun n => r.alphabet.getD n 'A') ∧ ∀ n ∈ ns, n < r.alphabet.length := by
  induction cs generalizing ns with
  | nil =>
    obtain rfl := Option.some.inj h
    exact ⟨rfl, nofun⟩
  | cons c cs ih =>
    rw [List.mapM_cons] at h
    obtain ⟨n, hn, h⟩ := Option.bind_eq_some_iff.mp h
    obtain ⟨ns', hns', h⟩ := Option.bind_eq_some_iff.mp h
    obtain rfl := Option.some.inj h
    obtain ⟨hlt, hc, -⟩ := List.idxOf?_eq_some_iff.mp hn
    obtain ⟨hcs, hall⟩ := ih hns'
    refine ⟨?_, List.forall_mem_cons.mpr ⟨hlt, hall⟩⟩
    rw [List.map_cons, ← hcs, List.getD_eq_getElem _ _ hlt, hc]

/-- The bits that a text spells, one group for each letter. -/
theorem length_of_bits? {cs : List Char} {bs : List Bool} (hbits : r.bits? cs = some bs) :
    bs.length = r.width * cs.length := by
  obtain ⟨ns, hns, rfl⟩ := Option.map_eq_some_iff.mp hbits
  obtain ⟨hcs, -⟩ := letters_of_values hns
  rw [hcs, List.length_map]
  clear hcs hns hbits
  induction ns with
  | nil => rfl
  | cons n ns ih =>
    rw [List.flatMap_cons, List.length_append, length_bitsOf, ih, List.length_cons, Nat.mul_succ,
      Nat.add_comm]

variable (h : r.Lawful)

include h

/-- No two texts spell the same bits. -/
theorem Lawful.bits?_inj {cs ds : List Char} {bs : List Bool} (hcs : r.bits? cs = some bs)
    (hds : r.bits? ds = some bs) : cs = ds := by
  have hlength : cs.length = ds.length :=
    Nat.eq_of_mul_eq_mul_left h.pos ((length_of_bits? hcs).symm.trans (length_of_bits? hds))
  obtain ⟨ns, hns, hbits⟩ := Option.map_eq_some_iff.mp hcs
  obtain ⟨ms, hms, hbits'⟩ := Option.map_eq_some_iff.mp hds
  obtain ⟨hcs, hlt⟩ := letters_of_values hns
  obtain ⟨hds, hlt'⟩ := letters_of_values hms
  rw [h.letters] at hlt hlt'
  rw [hcs, hds, List.length_map, List.length_map] at hlength
  rw [hcs, hds, flatMap_bitsOf_inj hlt hlt' hlength (hbits.trans hbits'.symm)]

/-- A text that is read is what its bytes are written as. -/
theorem Lawful.eq_encode_of_decode? {cs : List Char} {bytes : List UInt8}
    (hread : r.decode? cs = some bytes) : cs = r.encode bytes := by
  rw [decode?] at hread
  cases hcs : r.bits? cs with
  | none =>
    rw [hcs] at hread
    contradiction
  | some bs =>
    simp only [hcs, Option.ite_none_right_eq_some, Bool.and_eq_true, decide_eq_true_eq,
      Option.some.injEq] at hread
    obtain ⟨⟨hfew, hzero⟩, rfl⟩ := hread
    generalize hwhole : bs.length / 8 * 8 = whole at *
    have htake : (bs.take whole).length = 8 * (bs.length / 8) := by
      rw [List.length_take]
      omega
    have hbytes := flatMap_bytes (bs.length / 8) htake
    -- the filling is as long as the one that writing adds, since both make up whole groups
    obtain ⟨z, hz, hwritten⟩ := h.bits?_encode
      ((groups 8 (bs.take whole)).map fun g => UInt8.ofNat (ofBits g))
    rw [hbytes] at hwritten
    have hsplit : bs = bs.take whole ++ List.replicate (bs.drop whole).length false := by
      have hfilling : bs.drop whole = List.replicate (bs.drop whole).length false :=
        List.eq_replicate_of_mem fun b hb => by simpa using List.all_eq_true.mp hzero b hb
      rw [← hfilling, List.take_append_drop]
    have hread := length_of_bits? hcs
    have hwrite := length_of_bits? hwritten
    rw [hsplit, List.length_append, List.length_replicate] at hread
    rw [List.length_append, List.length_replicate] at hwrite
    have hsame : (bs.drop whole).length = z := by
      have hsum : r.width * (r.encode ((groups 8 (bs.take whole)).map
          fun g => UInt8.ofNat (ofBits g))).length + (bs.drop whole).length =
          r.width * cs.length + z := by
        omega
      have hmod := congrArg (· % r.width) hsum
      simp only [Nat.mul_add_mod, Nat.mod_eq_of_lt hfew, Nat.mod_eq_of_lt hz] at hmod
      exact hmod
    rw [hsame] at hsplit
    rw [← hsplit] at hwritten
    exact h.bits?_inj hcs hwritten

end Radix

end CredentialEngine.Encoding
