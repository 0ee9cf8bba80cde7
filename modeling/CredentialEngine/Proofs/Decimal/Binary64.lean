import CredentialEngine.Decimal.Binary64
import Mathlib.Data.Nat.Prime.Basic
import Mathlib.Tactic.Ring

/-!
# Whole numbers in binary64

A whole number with at most 53 significant binary digits is not rounded: such a quotient becomes
itself, its product with a natural number is exact while the product has no more digits, and cutting
off the fraction changes nothing. What a rounded value is cut to has no more digits either.
-/
namespace CredentialEngine.Decimal

/-- The number has at most 53 significant binary digits. -/
def IsSignificant (n : Nat) : Prop :=
  ∃ m e : Nat, m < 2 ^ 53 ∧ n = m * 2 ^ e

theorem IsSignificant.of_lt {n : Nat} (h : n < 2 ^ 53) : IsSignificant n :=
  ⟨n, 0, h, (Nat.mul_one n).symm⟩

theorem IsSignificant.of_le {m : Nat} (h : m ≤ 2 ^ 53) (e : Nat) : IsSignificant (m * 2 ^ e) := by
  rcases Nat.lt_or_eq_of_le h with h | rfl
  · exact ⟨m, e, h, rfl⟩
  · exact ⟨1, 53 + e, by decide, by rw [Nat.one_mul, Nat.pow_add]⟩

theorem IsSignificant.double {n : Nat} (h : IsSignificant n) : IsSignificant (2 * n) := by
  obtain ⟨m, e, hm, rfl⟩ := h
  exact ⟨m, e + 1, hm, by rw [Nat.pow_succ]; ring⟩

/-- The factors of a number have no more digits than it. -/
theorem IsSignificant.of_dvd {n q : Nat} (h : IsSignificant n) (hn : n ≠ 0) (hq : q ∣ n) :
    IsSignificant q := by
  obtain ⟨m, e, hm, rfl⟩ := h
  have hm0 : 0 < m := Nat.pos_of_ne_zero fun h0 => hn (by rw [h0, Nat.zero_mul])
  clear hn
  -- a factor of two is a digit that does not count, and an odd factor divides what is left
  induction e generalizing q with
  | zero => exact .of_lt (Nat.lt_of_le_of_lt (Nat.le_of_dvd hm0 (by simpa using hq)) hm)
  | succ e ih =>
    rw [Nat.pow_succ, ← Nat.mul_assoc] at hq
    rcases Nat.even_or_odd' q with ⟨r, rfl | rfl⟩
    · rw [Nat.mul_comm _ 2, Nat.mul_dvd_mul_iff_left (by decide)] at hq
      exact (ih hq).double
    · exact ih (Nat.Coprime.dvd_of_dvd_mul_right (Odd.coprime_two_right ⟨r, rfl⟩) hq)

/-- A number that has at least 53 digits before the last `k` is zero in those. -/
theorem IsSignificant.pow_dvd {n k : Nat} (h : IsSignificant n) (hle : 2 ^ (k + 52) ≤ n) :
    2 ^ k ∣ n := by
  obtain ⟨m, e, hm, rfl⟩ := h
  have hlt : 2 ^ (k + 52) < 2 ^ (53 + e) := by
    calc 2 ^ (k + 52)
        ≤ m * 2 ^ e := hle
      _ < 2 ^ 53 * 2 ^ e := Nat.mul_lt_mul_of_pos_right hm (Nat.two_pow_pos e)
      _ = 2 ^ (53 + e) := (Nat.pow_add ..).symm
  have hexp := (Nat.pow_lt_pow_iff_right (by decide)).mp hlt
  exact Dvd.dvd.mul_left (Nat.pow_dvd_pow 2 (by omega)) m

/-! ## Division -/

theorem divRoundEven_mul (n : Nat) {den : Nat} (hd : 0 < den) : divRoundEven (n * den) den = n := by
  rw [divRoundEven, Nat.mul_div_cancel n hd, Nat.mul_mod_left]
  exact if_pos hd

theorem divRoundEven_le {num den n : Nat} (h : num < n * den) : divRoundEven num den ≤ n := by
  have hq : num / den < n := Nat.div_lt_of_lt_mul (Nat.mul_comm n den ▸ h)
  unfold divRoundEven
  dsimp only
  split
  · omega
  split <;> omega

/-! ## The leading digit -/

/-- The power of two is no larger than the fraction. -/
def PowLe (num den : Nat) (k : Int) : Prop :=
  den * 2 ^ k.toNat ≤ num * 2 ^ (-k).toNat

variable {num den : Nat}

theorem powLe_add {k : Int} {n : Nat} :
    PowLe num den (k + n) ↔ den * 2 ^ k.toNat * 2 ^ n ≤ num * 2 ^ (-k).toNat := by
  have hsum : (k + n).toNat + (-k).toNat = k.toNat + n + (-(k + n)).toNat := by omega
  have hpow : 2 ^ (k + n).toNat * 2 ^ (-k).toNat = 2 ^ k.toNat * 2 ^ n * 2 ^ (-(k + n)).toNat := by
    rw [← Nat.pow_add, ← Nat.pow_add, ← Nat.pow_add, hsum]
  have hleft : den * 2 ^ (k + n).toNat * 2 ^ (-k).toNat =
      den * 2 ^ k.toNat * 2 ^ n * 2 ^ (-(k + n)).toNat := by
    rw [Nat.mul_assoc, hpow]
    ring
  have hright : num * 2 ^ (-(k + n)).toNat * 2 ^ (-k).toNat =
      num * 2 ^ (-k).toNat * 2 ^ (-(k + n)).toNat := Nat.mul_right_comm ..
  rw [PowLe, ← Nat.mul_le_mul_right_iff (Nat.two_pow_pos (-k).toNat), hleft, hright,
    Nat.mul_le_mul_right_iff (Nat.two_pow_pos (-(k + n)).toNat)]

theorem PowLe.anti {j k : Int} (h : PowLe num den k) (hjk : j ≤ k) : PowLe num den j := by
  obtain ⟨n, rfl⟩ := Int.le.dest hjk
  exact Nat.le_trans (Nat.le_mul_of_pos_right _ (Nat.two_pow_pos n)) (powLe_add.mp h)

theorem powLe_of_lt_log2 (hn : num ≠ 0) {k : Int} (hk : k < Nat.log2 num - Nat.log2 den) :
    PowLe num den k := by
  have hden : den < 2 ^ (Nat.log2 den + 1) := Nat.lt_log2_self
  have hnum : 2 ^ Nat.log2 num ≤ num := Nat.log2_self_le hn
  calc den * 2 ^ k.toNat
      ≤ 2 ^ (Nat.log2 den + 1) * 2 ^ k.toNat := Nat.mul_le_mul_right _ hden.le
    _ = 2 ^ (Nat.log2 den + 1 + k.toNat) := (Nat.pow_add ..).symm
    _ ≤ 2 ^ (Nat.log2 num + (-k).toNat) := Nat.pow_le_pow_right (by decide) (by omega)
    _ = 2 ^ Nat.log2 num * 2 ^ (-k).toNat := Nat.pow_add ..
    _ ≤ num * 2 ^ (-k).toNat := Nat.mul_le_mul_right _ hnum

theorem not_powLe_of_log2_lt (hd : den ≠ 0) {k : Int} (hk : Nat.log2 num - Nat.log2 den < k) :
    ¬ PowLe num den k := by
  have hden : 2 ^ Nat.log2 den ≤ den := Nat.log2_self_le hd
  have hnum : num < 2 ^ (Nat.log2 num + 1) := Nat.lt_log2_self
  refine Nat.not_le.mpr ?_
  calc num * 2 ^ (-k).toNat
      < 2 ^ (Nat.log2 num + 1) * 2 ^ (-k).toNat :=
        Nat.mul_lt_mul_of_pos_right hnum (Nat.two_pow_pos _)
    _ = 2 ^ (Nat.log2 num + 1 + (-k).toNat) := (Nat.pow_add ..).symm
    _ ≤ 2 ^ (Nat.log2 den + k.toNat) := Nat.pow_le_pow_right (by decide) (by omega)
    _ = 2 ^ Nat.log2 den * 2 ^ k.toNat := Nat.pow_add ..
    _ ≤ den * 2 ^ k.toNat := Nat.mul_le_mul_right _ hden

/-- The leading exponent is the largest one whose power of two the fraction reaches. -/
theorem le_leadingExponent_iff (hn : num ≠ 0) (hd : den ≠ 0) {k : Int} :
    k ≤ leadingExponent num den ↔ PowLe num den k := by
  have hbelow {j : Int} : j < Nat.log2 num - Nat.log2 den → PowLe num den j := powLe_of_lt_log2 hn
  have habove {j : Int} : Nat.log2 num - Nat.log2 den < j → ¬ PowLe num den j :=
    not_powLe_of_log2_lt hd
  rw [leadingExponent]
  -- the difference of the digit counts may be one too large, which the comparison then finds
  split
  · rename_i hsmall
    have hno : ¬ PowLe num den (Nat.log2 num - Nat.log2 den) := Nat.not_le.mpr hsmall
    refine ⟨fun h => hbelow (by omega), fun h => ?_⟩
    by_contra hk
    exact hno (h.anti (by omega))
  · rename_i hbig
    have hyes : PowLe num den (Nat.log2 num - Nat.log2 den) := Nat.not_lt.mp hbig
    refine ⟨fun h => hyes.anti h, fun h => ?_⟩
    by_contra hk
    exact habove (by omega) h

namespace Binary64

/-! ## Exact values -/

/-- The value is the whole number `n`. -/
def IsWhole (x : Binary64) (n : Nat) : Prop :=
  ∃ m e, x = .finite m e ∧ m * 2 ^ e.toNat = n * 2 ^ (-e).toNat

/-- The last of 53 digits stands at the exponent, so no digit of a significant number is left below
it. -/
theorem exists_significand {n den : Nat} {e : Int} (h : IsSignificant n) (hn : n ≠ 0) (hd : 0 < den)
    (he : max (-1074) (leadingExponent (n * den) den - 52) = e) :
    ∃ q, n * 2 ^ (-e).toNat = q * 2 ^ e.toNat := by
  rcases Int.le_total e 0 with hsign | hsign
  · rw [Int.toNat_of_nonpos hsign]
    exact ⟨n * 2 ^ (-e).toNat, (Nat.mul_one _).symm⟩
  obtain ⟨k, rfl⟩ := Int.eq_ofNat_of_zero_le hsign
  rcases Nat.eq_zero_or_pos k with rfl | hpos
  · exact ⟨n, rfl⟩
  have hpow : PowLe (n * den) den ((k + 52 : Nat) : Int) :=
    (le_leadingExponent_iff (Nat.mul_ne_zero hn hd.ne') hd.ne').mp (by omega)
  have hle : den * 2 ^ (k + 52) ≤ n * den * 1 := hpow
  rw [Nat.mul_one, Nat.mul_comm den, Nat.mul_le_mul_right_iff hd] at hle
  obtain ⟨q, rfl⟩ := h.pow_dvd hle
  refine ⟨q, ?_⟩
  rw [Int.toNat_of_nonpos (Int.neg_nonpos_of_nonneg hsign), Nat.pow_zero, Nat.mul_one,
    Int.toNat_natCast, Nat.mul_comm]

theorem isWhole_round {n den : Nat} (h : IsSignificant n) (hlt : n < Nat.pow 2 1024)
    (hd : 0 < den) : IsWhole (round (n * den) den) n := by
  rw [round]
  by_cases hn : n = 0
  · subst hn
    exact ⟨0, 0, by simp, rfl⟩
  rw [if_neg (Nat.mul_ne_zero hn hd.ne')]
  obtain ⟨e, he⟩ : ∃ e, max (-1074) (leadingExponent (n * den) den - 52) = e := ⟨_, rfl⟩
  obtain ⟨q, hq⟩ := exists_significand h hn hd he
  have hexact : divRoundEven (n * den * Nat.pow 2 (-e).toNat) (den * Nat.pow 2 e.toNat) = q := by
    have hnum : n * den * 2 ^ (-e).toNat = q * (den * 2 ^ e.toNat) := by
      rw [Nat.mul_right_comm, hq, Nat.mul_right_comm, Nat.mul_assoc]
    exact hnum ▸ divRoundEven_mul q (Nat.mul_pos hd (Nat.two_pow_pos _))
  simp only [he, hexact]
  refine ⟨q, e, if_neg ?_, hq.symm⟩
  rintro ⟨hbig, hsign⟩
  have hsame : q * Nat.pow 2 e.toNat = n := by
    change q * 2 ^ e.toNat = n
    rw [← hq, Int.toNat_of_nonpos (Int.neg_nonpos_of_nonneg hsign), Nat.pow_zero, Nat.mul_one]
  exact Nat.not_le.mpr hlt (hsame ▸ hbig)

theorem IsWhole.scale {x : Binary64} {n k : Nat} (h : IsWhole x n) (hsig : IsSignificant (n * k))
    (hlt : n * k < Nat.pow 2 1024) : IsWhole (x.scale k) (n * k) := by
  obtain ⟨m, e, rfl, hvalue⟩ := h
  have hsame : m * k * Nat.pow 2 e.toNat = n * k * 2 ^ (-e).toNat := by
    change m * k * 2 ^ e.toNat = _
    rw [Nat.mul_right_comm, hvalue, Nat.mul_right_comm]
  rw [Binary64.scale, hsame]
  exact isWhole_round hsig hlt (Nat.two_pow_pos _)

theorem IsWhole.toNatClamped {x : Binary64} {n limit : Nat} (h : IsWhole x n) (hle : n ≤ limit) :
    x.toNatClamped limit = n := by
  obtain ⟨m, e, rfl, hvalue⟩ := h
  have hquot : m * Nat.pow 2 e.toNat / Nat.pow 2 (-e).toNat = n := by
    change m * 2 ^ e.toNat / 2 ^ (-e).toNat = n
    rw [hvalue, Nat.mul_div_cancel _ (Nat.two_pow_pos _)]
  rw [Binary64.toNatClamped, hquot]
  exact Nat.min_eq_right hle

/-! ## Rounded values -/

theorem significand_le {m : Nat} {e : Int} (hd : 0 < den) (h : round num den = .finite m e) :
    m ≤ 2 ^ 53 := by
  rw [round] at h
  split at h
  · obtain ⟨rfl, -⟩ := Binary64.finite.inj h
    exact Nat.zero_le _
  · rename_i hn
    dsimp only at h
    split at h
    · contradiction
    · obtain ⟨rfl, he⟩ := Binary64.finite.inj h
      rw [he]
      refine divRoundEven_le ?_
      have habove : ¬ PowLe num den (e + (53 : Nat)) :=
        mt (le_leadingExponent_iff hn hd.ne').mpr (by omega)
      rw [powLe_add, Nat.not_le] at habove
      change num * 2 ^ (-e).toNat < 2 ^ 53 * (den * 2 ^ e.toNat)
      rwa [Nat.mul_comm (2 ^ 53)]

/-- A rounded value is cut to the limit or to a whole number of at most 53 digits. -/
theorem toNatClamped_round (hd : 0 < den) (limit : Nat) :
    (round num den).toNatClamped limit = limit ∨
      IsSignificant ((round num den).toNatClamped limit) := by
  cases h : round num den with
  | infinite => exact .inl rfl
  | finite m e =>
    have hm := significand_le hd h
    rw [Binary64.toNatClamped]
    change min limit (m * 2 ^ e.toNat / 2 ^ (-e).toNat) = limit ∨
      IsSignificant (min limit (m * 2 ^ e.toNat / 2 ^ (-e).toNat))
    have hwhole : IsSignificant (m * 2 ^ e.toNat / 2 ^ (-e).toNat) := by
      rcases Int.le_total 0 e with hsign | hsign
      · rw [show (-e).toNat = 0 by omega, Nat.pow_zero, Nat.div_one]
        exact .of_le hm _
      · rw [show e.toNat = 0 by omega, Nat.pow_zero, Nat.mul_one]
        have hq := IsSignificant.of_le (Nat.le_trans (Nat.div_le_self m (2 ^ (-e).toNat)) hm) 0
        rwa [Nat.pow_zero, Nat.mul_one] at hq
    rcases Nat.le_total limit (m * 2 ^ e.toNat / 2 ^ (-e).toNat) with hle | hle
    · exact .inl (Nat.min_eq_left hle)
    · rw [Nat.min_eq_right hle]
      exact .inr hwhole

end Binary64

end CredentialEngine.Decimal
