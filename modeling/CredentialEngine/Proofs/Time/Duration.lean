import CredentialEngine.Proofs.Time.Duration.Parts

/-!
# Durations that are read back

A duration is written as one part. It is read back as it was exactly if one part can contribute it:
binary64 holds its nanoseconds, as it does all below `2 ^ 53`, or they are the most that a part can
contribute. The sum of several parts may lie between two such durations.
-/
namespace CredentialEngine.Duration

open Text Decimal

/-- A duration of so few nanoseconds that binary64 holds every one of them. -/
def IsExact (d : Duration) : Prop :=
  d.nanos < 2 ^ 53

instance : DecidablePred IsExact := fun _ => inferInstanceAs (Decidable (_ < _))

/-- A duration that one part can contribute. -/
structure IsSettled (d : Duration) : Prop where
  fits : d.nanos ≤ maxPart
  held : IsSignificant d.nanos ∨ d.nanos = maxPart

theorem IsExact.isSettled {d : Duration} (h : d.IsExact) : d.IsSettled where
  fits := Nat.le_trans h.le (by decide)
  held := .inl (.of_lt h)

theorem Part.isSettled (p : Part) : IsSettled ⟨p.nanos⟩ where
  fits := p.nanos_le
  held := by
    change IsSignificant p.nanos ∨ p.nanos = maxPart
    rw [Part.nanos]
    cases Binary64.round p.digits (Nat.pow 10 p.places) with
    | infinite => exact .inr rfl
    | finite m e => exact (Binary64.toNatClamped_round (Nat.two_pow_pos _) maxPart).symm

/-! ## Written durations -/

theorem point_notMem_toDigits (n : Nat) : '.' ∉ Nat.toDigits 10 n :=
  fun h => absurd (isDigit_of_mem_toDigits h) (by decide)

theorem isNumber_toDigits (n : Nat) : IsNumber (Nat.toDigits 10 n) where
  chars _ hc := .inl (isDigit_of_mem_toDigits hc)
  digit := by
    obtain ⟨c, cs, hcons⟩ := List.exists_cons_of_ne_nil (Nat.toDigits_ne_nil (n := n) (b := 10))
    have hc : c ∈ Nat.toDigits 10 n := hcons ▸ List.mem_cons_self
    exact ⟨c, hc, isDigit_of_mem_toDigits hc⟩
  point := Nat.le_trans (List.count_eq_zero.mpr (point_notMem_toDigits n)).le (Nat.zero_le 1)

/-- A whole number with a unit. -/
def Part.ofNat (n : Nat) {unit : String} {k : Nat} (hunit : (unit, k) ∈ units) : Part where
  number := Nat.toDigits 10 n
  unit := unit
  unitNanos := k
  isNumber := isNumber_toDigits n
  isUnit := hunit

theorem Part.value_ofNat (n : Nat) {unit : String} {k : Nat} (hunit : (unit, k) ∈ units) :
    (Part.ofNat n hunit).value = n := by
  have hdigits : (Part.ofNat n hunit).digits = n := by
    have hall := List.filter_eq_self.mpr fun c => isDigit_of_mem_toDigits (n := n) (c := c)
    rw [Part.digits, Part.ofNat, hall, digitsVal_toDigits]
  have hplaces : (Part.ofNat n hunit).places = 0 := by
    have hnone : (Nat.toDigits 10 n).dropWhile (· ≠ '.') = [] :=
      List.dropWhile_eq_nil_iff.mpr fun c hc =>
        decide_eq_true fun he => point_notMem_toDigits n (he ▸ hc)
    rw [Part.places, Part.ofNat, hnone]
    rfl
  rw [Part.value, hdigits, hplaces, pow_zero, div_one]

/-- A written number with a unit is read as that part. -/
theorem parse_natText (n : Nat) {unit : String} {k : Nat} (hunit : (unit, k) ∈ units) :
    parse (natText n ++ unit) = .ok ⟨(Part.ofNat n hunit).nanos⟩ := by
  have hchars : (natText n ++ unit).toList = (Part.ofNat n hunit).chars := by
    rw [String.toList_append, toList_natText]
    rfl
  have hblank : ∀ c ∈ (Part.ofNat n hunit).chars, isBlank c = false := by
    intro c hc
    rcases List.mem_append.mp hc with hc | hc
    · exact isBlank_of_isDigit (isDigit_of_mem_toDigits hc)
    · exact ((Part.ofNat n hunit).unit_letters.2.2 c hc).2
  have hwritten : Written [Part.ofNat n hunit] (trim (natText n ++ unit)).toList := by
    rw [trim, String.toList_ofList, hchars, trimChars_of_unblank hblank]
    exact ⟨(List.flatMap_singleton ..).symm, nofun⟩
  rw [parse_of_written (List.cons_ne_nil _ _) hwritten, List.map_singleton, List.sum_singleton]

/-- A duration is written as a part that says just as many nanoseconds. -/
theorem exists_part_format (d : Duration) :
    ∃ (p : Part) (n : Nat), p.value = n ∧ n * p.unitNanos = d.nanos ∧
      parse d.format = .ok ⟨p.nanos⟩ := by
  obtain ⟨n⟩ := d
  have hwritten : ∀ (k : Nat) (unit : String), (unit, k) ∈ units → n % k = 0 →
      ∃ (p : Part) (q : Nat), p.value = q ∧ q * p.unitNanos = n ∧
        parse (natText (n / k) ++ unit) = .ok ⟨p.nanos⟩ := fun k unit hunit hdvd =>
    ⟨Part.ofNat _ hunit, _, Part.value_ofNat _ hunit,
      Nat.div_mul_cancel (Nat.dvd_of_mod_eq_zero hdvd), parse_natText _ hunit⟩
  unfold format
  dsimp only
  split
  · rename_i hzero
    subst hzero
    exact hwritten 1000000000 "s" (by decide) rfl
  split
  · exact hwritten _ "s" (by decide) (by assumption)
  split
  · exact hwritten _ "ms" (by decide) (by assumption)
  split
  · exact hwritten _ "us" (by decide) (by assumption)
  · have hone := hwritten 1 "ns" (by decide) (Nat.mod_one n)
    rwa [Nat.div_one] at hone

/-! ## Reading back -/

/-- A duration is read back from its text exactly if one part can contribute it. -/
theorem parse_format_eq_iff {d : Duration} : parse d.format = .ok d ↔ d.IsSettled := by
  obtain ⟨p, n, hvalue, hnanos, hparse⟩ := exists_part_format d
  constructor
  · intro h
    obtain rfl := Except.ok.inj (hparse.symm.trans h)
    exact p.isSettled
  · intro h
    rcases h.held with hsig | hmax
    · have hwhole := p.nanos_of_whole hvalue (hnanos ▸ hsig) (hnanos ▸ h.fits)
      rw [hparse, hwhole, hnanos]
    · obtain ⟨m⟩ := d
      obtain rfl : m = maxPart := hmax
      decide +kernel

/-- An exact duration is read back from its text. -/
theorem parse_format {d : Duration} (h : d.IsExact) : parse d.format = .ok d :=
  parse_format_eq_iff.mpr h.isSettled

example : format ⟨1500000000⟩ = "1500ms" := by decide

end CredentialEngine.Duration
