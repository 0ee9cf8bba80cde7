import CredentialEngine.Text.Blank
import CredentialEngine.Text.Numeral
import Mathlib.Data.List.Induction

/-!
# Written numbers

The digits of a natural number have its value, and they start with a zero only for zero itself.
Digits of which this is true are those of their value. A numeral is read as digits behind a sign.
-/
namespace CredentialEngine.Text

theorem toNat_of_isDigit {c : Char} (h : c.isDigit = true) : 48 ≤ c.toNat ∧ c.toNat ≤ 57 := by
  simp only [Char.isDigit, Bool.and_eq_true, decide_eq_true_eq] at h
  exact h

theorem isBlank_of_isDigit {c : Char} (h : c.isDigit = true) : isBlank c = false := by
  obtain ⟨hlo, hhi⟩ := toNat_of_isDigit h
  simp only [isBlank, Bool.or_eq_false_iff, Bool.and_eq_false_iff, decide_eq_false_iff_not,
    beq_eq_false_iff_ne]
  omega

theorem isDigit_of_mem_toDigits {n : Nat} {c : Char} (h : c ∈ Nat.toDigits 10 n) :
    c.isDigit = true :=
  Nat.isDigit_of_mem_toDigits (by decide) (by decide) h

theorem digitsVal_eq (acc : Nat) (cs : List Char) :
    digitsVal acc cs = Nat.ofDigitChars 10 cs acc := by
  induction cs generalizing acc with
  | nil => rfl
  | cons c cs ih =>
    rw [Nat.ofDigitChars_cons, ← ih, Nat.mul_comm]
    rfl

theorem digitsVal_toDigits (n : Nat) : digitsVal 0 (Nat.toDigits 10 n) = n := by
  rw [digitsVal_eq, Nat.ofDigitChars_ten_toDigits]

theorem digitChar_ne_zero {d : Nat} (hd : d < 10) (h0 : d ≠ 0) : Nat.digitChar d ≠ '0' := by
  intro h
  have hv := Nat.toNat_digitChar_sub_48_of_lt_ten hd
  rw [h] at hv
  exact h0 hv.symm

/-- A positive number does not start with a zero. -/
theorem head_toDigits_ne_zero {n : Nat} (h : n ≠ 0) :
    ∃ c cs, Nat.toDigits 10 n = c :: cs ∧ c ≠ '0' := by
  induction n using Nat.strongRecOn with
  | ind n ih =>
    by_cases hlt : n < 10
    · refine ⟨Nat.digitChar n, [], Nat.toDigits_of_lt_base hlt, digitChar_ne_zero hlt h⟩
    · have hq : n / 10 ≠ 0 := by omega
      obtain ⟨c, cs, he, hc⟩ := ih (n / 10) (by omega) hq
      refine ⟨c, cs ++ [Nat.digitChar (n % 10)], ?_, hc⟩
      rw [Nat.toDigits_of_base_le (by decide) (by omega), he]
      rfl

theorem digitChar_digitVal {c : Char} (h : c.isDigit = true) : Nat.digitChar (digitVal c) = c := by
  obtain ⟨hlo, hhi⟩ := toNat_of_isDigit h
  apply Char.toNat_inj.mp
  rw [Nat.toNat_digitChar_of_lt_ten (by change c.toNat - 48 < 10; omega)]
  change 48 + (c.toNat - 48) = c.toNat
  omega

/-- Digits without a needless zero in front are those that are written for their value. -/
theorem toDigits_digitsVal {cs : List Char} (hdigits : ∀ c ∈ cs, c.isDigit = true) (hne : cs ≠ [])
    (hzero : cs.head? = some '0' → cs.length ≤ 1) : Nat.toDigits 10 (digitsVal 0 cs) = cs := by
  induction cs using List.reverseRecOn with
  | nil => exact absurd rfl hne
  | append_singleton ds c ih =>
    have hc : c.isDigit = true := hdigits c (by simp)
    have hval : digitsVal 0 (ds ++ [c]) = digitsVal 0 ds * 10 + digitVal c := by
      rw [digitsVal, digitsVal, List.foldl_append, List.foldl_cons, List.foldl_nil]
    have hlt : digitVal c < 10 := by
      have h := toNat_of_isDigit hc
      change c.toNat - 48 < 10
      omega
    rw [hval]
    cases ds with
    | nil =>
      rw [digitsVal, List.foldl_nil, Nat.zero_mul, Nat.zero_add, Nat.toDigits_of_lt_base hlt,
        digitChar_digitVal hc, List.nil_append]
    | cons d ds =>
      have hhead : (d :: ds).head? ≠ some '0' := fun h => by
        have := hzero h
        simp at this
      have hds := ih (fun e he => hdigits e (List.mem_append_left _ he)) (List.cons_ne_nil _ _)
        fun h => absurd h hhead
      have hpos : digitsVal 0 (d :: ds) ≠ 0 := fun h0 => by
        rw [h0, Nat.toDigits_zero] at hds
        exact hhead (by rw [← hds]; rfl)
      rw [Nat.toDigits_of_base_le (by decide) (by omega),
        show (digitsVal 0 (d :: ds) * 10 + digitVal c) / 10 = digitsVal 0 (d :: ds) by omega,
        show (digitsVal 0 (d :: ds) * 10 + digitVal c) % 10 = digitVal c by omega, hds,
        digitChar_digitVal hc]

theorem toList_natText (n : Nat) : (natText n).toList = Nat.toDigits 10 n := by
  rw [natText, String.toList_ofList]

theorem toList_intText_negSucc (n : Nat) :
    (intText (.negSucc n)).toList = '-' :: Nat.toDigits 10 (n + 1) := by
  rw [intText, String.toList_append, toList_natText]
  rfl

/-! ## Numerals -/

theorem natOfDigits?_eq_some {cs : List Char} {n : Nat} :
    natOfDigits? cs = some n ↔ cs ≠ [] ∧ (∀ c ∈ cs, c.isDigit = true) ∧ digitsVal 0 cs = n := by
  rw [natOfDigits?]
  split
  · rename_i h
    simp only [Bool.or_eq_true, List.isEmpty_iff, Bool.not_eq_true', List.all_eq_false] at h
    refine ⟨nofun, fun hnumeral => ?_⟩
    rcases h with h | ⟨c, hc, hdigit⟩
    · exact absurd h hnumeral.1
    · exact absurd (hnumeral.2.1 c hc) hdigit
  · rename_i h
    simp only [Bool.or_eq_true, List.isEmpty_iff, Bool.not_eq_true', Bool.not_eq_false, not_or,
      List.all_eq_true] at h
    exact ⟨fun he => ⟨h.1, h.2, Option.some.inj he⟩, fun he => congrArg some he.2.2⟩

/-- A numeral is digits, with a plus before them or not. -/
theorem natOfSigned?_eq_some {cs : List Char} {n : Nat} :
    natOfSigned? cs = some n ↔ ∃ sign digits, (sign = [] ∨ sign = ['+']) ∧ cs = sign ++ digits ∧
      digits ≠ [] ∧ (∀ c ∈ digits, c.isDigit = true) ∧ digitsVal 0 digits = n := by
  constructor
  · intro h
    unfold natOfSigned? at h
    split at h
    · exact ⟨['+'], _, .inr rfl, rfl, natOfDigits?_eq_some.mp h⟩
    · exact ⟨[], cs, .inl rfl, rfl, natOfDigits?_eq_some.mp h⟩
  · rintro ⟨sign, digits, hsign, rfl, hnumeral⟩
    have hread := natOfDigits?_eq_some.mpr hnumeral
    rcases hsign with rfl | rfl
    · obtain ⟨d, ds, rfl⟩ := List.exists_cons_of_ne_nil hnumeral.1
      have hplus : d ≠ '+' := by
        rintro rfl
        exact absurd (hnumeral.2.1 '+' List.mem_cons_self) (by decide)
      have hsame : natOfSigned? (d :: ds) = natOfDigits? (d :: ds) := by
        unfold natOfSigned?
        split
        · rename_i heq
          exact absurd (List.cons.inj heq).1 hplus
        · rfl
      exact hsame.trans hread
    · exact hread

/-- A numeral for a whole number: digits, with a plus or a minus before them or not. -/
inductive IsNumeral : List Char → Int → Prop
  | plain {ds : List Char} (hne : ds ≠ []) (hdigits : ∀ c ∈ ds, c.isDigit = true) :
    IsNumeral ds (digitsVal 0 ds)
  | plus {ds : List Char} (hne : ds ≠ []) (hdigits : ∀ c ∈ ds, c.isDigit = true) :
    IsNumeral ('+' :: ds) (digitsVal 0 ds)
  | minus {ds : List Char} (hne : ds ≠ []) (hdigits : ∀ c ∈ ds, c.isDigit = true) :
    IsNumeral ('-' :: ds) (-(digitsVal 0 ds))

/-- A numeral opens with a sign or a digit and ends with a digit. -/
theorem IsNumeral.ends {cs : List Char} {n : Int} (h : IsNumeral cs n) :
    (∃ c ∈ cs.head?, c = '+' ∨ c = '-' ∨ c.isDigit = true) ∧
      ∀ c ∈ cs.getLast?, c.isDigit = true := by
  cases h with
  | @plain ds hne hdigits =>
    obtain ⟨d, ds, rfl⟩ := List.exists_cons_of_ne_nil hne
    exact ⟨⟨d, rfl, .inr (.inr (hdigits d List.mem_cons_self))⟩,
      fun c hc => hdigits c (List.mem_of_mem_getLast? hc)⟩
  | @plus ds hne hdigits =>
    rw [List.getLast?_cons_of_ne_nil hne]
    exact ⟨⟨'+', rfl, .inl rfl⟩, fun c hc => hdigits c (List.mem_of_mem_getLast? hc)⟩
  | @minus ds hne hdigits =>
    rw [List.getLast?_cons_of_ne_nil hne]
    exact ⟨⟨'-', rfl, .inr (.inl rfl)⟩, fun c hc => hdigits c (List.mem_of_mem_getLast? hc)⟩

theorem intOfSigned?_eq_some {cs : List Char} {n : Int} :
    intOfSigned? cs = some n ↔ IsNumeral cs n := by
  constructor
  · intro h
    unfold intOfSigned? at h
    split at h
    all_goals
      obtain ⟨m, hm, rfl⟩ := Option.map_eq_some_iff.mp h
      obtain ⟨hne, hdigits, rfl⟩ := natOfDigits?_eq_some.mp hm
    · exact .plus hne hdigits
    · exact .minus hne hdigits
    · exact .plain hne hdigits
  · intro h
    cases h with
    | @plain ds hne hdigits =>
      have hread := natOfDigits?_eq_some.mpr ⟨hne, hdigits, rfl⟩
      unfold intOfSigned?
      split
      · exact absurd (hdigits '+' List.mem_cons_self) (by decide)
      · exact absurd (hdigits '-' List.mem_cons_self) (by decide)
      · rw [hread]
        rfl
    | @plus ds hne hdigits =>
      rw [intOfSigned?, natOfDigits?_eq_some.mpr ⟨hne, hdigits, rfl⟩]
      rfl
    | @minus ds hne hdigits =>
      rw [intOfSigned?, natOfDigits?_eq_some.mpr ⟨hne, hdigits, rfl⟩]
      rfl

end CredentialEngine.Text
