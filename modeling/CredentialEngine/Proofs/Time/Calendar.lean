import CredentialEngine.Time.Timestamp

/-!
# Dates and days

Every number of days has a date, and the date has that number of days. Years are counted from
March, so that a leap day is the last one of its year: the last year of four has one, the last four
years of a century do not, and the last century of an era of 400 years does.
-/
namespace CredentialEngine.Time

/-- Day `n` of an era is day `k` of the year `y` of the four years `f` of the century `c`. -/
structure EraDay (n c f y k : Int) : Prop where
  century : 0 ≤ c ∧ c ≤ 3
  four : 0 ≤ f ∧ f ≤ 24
  year : 0 ≤ y ∧ y ≤ 3
  day : 0 ≤ k ∧ k ≤ 365
  leap : k = 365 → y = 3 ∧ (f = 24 → c = 3)
  sum : n = 36524 * c + 1461 * f + 365 * y + k

theorem exists_eraDay {n : Int} (h0 : 0 ≤ n) (hn : n < 146097) :
    ∃ century four year day, EraDay n century four year day := by
  -- the division would put the last day of the era in a fifth century, and that of four years in a
  -- fifth year
  obtain ⟨c, hc⟩ : ∃ c, c = min 3 (n / 36524) := ⟨_, rfl⟩
  obtain ⟨r, hr⟩ : ∃ r, r = n - 36524 * c := ⟨_, rfl⟩
  have hc3 : 0 ≤ c ∧ c ≤ 3 := by omega
  have hr0 : 0 ≤ r ∧ r ≤ 36524 ∧ (r = 36524 → c = 3) := by omega
  obtain ⟨f, hf⟩ : ∃ f, f = r / 1461 := ⟨_, rfl⟩
  obtain ⟨s, hs⟩ : ∃ s, s = r - 1461 * f := ⟨_, rfl⟩
  have hf24 : 0 ≤ f ∧ f ≤ 24 := by omega
  have hs0 : 0 ≤ s ∧ s ≤ 1460 := by omega
  obtain ⟨y, hy⟩ : ∃ y, y = min 3 (s / 365) := ⟨_, rfl⟩
  refine ⟨c, f, y, s - 365 * y, hc3, hf24, ?_, ?_, ?_, ?_⟩
  · omega
  · omega
  · intro hday
    have hlast : s = 1460 := by omega
    exact ⟨by omega, fun h24 => hr0.2.2 (by omega)⟩
  · omega

namespace EraDay

variable {n c f y k : Int} (h : EraDay n c f y k)

include h

theorem bounds : 0 ≤ n ∧ n < 146097 := by
  obtain ⟨hc, hf, hy, hk, hleap, hsum⟩ := h
  omega

theorem yearOfEra : (n - n / 1460 + n / 36524 - n / 146096) / 365 = 100 * c + 4 * f + y := by
  obtain ⟨hc, hf, hy, hk, hleap, hsum⟩ := h
  -- only the last day of the era is left over when the era is divided into centuries
  have hlast : n - 36524 * c < 36524 ∨ c = 3 ∧ n = 146096 := by omega
  have hcentury : n / 36524 - n / 146096 = c := by
    rcases hlast with hlt | ⟨rfl, rfl⟩
    · have hera : n / 146096 = 0 := by omega
      have hwhole : n / 36524 = c := by omega
      omega
    · decide
  have hrest : 1460 * (25 * c + f) ≤ n ∧ n < 1460 * (25 * c + f) + 1460 ∧ n / 1460 = 25 * c + f ∨
      n / 1460 = 25 * c + f + 1 ∧ y = 3 ∧ 1 ≤ k := by omega
  omega

theorem dayOfYear {yearOfEra : Int} (hyear : yearOfEra = 100 * c + 4 * f + y) :
    n - (365 * yearOfEra + yearOfEra / 4 - yearOfEra / 100) = k := by
  obtain ⟨hc, hf, hy, hk, hleap, hsum⟩ := h
  have hfour : yearOfEra / 4 = 25 * c + f := by omega
  have hhundred : yearOfEra / 100 = c := by omega
  omega

end EraDay

/-- The date of a day of a year that starts in March. -/
def marchDate (year day : Int) : Int × Nat × Nat :=
  let mp := (5 * day + 2) / 153
  let m := if mp < 10 then mp + 3 else mp - 9
  (year + (if m ≤ 2 then 1 else 0), m.toNat, (day - (153 * mp + 2) / 5 + 1).toNat)

theorem dateOfDays_eq {n c f y k : Int} (h : EraDay n c f y k) (era : Int) :
    dateOfDays (era * 146097 + n - 719468) = marchDate (100 * c + 4 * f + y + era * 400) k := by
  have hb := h.bounds
  have hera : (era * 146097 + n - 719468 + 719468).fdiv 146097 = era := by
    rw [Int.fdiv_eq_ediv_of_nonneg _ (by decide)]
    omega
  have hrest : era * 146097 + n - 719468 + 719468 - era * 146097 = n := by omega
  unfold dateOfDays
  simp only [hera, hrest, h.yearOfEra, h.dayOfYear rfl]
  rfl

/-- Every day is one of an era. -/
theorem exists_era (days : Int) :
    ∃ era n c f y k, EraDay n c f y k ∧ days = era * 146097 + n - 719468 := by
  obtain ⟨c, f, y, k, h⟩ := exists_eraDay (n := (days + 719468) % 146097) (by omega) (by omega)
  exact ⟨(days + 719468) / 146097, _, c, f, y, k, h, by omega⟩

/-- The month and the day of the month, counted from March, of a day of the year. -/
theorem month_bounds {k : Int} (h0 : 0 ≤ k) (hk : k ≤ 365) :
    0 ≤ (5 * k + 2) / 153 ∧ (5 * k + 2) / 153 ≤ 11 ∧
      0 ≤ k - (153 * ((5 * k + 2) / 153) + 2) / 5 ∧
      k - (153 * ((5 * k + 2) / 153) + 2) / 5 ≤ 30 := by
  omega

theorem daysFromDate_marchDate {n c f y k : Int} (h : EraDay n c f y k) (era : Int) :
    let date := marchDate (100 * c + 4 * f + y + era * 400) k
    daysFromDate date.1 date.2.1 date.2.2 = era * 146097 + n - 719468 := by
  have hk := h.day
  have hmonth := month_bounds h.day.1 h.day.2
  obtain ⟨mp, hmp⟩ : ∃ mp, mp = (5 * k + 2) / 153 := ⟨_, rfl⟩
  intro date
  have hdate : date = marchDate (100 * c + 4 * f + y + era * 400) k := rfl
  simp only [marchDate, ← hmp] at hdate hmonth
  have hyear : (if date.2.1 ≤ 2 then date.1 - 1 else date.1) =
      100 * c + 4 * f + y + era * 400 := by
    rw [hdate]
    dsimp only
    split <;> split <;> omega
  have hmarch : (((date.2.1 + 9) % 12 : Nat) : Int) = mp := by
    rw [hdate]
    dsimp only
    split <;> omega
  have hday : (date.2.2 : Int) = k - (153 * mp + 2) / 5 + 1 := by
    rw [hdate]
    dsimp only
    omega
  have hera : (100 * c + 4 * f + y + era * 400).fdiv 400 = era := by
    obtain ⟨hc, hf, hy, -, -, -⟩ := h
    rw [Int.fdiv_eq_ediv_of_nonneg _ (by decide)]
    omega
  have hrest : 100 * c + 4 * f + y + era * 400 - era * 400 = 100 * c + 4 * f + y := by omega
  have hn := h.dayOfYear rfl
  simp only [daysFromDate, hyear, hmarch, hday, hera, hrest]
  omega

/-- The leap day ends a year whose January and February lie in a leap year. -/
theorem EraDay.isLeapYear {n c f y k : Int} (h : EraDay n c f y k) (hk : k = 365) (era : Int) :
    isLeapYear (100 * c + 4 * f + y + era * 400 + 1) = true := by
  obtain ⟨rfl, hlast⟩ := h.leap hk
  have hc := h.century
  have hf := h.four
  have hfour : (100 * c + 4 * f + 3 + era * 400 + 1) % 4 = 0 := by omega
  have hhundred : (100 * c + 4 * f + 3 + era * 400 + 1) % 100 ≠ 0 ∨
      (100 * c + 4 * f + 3 + era * 400 + 1) % 400 = 0 := by omega
  rw [Time.isLeapYear, Bool.and_eq_true, Bool.or_eq_true, decide_eq_true_eq, decide_eq_true_eq,
    decide_eq_true_eq]
  exact ⟨hfour, hhundred⟩

/-- The month and the day of the month are those of a date. -/
structure IsDate (date : Int × Nat × Nat) : Prop where
  month : 1 ≤ date.2.1 ∧ date.2.1 ≤ 12
  day : 1 ≤ date.2.2 ∧ date.2.2 ≤ daysInMonth date.1 date.2.1

theorem daysInMonth_le (y : Int) (m : Nat) : daysInMonth y m ≤ 31 := by
  unfold daysInMonth
  split
  · split <;> decide
  · split <;> decide

theorem le_daysInMonth {y : Int} {m d : Nat} (hlong : d ≤ 31)
    (hshort : m = 4 ∨ m = 6 ∨ m = 9 ∨ m = 11 → d ≤ 30)
    (hfeb : m = 2 → d ≤ 28 ∨ d = 29 ∧ isLeapYear y = true) : d ≤ daysInMonth y m := by
  unfold daysInMonth
  split
  · rename_i hm
    rcases hfeb hm with hd | ⟨rfl, hleap⟩
    · split <;> omega
    · exact Nat.le_of_eq (if_pos hleap).symm
  split
  · exact hshort (by assumption)
  · exact hlong

theorem isDate_marchDate {n c f y k : Int} (h : EraDay n c f y k) (era : Int) :
    IsDate (marchDate (100 * c + 4 * f + y + era * 400) k) := by
  have hk := h.day
  have hmonth := month_bounds h.day.1 h.day.2
  have hleap := fun hk => h.isLeapYear hk era
  generalize 100 * c + 4 * f + y + era * 400 = year at hleap
  obtain ⟨mp, hmp⟩ : ∃ mp, mp = (5 * k + 2) / 153 := ⟨_, rfl⟩
  simp only [marchDate, ← hmp] at hmonth ⊢
  by_cases hyear : mp < 10
  · simp only [if_pos hyear]
    refine ⟨by dsimp only; omega, by dsimp only; omega, ?_⟩
    dsimp only
    exact le_daysInMonth (by omega) (by omega) (by omega)
  · -- January and February belong to the next year
    simp only [if_neg hyear]
    refine ⟨by dsimp only; omega, by dsimp only; omega, ?_⟩
    dsimp only
    rw [if_pos (by omega)]
    refine le_daysInMonth (by omega) (by omega) fun hfeb => ?_
    by_cases hlast : k = 365
    · exact .inr ⟨by omega, hleap hlast⟩
    · exact .inl (by omega)

theorem daysFromDate_dateOfDays (days : Int) :
    daysFromDate (dateOfDays days).1 (dateOfDays days).2.1 (dateOfDays days).2.2 = days := by
  obtain ⟨era, n, c, f, y, k, h, rfl⟩ := exists_era days
  rw [dateOfDays_eq h]
  exact daysFromDate_marchDate h era

theorem isDate_dateOfDays (days : Int) : IsDate (dateOfDays days) := by
  obtain ⟨era, n, c, f, y, k, h, rfl⟩ := exists_era days
  rw [dateOfDays_eq h]
  exact isDate_marchDate h era

/-- The days of the years with four digits are known. -/
theorem isKnownDay_of_year {days : Int} (h0 : 0 ≤ (dateOfDays days).1)
    (h : (dateOfDays days).1 ≤ 9999) : isKnownDay days = true := by
  obtain ⟨era, n, c, f, y, k, hday, rfl⟩ := exists_era days
  rw [dateOfDays_eq hday, marchDate] at h0 h
  dsimp only at h0 h
  obtain ⟨hc, hf, hy, hk, hleap, hsum⟩ := hday
  have hera : -1 ≤ era ∧ era ≤ 24 := by
    split at h0 <;> split at h <;> omega
  have hfirst : daysFromDate minYear 1 1 = -96465292 := by decide
  have hlast : daysFromDate maxYear 12 31 = 95026236 := by decide
  rw [isKnownDay, hfirst, hlast, Bool.and_eq_true, decide_eq_true_eq, decide_eq_true_eq]
  omega

end CredentialEngine.Time
