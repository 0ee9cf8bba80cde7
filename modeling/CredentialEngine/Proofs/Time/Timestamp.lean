import CredentialEngine.Proofs.Text.Digits
import CredentialEngine.Proofs.Text.Splitting
import CredentialEngine.Proofs.Time.Calendar
import Mathlib.Algebra.Group.Nat.Defs
import Mathlib.Data.List.TakeWhile

/-!
# Points in time that are read back

Every field is written with a fixed number of digits, so that the reader takes it off whatever
follows. A point in time of a year with four digits is read back from its text, a leap second
included.
-/
namespace CredentialEngine.Time

open Text

/-! ## Fields -/

theorem toList_padded (width n : Nat) :
    (Timestamp.padded width n).toList =
      List.replicate (width - (Nat.toDigits 10 n).length) '0' ++ Nat.toDigits 10 n := by
  rw [Timestamp.padded, String.toList_ofList]

theorem length_padded {width n : Nat} (hwidth : 0 < width) (hn : n < 10 ^ width) :
    (Timestamp.padded width n).toList.length = width := by
  have hdigits := (Nat.length_toDigits_le_iff (b := 10) (by decide) hwidth).mpr hn
  rw [toList_padded, List.length_append, List.length_replicate]
  omega

theorem isDigit_of_mem_padded (width n : Nat) :
    ∀ c ∈ (Timestamp.padded width n).toList, c.isDigit = true := by
  intro c hc
  rw [toList_padded] at hc
  rcases List.mem_append.mp hc with hc | hc
  · obtain ⟨-, rfl⟩ := List.mem_replicate.mp hc
    decide
  · exact isDigit_of_mem_toDigits hc

theorem digitsVal_zeros (k : Nat) (cs : List Char) :
    digitsVal 0 (List.replicate k '0' ++ cs) = digitsVal 0 cs := by
  induction k with
  | zero => rfl
  | succ k ih => exact ih

theorem digitsVal_padded (width n : Nat) : digitsVal 0 (Timestamp.padded width n).toList = n := by
  rw [toList_padded, digitsVal_zeros, digitsVal_toDigits]

/-- A padded number starts with a digit. -/
theorem padded_cons (width n : Nat) : ∃ c cs, (Timestamp.padded width n).toList = c :: cs ∧
    c.isDigit = true := by
  cases h : (Timestamp.padded width n).toList with
  | nil =>
    rw [toList_padded, List.append_eq_nil_iff] at h
    exact absurd h.2 Nat.toDigits_ne_nil
  | cons c cs => exact ⟨c, cs, rfl, isDigit_of_mem_padded width n c (h ▸ List.mem_cons_self)⟩

theorem isEmpty_padded (width n : Nat) : (Timestamp.padded width n).toList.isEmpty = false := by
  obtain ⟨c, cs, hcons, -⟩ := padded_cons width n
  rw [hcons]
  rfl

theorem dropWhile_padded (width n : Nat) (r : List Char) :
    ((Timestamp.padded width n).toList ++ r).dropWhile isBlank =
      (Timestamp.padded width n).toList ++ r := by
  obtain ⟨c, cs, hcons, hc⟩ := padded_cons width n
  rw [hcons, List.cons_append, List.dropWhile_cons, isBlank_of_isDigit hc]
  rfl

theorem digitField?_padded {width n : Nat} (hwidth : 0 < width) (hn : n < 10 ^ width)
    (r : List Char) :
    digitField? width ((Timestamp.padded width n).toList ++ r) = some (n, r) := by
  have hlength := length_padded hwidth hn
  have htake : ((Timestamp.padded width n).toList ++ r).take width =
      (Timestamp.padded width n).toList := List.take_left' hlength
  have hrun := List.takeWhile_eq_self_iff.mpr (isDigit_of_mem_padded width n)
  rw [digitField?, dropWhile_padded, htake, hrun, isEmpty_padded, digitsVal_padded, hlength,
    List.drop_left' hlength]
  rfl

/-- The fields other than the year have two digits. -/
theorem boundedField?_padded {low high n : Nat} (hlow : low ≤ n) (hhigh : n ≤ high)
    (hn : high < 10 ^ 2) (r : List Char) :
    boundedField? 2 low high ((Timestamp.padded 2 n).toList ++ r) = some (n, r) := by
  rw [boundedField?, digitField?_padded (by decide) (Nat.lt_of_le_of_lt hhigh hn)]
  exact if_pos ⟨hlow, hhigh⟩

theorem spacedMark?_cons {c : Char} (hc : isBlank c = false) (r : List Char) :
    spacedMark? c (c :: r) = some r := by
  rw [spacedMark?, List.dropWhile_cons, hc]
  exact if_pos rfl

theorem year?_padded {n : Nat} (hn : n ≤ 9999) (r : List Char) :
    year? ((Timestamp.padded 4 n).toList ++ r) = some ((n : Int), r) := by
  have hfield : digitField? 4 ((Timestamp.padded 4 n).toList ++ r) = some (n, r) :=
    digitField?_padded (by decide) (by omega) r
  obtain ⟨c, cs, hcons, hc⟩ := padded_cons 4 n
  rw [year?, dropWhile_padded]
  rw [hcons, List.cons_append] at hfield ⊢
  -- a digit is no sign
  split
  · rename_i heq
    exact absurd ((List.cons.inj heq).1 ▸ hc) (by decide)
  · rename_i heq
    exact absurd ((List.cons.inj heq).1 ▸ hc) (by decide)
  · rw [hfield]
    rfl

/-- Fraction digits count from the first, up to the ninth. -/
theorem fraction?_padded {width n : Nat} (hwidth : 0 < width) (hnine : width ≤ 9)
    (hn : n < 10 ^ width) {r : List Char} (hr : ∀ c ∈ r.head?, c.isDigit = false) :
    fraction? ('.' :: ((Timestamp.padded width n).toList ++ r)) =
      some (n * 10 ^ (9 - width), r) := by
  have hlength := length_padded hwidth hn
  have hrun := takeWhile_run (isDigit_of_mem_padded width n) hr
  simp only [fraction?, hrun, List.take_of_length_le (Nat.le_trans (Nat.le_of_eq hlength) hnine),
    isEmpty_padded, hlength, digitsVal_padded, List.drop_left' hlength]
  rfl

theorem fraction?_fractionText {nanos : Nat} (h : nanos < 1000000000) (r : List Char) :
    fraction? ((Timestamp.fractionText nanos).toList ++ 'Z' :: r) = some (nanos, 'Z' :: r) := by
  have hend : ∀ c ∈ ('Z' :: r).head?, c.isDigit = false := by
    rintro c hc
    obtain rfl := Option.some.inj hc
    decide
  have hdotted : ∀ {width n : Nat}, 0 < width → width ≤ 9 → n < 10 ^ width →
      n * 10 ^ (9 - width) = nanos →
      fraction? (("." ++ Timestamp.padded width n).toList ++ 'Z' :: r) =
        some (nanos, 'Z' :: r) := by
    rintro width n hwidth hnine hn rfl
    rw [String.toList_append]
    exact fraction?_padded hwidth hnine hn hend
  unfold Timestamp.fractionText
  split
  · rename_i hzero
    subst hzero
    rfl
  split
  · exact hdotted (by decide) (by decide) (by omega) (by omega)
  split
  · exact hdotted (by decide) (by decide) (by omega) (by omega)
  · exact hdotted (by decide) (by decide) (by omega) (by omega)

/-! ## Points in time -/

/-- Reading goes on with the field that was read. -/
theorem bind_of_eq_some {α β : Type} {o : Option α} {a : α} (h : o = some a) (k : α → Option β) :
    (o >>= k) = k a := by
  rw [h]
  rfl

namespace Timestamp

/-- The year in UTC. -/
def year (t : Timestamp) : Int :=
  (dateOfDays (t.seconds.fdiv 86400)).1

/-- A leap second ends a minute. -/
def IsProper (t : Timestamp) : Prop :=
  t.nanos < 1000000000 ∨ t.seconds % 60 = 59 ∧ t.nanos < 2000000000

/-- A point in time of the years 1 to 9999. -/
structure IsPlain (t : Timestamp) : Prop where
  proper : t.IsProper
  year : 1 ≤ t.year ∧ t.year ≤ 9999

instance : DecidablePred IsProper := fun _ => inferInstanceAs (Decidable (_ ∨ _))

instance : DecidablePred IsPlain := fun t =>
  decidable_of_iff (t.IsProper ∧ 1 ≤ t.year ∧ t.year ≤ 9999)
    ⟨fun h => ⟨h.1, h.2⟩, fun h => ⟨h.proper, h.year⟩⟩

theorem yearText_of_le {y : Int} (h0 : 0 ≤ y) (h : y ≤ 9999) : yearText y = padded 4 y.toNat := by
  rw [yearText, if_pos ⟨h0, h⟩]

/-- The characters of a text in UTC, field by field. -/
theorem toList_fields (year month day hour minute second fraction : String) :
    (year ++ "-" ++ month ++ "-" ++ day ++ "T" ++ hour ++ ":" ++ minute ++ ":" ++ second ++
        fraction ++ "Z").toList =
      year.toList ++ '-' :: (month.toList ++ '-' :: (day.toList ++ 'T' :: (hour.toList ++
        ':' :: (minute.toList ++ ':' :: (second.toList ++ (fraction.toList ++ ['Z'])))))) := by
  have hmarks : "-".toList = ['-'] ∧ "T".toList = ['T'] ∧ ":".toList = [':'] ∧
      "Z".toList = ['Z'] := by decide
  simp only [String.toList_append, List.append_assoc, hmarks, List.cons_append, List.nil_append]

/-- What the fields of a text in UTC denote. -/
theorem parse?_fields {y : Int} {m d hour minute second nanos : Nat} (hyear : 0 ≤ y ∧ y ≤ 9999)
    (hdate : IsDate (y, m, d)) (hhour : hour ≤ 23) (hminute : minute ≤ 59) (hsecond : second ≤ 60)
    (hnanos : nanos < 1000000000) {seconds : Int}
    (hseconds : seconds = daysFromDate y m d * 86400 +
      ((hour : Int) * 3600 + (minute : Int) * 60 + (if second = 60 then 59 else second : Nat)))
    (hknown : isKnownDay (seconds.fdiv 86400) = true) :
    parse? (yearText y ++ "-" ++ padded 2 m ++ "-" ++ padded 2 d ++ "T" ++ padded 2 hour ++ ":" ++
        padded 2 minute ++ ":" ++ padded 2 second ++ fractionText nanos ++ "Z") =
      some ⟨seconds, nanos + if second = 60 then 1000000000 else 0⟩ := by
  obtain ⟨hmonth, hday⟩ := hdate
  dsimp only at hmonth hday
  have hyearField := year?_padded (n := y.toNat) (by omega)
  have hlong : d ≤ 31 := Nat.le_trans hday.2 (daysInMonth_le y m)
  have hmonthField := boundedField?_padded hmonth.1 hmonth.2 (by decide)
  have hdayField := boundedField?_padded hday.1 hlong (by decide)
  have hhourField := boundedField?_padded hour.zero_le hhour (by decide)
  have hminuteField := boundedField?_padded minute.zero_le hminute (by decide)
  have hsecondField := boundedField?_padded second.zero_le hsecond (by decide)
  have hdash := fun r => spacedMark?_cons (c := '-') (by decide) r
  have hcolon := fun r => spacedMark?_cons (c := ':') (by decide) r
  have hfraction := fraction?_fractionText hnanos
  rw [yearText_of_le hyear.1 hyear.2]
  have hzone : offset? (List.dropWhile isBlank ['Z']) = some (0, []) := by decide
  have hy : (y.toNat : Int) = y := Int.toNat_of_nonneg hyear.1
  rw [parse?, toList_fields]
  simp only [↓bind_of_eq_some (hyearField _), ↓bind_of_eq_some (hdash _),
    ↓bind_of_eq_some (hmonthField _), ↓bind_of_eq_some (hdayField _), true_or, or_true, if_true,
    bind_of_eq_some rfl, ↓bind_of_eq_some (hhourField _), ↓bind_of_eq_some (hcolon _),
    ↓bind_of_eq_some (hminuteField _), ↓bind_of_eq_some (hsecondField _),
    ↓bind_of_eq_some (hfraction _), ↓bind_of_eq_some hzone, hy]
  have hyears : ¬ (y < minYear ∨ maxYear < y ∨ daysInMonth y m < d) := by
    have hmin : minYear ≤ 0 := by decide
    have hmax : 9999 ≤ maxYear := by decide
    omega
  rw [if_neg (by decide), if_neg hyears, if_neg (by decide), Int.sub_zero, ← hseconds,
    if_pos hknown]

/-- The time of day in seconds is what remains of the days. -/
theorem exists_clock (seconds : Int) : ∃ clock : Nat, (seconds.fmod 86400).toNat = clock ∧
    clock < 86400 ∧ seconds = seconds.fdiv 86400 * 86400 + clock := by
  refine ⟨_, rfl, ?_⟩
  rw [Int.fdiv_eq_ediv_of_nonneg _ (by decide), Int.fmod_eq_emod_of_nonneg _ (by decide)]
  omega

/-- A point in time of a year with four digits is read back from its text. -/
theorem parse?_format {t : Timestamp} (h : t.IsPlain) : parse? t.format = some t := by
  obtain ⟨seconds, nanos⟩ := t
  obtain ⟨hproper, hyear⟩ := h
  have hdate := isDate_dateOfDays (seconds.fdiv 86400)
  have hdays := daysFromDate_dateOfDays (seconds.fdiv 86400)
  have hknown : isKnownDay (seconds.fdiv 86400) = true :=
    isKnownDay_of_year (Int.le_trans (by decide) hyear.1) hyear.2
  change 1 ≤ (dateOfDays (seconds.fdiv 86400)).1 ∧ (dateOfDays (seconds.fdiv 86400)).1 ≤ 9999
    at hyear
  obtain ⟨clock, hclock, hlt, hsplit⟩ := exists_clock seconds
  unfold format
  dsimp only
  rw [hclock]
  revert hdate hdays hyear
  generalize dateOfDays (seconds.fdiv 86400) = date
  obtain ⟨y, m, d⟩ := date
  intro hdate hdays hyear
  dsimp only at hdate hdays hyear ⊢
  have hyear0 : 0 ≤ y ∧ y ≤ 9999 := by omega
  by_cases hleap : 1000000000 ≤ nanos
  · -- the second after the last one of a minute
    obtain ⟨hlast, hnanos⟩ : clock % 60 = 59 ∧ nanos < 2000000000 := by
      rcases hproper with hsmall | ⟨hlast, hnanos⟩ <;> dsimp only at * <;> omega
    rw [if_pos hleap, if_pos hleap, hlast]
    have hsum : seconds = daysFromDate y m d * 86400 + (((clock / 3600 : Nat) : Int) * 3600 +
        ((clock / 60 % 60 : Nat) : Int) * 60 + (if 59 + 1 = 60 then 59 else 59 + 1 : Nat)) := by
      rw [if_pos rfl, hdays]
      omega
    rw [parse?_fields hyear0 hdate (by omega) (by omega) (by decide) (by omega) hsum hknown,
      if_pos rfl, Nat.sub_add_cancel hleap]
  · rw [if_neg hleap, if_neg hleap, Nat.add_zero]
    have hsecond : clock % 60 ≠ 60 := by omega
    have hsum : seconds = daysFromDate y m d * 86400 + (((clock / 3600 : Nat) : Int) * 3600 +
        ((clock / 60 % 60 : Nat) : Int) * 60 +
          (if clock % 60 = 60 then 59 else clock % 60 : Nat)) := by
      rw [if_neg hsecond, hdays]
      omega
    rw [parse?_fields hyear0 hdate (by omega) (by omega) (by omega) (by omega) hsum hknown,
      if_neg hsecond, Nat.add_zero]

/-- A leap second is the sixtieth of its minute. -/
example : format ⟨1483228799, 1500000000⟩ = "2016-12-31T23:59:60.500Z" := by decide

end Timestamp

end CredentialEngine.Time
