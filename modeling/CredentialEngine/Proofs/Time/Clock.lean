import CredentialEngine.Proofs.Text.Digits
import CredentialEngine.Proofs.Text.Splitting
import CredentialEngine.Time.Timestamp
import Mathlib.Data.List.TakeWhile

/-!
# The texts of times of day

A time of day is an hour, a minute and a second of two digits each with colons between them. What is
taken for one may have one-digit fields and blanks before a field; it is one exactly if it has eight
characters and no blank.
-/
namespace CredentialEngine.Time

open Text

/-- A number up to a limit, of two digits. -/
structure IsTwoDigits (limit : Nat) (cs : List Char) : Prop where
  length : cs.length = 2
  digits : ∀ c ∈ cs, c.isDigit = true
  fits : digitsVal 0 cs ≤ limit

/-- A number up to a limit, of one digit or two, with blanks before it. -/
inductive IsField (limit : Nat) (cs : List Char) : Prop
  | mk (before digits : List Char) (hbefore : ∀ c ∈ before, isBlank c = true) (hne : digits ≠ [])
      (hshort : digits.length ≤ 2) (hdigits : ∀ c ∈ digits, c.isDigit = true)
      (hfits : digitsVal 0 digits ≤ limit) (hcs : cs = before ++ digits)

/-- The text is a time of day in six digits. The last second may be a leap second. -/
inductive IsClock (s : String) : Prop
  | mk (hour minute second : List Char) (hhour : IsTwoDigits 23 hour)
      (hminute : IsTwoDigits 59 minute) (hsecond : IsTwoDigits 60 second)
      (hs : s.toList = hour ++ ':' :: (minute ++ ':' :: second))

/-- The text is a time of day in fields of one digit or two, with blanks before them. -/
inductive IsLooseClock (s : String) : Prop
  | mk (hour minute second : List Char) (hhour : IsField 23 hour) (hminute : IsField 59 minute)
      (hsecond : IsField 60 second) (hs : s.toList = hour ++ ':' :: (minute ++ ':' :: second))

/-! ## Fields -/

theorem mark?_eq_some {c : Char} {cs r : List Char} : mark? c cs = some r ↔ cs = c :: r := by
  cases cs with
  | nil => simp [mark?]
  | cons d ds => simp only [mark?, List.cons.injEq]; split <;> simp_all

/-- A field is read up to the colon behind it or the end. -/
theorem boundedField?_append {limit : Nat} {f r : List Char} (hf : IsField limit f)
    (hr : ∀ c ∈ r.head?, c = ':') : ∃ n, boundedField? 2 0 limit (f ++ r) = some (n, r) := by
  obtain ⟨before, digits, hbefore, hne, hshort, hdigits, hfits, rfl⟩ := hf
  have hblank : ∀ c ∈ (digits ++ r).head?, isBlank c = false := by
    obtain ⟨c, cs, rfl⟩ := List.exists_cons_of_ne_nil hne
    rintro d hd
    obtain rfl := Option.some.inj hd
    exact isBlank_of_isDigit (hdigits c List.mem_cons_self)
  have hend : ∀ c ∈ (r.take (2 - digits.length)).head?, c.isDigit = false := by
    intro c hc
    rw [List.head?_take] at hc
    split at hc
    · contradiction
    · exact hr c hc ▸ rfl
  have hrun : ((digits ++ r).take 2).takeWhile Char.isDigit = digits := by
    rw [List.take_append, List.take_of_length_le hshort]
    exact takeWhile_run hdigits hend
  refine ⟨digitsVal 0 digits, ?_⟩
  rw [boundedField?, digitField?, List.append_assoc, dropWhile_run hbefore hblank]
  simp only [hrun, List.isEmpty_eq_false_iff.mpr hne, Bool.false_eq_true, if_false,
    List.drop_left' rfl, Nat.zero_le, hfits, and_self, if_true]

/-- What is read off is a field. -/
theorem of_boundedField? {limit n : Nat} {cs r : List Char}
    (h : boundedField? 2 0 limit cs = some (n, r)) : ∃ f, IsField limit f ∧ cs = f ++ r := by
  rw [boundedField?] at h
  split at h
  · rename_i n' r' hfield
    split at h
    · rename_i hbounds
      obtain ⟨rfl, rfl⟩ := Prod.mk.inj (Option.some.inj h)
      rw [digitField?] at hfield
      split at hfield
      · contradiction
      · rename_i hne
        obtain ⟨rfl, rfl⟩ := Prod.mk.inj (Option.some.inj hfield)
        have hprefix : ((cs.dropWhile isBlank).take 2).takeWhile Char.isDigit <+:
            cs.dropWhile isBlank :=
          (List.takeWhile_prefix _).trans (List.take_prefix 2 _)
        refine ⟨_, ⟨cs.takeWhile isBlank, _, fun c hc => List.mem_takeWhile_imp hc,
          List.isEmpty_eq_false_iff.mp (Bool.eq_false_iff.mpr hne), ?_,
          fun c hc => List.mem_takeWhile_imp hc, hbounds.2, rfl⟩, ?_⟩
        · exact Nat.le_trans (List.takeWhile_prefix _).length_le (List.length_take_le 2 _)
        · rw [List.append_assoc, List.prefix_iff_eq_append.mp hprefix,
            List.takeWhile_append_dropWhile]
    · contradiction
  · contradiction

theorem IsTwoDigits.unblank {limit : Nat} {cs : List Char} (h : IsTwoDigits limit cs) :
    ∀ c ∈ cs, isBlank c = false :=
  fun c hc => isBlank_of_isDigit (h.digits c hc)

/-- A field without blanks is a run of digits. -/
theorem IsField.digits_of_unblank {limit : Nat} {cs : List Char} (h : IsField limit cs)
    (hunblank : ∀ c ∈ cs, isBlank c = false) :
    cs.length ≤ 2 ∧ (∀ c ∈ cs, c.isDigit = true) ∧ digitsVal 0 cs ≤ limit := by
  obtain ⟨before, digits, hbefore, -, hshort, hdigits, hfits, rfl⟩ := h
  obtain rfl := eq_nil_of_blank hbefore fun c hc => hunblank c (List.mem_append_left _ hc)
  exact ⟨hshort, hdigits, hfits⟩

/-! ## Times of day -/

theorem isTimeOfDay_iff {s : String} : isTimeOfDay s = true ↔ IsLooseClock s := by
  simp only [isTimeOfDay, decide_eq_true_eq]
  constructor
  · intro h
    obtain ⟨⟨_, r⟩, hreadHour, h⟩ := Option.bind_eq_some_iff.mp h
    obtain ⟨r', hmark, h⟩ := Option.bind_eq_some_iff.mp h
    obtain ⟨⟨_, r''⟩, hreadMinute, h⟩ := Option.bind_eq_some_iff.mp h
    obtain ⟨r₃, hmark', h⟩ := Option.bind_eq_some_iff.mp h
    obtain ⟨⟨_, r₄⟩, hreadSecond, h⟩ := Option.bind_eq_some_iff.mp h
    obtain rfl := Option.some.inj h
    obtain ⟨hour, hhour, hs⟩ := of_boundedField? hreadHour
    obtain rfl := mark?_eq_some.mp hmark
    obtain ⟨minute, hminute, rfl⟩ := of_boundedField? hreadMinute
    obtain rfl := mark?_eq_some.mp hmark'
    obtain ⟨second, hsecond, rfl⟩ := of_boundedField? hreadSecond
    exact ⟨hour, minute, second, hhour, hminute, hsecond, by rw [hs, List.append_nil]⟩
  · rintro ⟨hour, minute, second, hhour, hminute, hsecond, hs⟩
    have hcolon : ∀ {r : List Char}, ∀ c ∈ (':' :: r).head?, c = ':' := fun c hc =>
      (Option.some.inj hc).symm
    obtain ⟨_, hreadHour⟩ := boundedField?_append hhour (hcolon (r := minute ++ ':' :: second))
    obtain ⟨_, hreadMinute⟩ := boundedField?_append hminute (hcolon (r := second))
    obtain ⟨_, hreadSecond⟩ := boundedField?_append (r := []) hsecond nofun
    rw [List.append_nil] at hreadSecond
    simp only [hs, hreadHour, hreadMinute, hreadSecond, mark?, if_true, Option.bind_eq_bind,
      Option.bind_some, Option.pure_def]

theorem IsClock.chars {s : String} (h : IsClock s) :
    s.toList.length = 8 ∧ ∀ c ∈ s.toList, isBlank c = false := by
  obtain ⟨hour, minute, second, hhour, hminute, hsecond, hs⟩ := h
  rw [hs]
  constructor
  · simp only [List.length_append, List.length_cons, hhour.length, hminute.length, hsecond.length]
  · intro c hc
    simp only [List.mem_append, List.mem_cons] at hc
    rcases hc with hc | rfl | hc | rfl | hc
    · exact hhour.unblank c hc
    · rfl
    · exact hminute.unblank c hc
    · rfl
    · exact hsecond.unblank c hc

/-- What is taken for a time of day is one in six digits exactly if it has eight characters and no
blank. -/
theorem IsLooseClock.isClock_iff {s : String} (h : IsLooseClock s) :
    IsClock s ↔ s.toList.length = 8 ∧ ∀ c ∈ s.toList, isBlank c = false := by
  refine ⟨IsClock.chars, fun ⟨hlength, hunblank⟩ => ?_⟩
  obtain ⟨hour, minute, second, hhour, hminute, hsecond, hs⟩ := h
  obtain ⟨hhour2, hhour⟩ := hhour.digits_of_unblank fun c hc => hunblank c (by simp [hs, hc])
  obtain ⟨hminute2, hminute⟩ := hminute.digits_of_unblank fun c hc => hunblank c (by simp [hs, hc])
  obtain ⟨hsecond2, hsecond⟩ := hsecond.digits_of_unblank fun c hc => hunblank c (by simp [hs, hc])
  -- Two colons and three fields of at most two digits are eight characters only with six digits.
  have hsum : hour.length + minute.length + second.length = 6 := by
    simp only [hs, List.length_append, List.length_cons] at hlength
    omega
  exact ⟨hour, minute, second, ⟨by omega, hhour.1, hhour.2⟩, ⟨by omega, hminute.1, hminute.2⟩,
    ⟨by omega, hsecond.1, hsecond.2⟩, hs⟩

end CredentialEngine.Time
