import CredentialEngine.Proofs.Time.Duration
import CredentialEngine.Resource.Account

/-!
# Durations written and read again

A manifest holds a duration as a text, which is written anew from what was read. The first such
round may change the duration, since the parts of the first text are added exactly while the one
part that is written passes through binary64; after it nothing changes any more.
-/
namespace CredentialEngine.Duration

open Text

/-- What a field holds after it has been written and read a number of times. -/
def afterRounds : Nat → Duration → Option Duration
  | 0, d => some d
  | n + 1, d => (asDuration (ofDuration d)).bind (afterRounds n)

theorem asDuration_ofDuration {d d' : Duration} (h : parse d.format = .ok d') :
    asDuration (ofDuration d) = some d' := by
  rw [ofDuration, asDuration, Json.asText]
  simp only [h]

theorem afterRounds_of_isSettled {d : Duration} (h : d.IsSettled) (n : Nat) :
    afterRounds n d = some d := by
  induction n with
  | zero => rfl
  | succ n ih =>
    rw [afterRounds, asDuration_ofDuration (parse_format_eq_iff.mpr h), Option.bind_some, ih]

theorem isSettled_of_written {s : String} {d : Duration} (h : parse s = .ok d) {p : Part}
    (hp : Written [p] (trim s).toList) : d.IsSettled := by
  have hparse := parse_of_written (List.cons_ne_nil _ _) hp
  rw [List.map_singleton, List.sum_singleton] at hparse
  exact Except.ok.inj (hparse.symm.trans h) ▸ p.isSettled

/-- What is read of a text and written can be read, and what is read then is kept in every later
round. It is the duration of the text exactly if one part can contribute that: always where the text
has one part, and below `2 ^ 53` nanoseconds. -/
theorem kept_iff_isSettled {s : String} {d : Duration} (h : parse s = .ok d) :
    (∃ d', parse d.format = .ok d' ∧ (∀ n, afterRounds (n + 1) d = some d') ∧
      (d' = d ↔ d.IsSettled)) ∧
    (d.IsExact → d.IsSettled) ∧ ∀ p, Written [p] (trim s).toList → d.IsSettled := by
  refine ⟨?_, IsExact.isSettled, fun p hp => isSettled_of_written h hp⟩
  obtain ⟨p, -, -, -, hparse⟩ := exists_part_format d
  refine ⟨⟨p.nanos⟩, hparse, fun n => ?_, ?_⟩
  · rw [afterRounds, asDuration_ofDuration hparse, Option.bind_some,
      afterRounds_of_isSettled p.isSettled]
  · rw [← parse_format_eq_iff, hparse]
    exact ⟨congrArg _, Except.ok.inj⟩

/-- The longest duration that is written with one part, and more than binary64 can hold. -/
theorem kept_longest :
    parse "18446744073709551615ns" = .ok ⟨maxPart⟩ ∧
      (∃ d', parse (format ⟨maxPart⟩) = .ok d' ∧ (∀ n, afterRounds (n + 1) ⟨maxPart⟩ = some d') ∧
        (d' = ⟨maxPart⟩ ↔ IsSettled ⟨maxPart⟩)) ∧
      (IsExact ⟨maxPart⟩ → IsSettled ⟨maxPart⟩) ∧
      ∀ p, Written [p] (trim "18446744073709551615ns").toList → IsSettled ⟨maxPart⟩ := by
  have h : parse "18446744073709551615ns" = .ok ⟨maxPart⟩ := by decide +kernel
  exact ⟨h, kept_iff_isSettled h⟩

/-- Hours and a nanosecond make a duration of its own, which is written and read without the
nanosecond. -/
theorem nanosecond_lost :
    parse "2502h1ns" = .ok ⟨9007200000000001⟩ ∧
      format ⟨9007200000000001⟩ = "9007200000000001ns" ∧
      parse (format ⟨9007200000000001⟩) = .ok ⟨9007200000000000⟩ ∧
      afterRounds 1 ⟨9007200000000001⟩ = some ⟨9007200000000000⟩ := by
  refine ⟨?_, ?_, ?_, ?_⟩ <;> decide +kernel

end CredentialEngine.Duration
