import CredentialEngine.Proofs.Decimal.Binary64
import CredentialEngine.Proofs.Text.Bytes
import CredentialEngine.Proofs.Text.Digits
import CredentialEngine.Proofs.Text.Splitting
import CredentialEngine.Time.Duration
import Mathlib.Algebra.BigOperators.Ring.Finset
import Mathlib.Algebra.Order.BigOperators.Group.List
import Mathlib.Algebra.Order.Ring.Rat
import Mathlib.Data.List.TakeWhile

/-!
# Durations part by part

The text of a duration is a row of parts, each a number with a unit. The reader accepts exactly such
rows, whatever blanks stand around them, and a lone zero; it adds up what the parts contribute. A
part whose number is whole contributes its exact nanoseconds while they are below `2 ^ 53`.
-/
namespace CredentialEngine.Duration

open Text Decimal

/-! ## The parts of a text -/

/-- The units and their nanoseconds. -/
def units : List (String × Nat) :=
  [("h", 3600000000000), ("m", 60000000000), ("s", 1000000000), ("ms", 1000000), ("us", 1000),
    ("µs", 1000), ("ns", 1)]

/-- A number is a run of digits with at most one point among them. -/
structure IsNumber (cs : List Char) : Prop where
  chars : ∀ c ∈ cs, c.isDigit = true ∨ c = '.'
  digit : ∃ c ∈ cs, c.isDigit = true
  point : cs.count '.' ≤ 1

/-- A number with a unit. -/
structure Part where
  number : List Char
  unit : String
  unitNanos : Nat
  isNumber : IsNumber number
  isUnit : (unit, unitNanos) ∈ units

namespace Part

variable (p : Part)

def chars : List Char :=
  p.number ++ p.unit.toList

/-- How many digits stand after the point. -/
def places : Nat :=
  ((p.number.dropWhile (· ≠ '.')).drop 1).length

/-- The digits of the number, read without its point. -/
def digits : Nat :=
  digitsVal 0 (p.number.filter Char.isDigit)

/-- The number itself. -/
def value : ℚ :=
  p.digits / 10 ^ p.places

/-- The nanoseconds of the part, before anything is rounded. -/
def exact : ℚ :=
  p.value * p.unitNanos

/-- The nanoseconds that the part contributes. -/
def nanos : Nat :=
  ((Binary64.round p.digits (Nat.pow 10 p.places)).scale p.unitNanos).toNatClamped maxPart

end Part

/-- The text is the row of these parts. After a unit a point would belong to the unit, so only the
first number may begin with its point. -/
structure Written (parts : List Part) (cs : List Char) : Prop where
  chars : cs = parts.flatMap Part.chars
  later : ∀ p ∈ parts.tail, ∃ c ∈ p.number.head?, c.isDigit = true

/-! ## Numbers -/

theorem isNumeric_iff {c : Char} : isNumeric c = true ↔ c.isDigit = true ∨ c = '.' := by
  rw [isNumeric, Bool.or_eq_true, beq_iff_eq]

theorem decimal?_eq_some {cs whole frac : List Char} (h : decimal? cs = some (whole, frac)) :
    whole = cs.takeWhile (· ≠ '.') ∧ frac = (cs.dropWhile (· ≠ '.')).drop 1 ∧ '.' ∉ frac ∧
      ¬ (whole = [] ∧ frac = []) := by
  rw [decimal?] at h
  split at h
  · contradiction
  · rename_i hok
    obtain ⟨rfl, rfl⟩ := Prod.mk.inj (Option.some.inj h)
    simp only [Bool.or_eq_true, Bool.and_eq_true, List.isEmpty_iff, List.contains_iff_mem,
      not_or] at hok
    exact ⟨rfl, rfl, hok.1, hok.2⟩

/-- A text falls at its first point, if it has one. -/
theorem split_point (cs : List Char) :
    cs = cs.takeWhile (· ≠ '.') ∧ (cs.dropWhile (· ≠ '.')).drop 1 = [] ∨
      cs = cs.takeWhile (· ≠ '.') ++ '.' :: (cs.dropWhile (· ≠ '.')).drop 1 := by
  induction cs with
  | nil => exact .inl ⟨rfl, rfl⟩
  | cons c cs ih =>
    by_cases hc : c = '.'
    · subst hc
      exact .inr rfl
    · rw [List.takeWhile_cons_of_pos (by simpa using hc),
        List.dropWhile_cons_of_pos (by simpa using hc), List.cons_append, List.cons.injEq,
        List.cons.injEq]
      exact ih.imp (fun h => ⟨⟨rfl, h.1⟩, h.2⟩) fun h => ⟨rfl, h⟩

theorem point_notMem_takeWhile (cs : List Char) : '.' ∉ cs.takeWhile (· ≠ '.') :=
  fun h => absurd (List.mem_takeWhile_imp h) (by decide)

theorem IsNumber.decimal? {cs : List Char} (h : IsNumber cs) :
    decimal? cs = some (cs.takeWhile (· ≠ '.'), (cs.dropWhile (· ≠ '.')).drop 1) := by
  have hpoint : '.' ∉ (cs.dropWhile (· ≠ '.')).drop 1 := by
    rcases split_point cs with ⟨-, hnil⟩ | hsplit
    · rw [hnil]
      exact List.not_mem_nil
    · have hcount := h.point
      rw [hsplit, List.count_append, List.count_cons_self] at hcount
      exact List.count_eq_zero.mp (by omega)
  have hdigit : ¬ (cs.takeWhile (· ≠ '.') = [] ∧ (cs.dropWhile (· ≠ '.')).drop 1 = []) := by
    rintro ⟨hwhole, hfrac⟩
    obtain ⟨c, hc, hdigit⟩ := h.digit
    rcases split_point cs with ⟨hsplit, -⟩ | hsplit
    · rw [hsplit, hwhole] at hc
      exact List.not_mem_nil hc
    · rw [hsplit, hwhole, hfrac, List.nil_append, List.mem_singleton] at hc
      exact absurd (hc ▸ hdigit) (by decide)
  rw [Duration.decimal?, if_neg]
  simp only [Bool.or_eq_true, Bool.and_eq_true, List.isEmpty_iff, List.contains_iff_mem, not_or]
  exact ⟨hpoint, hdigit⟩

/-- What is read as a decimal number, of digits and points, is a number. -/
theorem isNumber_of_decimal? {cs whole frac : List Char}
    (hchars : ∀ c ∈ cs, isNumeric c = true) (h : decimal? cs = some (whole, frac)) :
    IsNumber cs := by
  obtain ⟨rfl, rfl, hpoint, hdigit⟩ := decimal?_eq_some h
  have hwhole := List.count_eq_zero.mpr (point_notMem_takeWhile cs)
  have hfrac := List.count_eq_zero.mpr hpoint
  refine ⟨fun c hc => isNumeric_iff.mp (hchars c hc), ?_, ?_⟩
  · obtain ⟨c, hc, hne⟩ : ∃ c ∈ cs, c ≠ '.' := by
      by_contra hall
      simp only [not_exists, not_and, not_not] at hall
      refine hdigit ⟨List.eq_nil_iff_forall_not_mem.mpr fun c hc => ?_,
        List.eq_nil_iff_forall_not_mem.mpr fun c hc => ?_⟩
      · exact point_notMem_takeWhile cs (hall c ((List.takeWhile_sublist _).subset hc) ▸ hc)
      · have hmem := (List.dropWhile_sublist _).subset ((List.drop_sublist _ _).subset hc)
        exact hpoint (hall c hmem ▸ hc)
    exact ⟨c, hc, (isNumeric_iff.mp (hchars c hc)).resolve_right hne⟩
  · rcases split_point cs with ⟨hsplit, -⟩ | hsplit
    · rw [hsplit, hwhole]
      exact Nat.zero_le _
    · rw [hsplit, List.count_append, List.count_cons_self, hwhole, hfrac]

/-- Without its point a number is the digits before and after it. -/
theorem IsNumber.filter_isDigit {cs : List Char} (h : IsNumber cs) :
    cs.filter Char.isDigit =
      cs.takeWhile (· ≠ '.') ++ (cs.dropWhile (· ≠ '.')).drop 1 := by
  have hpoint := (decimal?_eq_some h.decimal?).2.2.1
  have hkept : ∀ {ds : List Char}, '.' ∉ ds → (∀ c ∈ ds, c ∈ cs) → ds.filter Char.isDigit = ds :=
    fun hds hsub => List.filter_eq_self.mpr fun c hc =>
      (h.chars c (hsub c hc)).resolve_right fun he => hds (he ▸ hc)
  have hwhole := hkept (point_notMem_takeWhile cs) fun c hc => (List.takeWhile_sublist _).subset hc
  rcases split_point cs with ⟨hsplit, hnil⟩ | hsplit
  · rw [hnil, List.append_nil, ← hsplit]
    rwa [← hsplit] at hwhole
  · have hfrac := hkept hpoint fun c hc =>
      (List.dropWhile_sublist _).subset ((List.drop_sublist _ _).subset hc)
    conv_lhs => rw [hsplit]
    rw [List.filter_append, hwhole, List.filter_cons_of_neg (by decide), hfrac]

theorem unitNanos?_eq_some {unit : List Char} {k : Nat} :
    unitNanos? unit = some k ↔ (String.ofList unit, k) ∈ units := by
  constructor
  · intro h
    unfold unitNanos? at h
    split at h
    all_goals first
      | contradiction
      | obtain rfl := Option.some.inj h
        decide
  · intro h
    obtain ⟨s, hs⟩ : ∃ s, s = String.ofList unit := ⟨_, rfl⟩
    have hunit : unit = s.toList := by rw [hs, String.toList_ofList]
    rw [← hs] at h
    subst hunit
    simp only [units, List.mem_cons, Prod.mk.injEq, List.not_mem_nil, or_false] at h
    rcases h with ⟨rfl, rfl⟩ | ⟨rfl, rfl⟩ | ⟨rfl, rfl⟩ | ⟨rfl, rfl⟩ | ⟨rfl, rfl⟩ | ⟨rfl, rfl⟩ |
      ⟨rfl, rfl⟩ <;> decide

namespace Part

variable (p : Part)

theorem unitNanos?_unit : unitNanos? p.unit.toList = some p.unitNanos := by
  rw [unitNanos?_eq_some, String.ofList_toList]
  exact p.isUnit

/-- A unit is letters, so neither a number nor blanks go on in it. -/
theorem unit_letters : p.unit.toList ≠ [] ∧ 0 < p.unitNanos ∧
    ∀ c ∈ p.unit.toList, isNumeric c = false ∧ isBlank c = false := by
  have h := p.isUnit
  have hall : ∀ u ∈ units, u.1.toList ≠ [] ∧ 0 < u.2 ∧
      (u.1.toList.all fun c => decide (isNumeric c = false ∧ isBlank c = false)) = true := by
    decide
  obtain ⟨hne, hpos, hletters⟩ := hall _ h
  exact ⟨hne, hpos, forall_of_all hletters⟩

theorem isNumeric_of_mem_number {c : Char} (hc : c ∈ p.number) : isNumeric c = true :=
  isNumeric_iff.mpr (p.isNumber.chars c hc)

theorem number_ne_nil : p.number ≠ [] := by
  obtain ⟨c, hc, -⟩ := p.isNumber.digit
  exact List.ne_nil_of_mem hc

theorem partNanos_eq : partNanos (p.number.takeWhile (· ≠ '.'))
    ((p.number.dropWhile (· ≠ '.')).drop 1) p.unitNanos = p.nanos := by
  rw [partNanos, ← p.isNumber.filter_isDigit]
  rfl

theorem nanos_le : p.nanos ≤ maxPart := by
  rw [nanos]
  cases (Binary64.round p.digits (Nat.pow 10 p.places)).scale p.unitNanos with
  | finite m e => exact Nat.min_le_left ..
  | infinite => exact Nat.le_refl _

/-- A whole number of so few nanoseconds that binary64 holds them is not rounded. -/
theorem nanos_of_whole {n : Nat} (hn : p.value = n) (hsig : IsSignificant (n * p.unitNanos))
    (hle : n * p.unitNanos ≤ maxPart) : p.nanos = n * p.unitNanos := by
  have hpos := p.unit_letters.2.1
  have hfits : maxPart < Nat.pow 2 1024 := by decide +kernel
  have hdigits : p.digits = n * 10 ^ p.places := by
    have h : (p.digits : ℚ) = n * 10 ^ p.places :=
      (div_eq_iff (pow_ne_zero _ (by decide))).mp hn
    exact_mod_cast h
  have hnsig : IsSignificant n := by
    rcases Nat.eq_zero_or_pos n with rfl | hn0
    · exact .of_lt (by decide)
    · exact hsig.of_dvd (Nat.mul_pos hn0 hpos).ne' (Nat.dvd_mul_right ..)
  have hnle : n ≤ maxPart := Nat.le_trans (Nat.le_mul_of_pos_right n hpos) hle
  have hwhole : (Binary64.round p.digits (Nat.pow 10 p.places)).IsWhole n := by
    rw [hdigits]
    exact Binary64.isWhole_round hnsig (Nat.lt_of_le_of_lt hnle hfits) (Nat.pow_pos (by decide))
  exact (hwhole.scale hsig (Nat.lt_of_le_of_lt hle hfits)).toNatClamped hle

end Part

/-! ## Rows of parts -/

theorem written_nil {cs : List Char} : Written [] cs ↔ cs = [] :=
  ⟨fun h => h.chars, fun h => ⟨h, nofun⟩⟩

theorem Part.head?_chars (p : Part) (rest : List Char) :
    (p.chars ++ rest).head? = p.number.head? := by
  obtain ⟨c, cs, hcons⟩ := List.exists_cons_of_ne_nil p.number_ne_nil
  rw [Part.chars, hcons]
  rfl

/-- A row is its first part and a row that goes on with a digit. -/
theorem written_cons {p : Part} {parts : List Part} {cs : List Char} :
    Written (p :: parts) cs ↔ ∃ rest, cs = p.chars ++ rest ∧
      (∀ c ∈ rest.head?, c.isDigit = true) ∧ Written parts rest := by
  constructor
  · rintro ⟨hchars, hlater⟩
    have htail : ∀ q ∈ parts.tail, _ := fun q hq => hlater q (List.mem_of_mem_tail hq)
    refine ⟨parts.flatMap Part.chars, hchars, ?_, rfl, htail⟩
    cases parts with
    | nil => nofun
    | cons q qs =>
      intro c hc
      obtain ⟨d, hd, hdigit⟩ := hlater q List.mem_cons_self
      rw [List.flatMap_cons, Part.head?_chars] at hc
      exact Option.mem_unique hc hd ▸ hdigit
  · rintro ⟨rest, rfl, hrest, hwritten⟩
    refine ⟨by rw [List.flatMap_cons, ← hwritten.chars], ?_⟩
    cases parts with
    | nil => nofun
    | cons q qs =>
      refine List.forall_mem_cons.mpr ⟨?_, hwritten.later⟩
      obtain ⟨c, cs, hcons⟩ := List.exists_cons_of_ne_nil q.number_ne_nil
      refine ⟨c, by rw [hcons]; rfl, hrest c ?_⟩
      rw [hwritten.chars, List.flatMap_cons, Part.head?_chars, hcons]
      rfl

/-! ## The sum of the parts -/

variable {text : String}

/-- The reader takes off one part and goes on behind it. -/
theorem sum_append (p : Part) {rest : List Char} (hrest : ∀ c ∈ rest.head?, c.isDigit = true) :
    sum text (p.chars ++ rest) = (sum text rest).map (p.nanos + ·) := by
  obtain ⟨hne, -, hletters⟩ := p.unit_letters
  obtain ⟨c, cs, hcons⟩ := List.exists_cons_of_ne_nil p.number_ne_nil
  have hnumeric : ∀ d ∈ c :: cs, isNumeric d = true := fun d hd =>
    p.isNumeric_of_mem_number (hcons ▸ hd)
  have hunit : ∀ d ∈ (p.unit.toList ++ rest).head?, isNumeric d = false := by
    obtain ⟨u, us, hu⟩ := List.exists_cons_of_ne_nil hne
    intro d hd
    rw [hu] at hd hletters
    exact Option.mem_unique hd rfl ▸ (hletters u List.mem_cons_self).1
  have hnodigit : ∀ d ∈ p.unit.toList, (!d.isDigit) = true := by
    intro d hd
    have h := (hletters d hd).1
    rw [isNumeric, Bool.or_eq_false_iff] at h
    rw [h.1, Bool.not_false]
  have hdigit : ∀ d ∈ rest.head?, (!d.isDigit) = false := fun d hd => by
    rw [hrest d hd, Bool.not_true]
  have htail : ∀ d ∈ cs, isNumeric d = true := fun d hd => hnumeric d (List.mem_cons_of_mem _ hd)
  have hafter : (p.unit.toList ++ rest).isEmpty = false :=
    List.isEmpty_eq_false_iff.mpr fun h => hne (List.append_eq_nil_iff.mp h).1
  have hdecimal := p.isNumber.decimal?
  rw [Part.chars, List.append_assoc, hcons, List.cons_append, sum, hnumeric c List.mem_cons_self]
  simp only [Bool.not_true, Bool.false_eq_true, if_false, dropWhile_run htail hunit,
    takeWhile_run htail hunit, takeWhile_run hnodigit hdigit, dropWhile_run hnodigit hdigit, hafter,
    ← hcons, hdecimal, p.unitNanos?_unit, p.partNanos_eq]
  cases sum text rest <;> rfl

/-- Where the reader accepts a text that is not at its end, a part stands there. -/
theorem part_of_sum {c : Char} {cs : List Char} {n : Nat} (h : sum text (c :: cs) = .ok n) :
    ∃ (p : Part) (rest : List Char), c :: cs = p.chars ++ rest ∧
      ∀ d ∈ rest.head?, d.isDigit = true := by
  rw [sum] at h
  split at h
  · contradiction
  rename_i hc
  simp only at h
  split at h
  · contradiction
  split at h
  · contradiction
  rename_i whole frac hdecimal
  split at h
  · contradiction
  rename_i k hunit
  have hnumeric : ∀ d ∈ c :: cs.takeWhile isNumeric, isNumeric d = true :=
    List.forall_mem_cons.mpr ⟨by simpa using hc, fun d hd => List.mem_takeWhile_imp hd⟩
  refine ⟨⟨c :: cs.takeWhile isNumeric, _, k, isNumber_of_decimal? hnumeric hdecimal,
    unitNanos?_eq_some.mp hunit⟩, (cs.dropWhile isNumeric).dropWhile fun d => !d.isDigit, ?_,
    fun d hd => by simpa using of_mem_head?_dropWhile hd⟩
  rw [Part.chars, String.toList_ofList, List.append_assoc, List.takeWhile_append_dropWhile,
    List.cons_append, List.takeWhile_append_dropWhile]

theorem sum_of_written {parts : List Part} {cs : List Char} (h : Written parts cs) :
    sum text cs = .ok (parts.map Part.nanos).sum := by
  induction parts generalizing cs with
  | nil =>
    rw [written_nil.mp h, sum]
    rfl
  | cons p parts ih =>
    obtain ⟨rest, rfl, hrest, hwritten⟩ := written_cons.mp h
    rw [sum_append p hrest, ih hwritten]
    rfl

/-- The reader accepts a text only as a row of parts. -/
theorem written_of_sum (cs : List Char) {n : Nat} (h : sum text cs = .ok n) :
    ∃ parts, Written parts cs := by
  -- on the length: what is left behind a part is shorter, but no tail of the text
  induction hlength : cs.length using Nat.strongRecOn generalizing cs n with
  | ind length ih =>
    cases cs with
    | nil => exact ⟨[], written_nil.mpr rfl⟩
    | cons c cs =>
      obtain ⟨p, rest, hchars, hrest⟩ := part_of_sum h
      have hshorter : rest.length < length := by
        have hpos := List.length_pos_iff.mpr p.number_ne_nil
        rw [← hlength, hchars, Part.chars, List.length_append, List.length_append]
        omega
      rw [hchars, sum_append p hrest] at h
      cases hsum : sum text rest with
      | error e =>
        rw [hsum] at h
        contradiction
      | ok m =>
        obtain ⟨parts, hparts⟩ := ih rest.length hshorter rest hsum rfl
        exact ⟨p :: parts, written_cons.mpr ⟨rest, hchars, hrest, hparts⟩⟩

/-! ## Whole texts -/

/-- The parts of a text without blanks in it are read as it stands there. -/
theorem parse_of_written {s : String} {parts : List Part} (hne : parts ≠ [])
    (h : Written parts (trim s).toList) : parse s = .ok ⟨(parts.map Part.nanos).sum⟩ := by
  have hsum : sum (trim s) (trim s).toList = .ok (parts.map Part.nanos).sum := sum_of_written h
  have hempty : trim s ≠ "" := by
    intro he
    obtain ⟨p, parts, rfl⟩ := List.exists_cons_of_ne_nil hne
    obtain ⟨rest, hchars, -⟩ := written_cons.mp h
    have hpos := List.length_pos_iff.mpr p.number_ne_nil
    rw [he, Part.chars] at hchars
    have hlength := congrArg List.length hchars
    rw [List.length_append, List.length_append] at hlength
    change 0 = _ at hlength
    omega
  have hzero : trim s ≠ "0" := by
    intro he
    have hunit : sum "0" "0".toList = .error (.missingUnit "0") := by decide +kernel
    rw [he, hunit] at hsum
    contradiction
  rw [parse, if_neg hempty, if_neg hzero, hsum]
  rfl

/-- What is read of a text is its parts, except for a lone zero. -/
theorem written_of_parse {s : String} {d : Duration} (h : parse s = .ok d) :
    trim s = "0" ∨ ∃ parts, parts ≠ [] ∧ Written parts (trim s).toList := by
  rw [parse] at h
  split at h
  · contradiction
  rename_i hempty
  split at h
  · exact .inl ‹_›
  cases hsum : sum (trim s) (trim s).toList with
  | error e =>
    rw [hsum] at h
    contradiction
  | ok n =>
    obtain ⟨parts, hparts⟩ := written_of_sum _ hsum
    refine .inr ⟨parts, ?_, hparts⟩
    rintro rfl
    exact hempty (String.toList_eq_nil_iff.mp (written_nil.mp hparts))

theorem sum_nanos_le (parts : List Part) : (parts.map Part.nanos).sum ≤ parts.length * maxPart := by
  have h := List.sum_le_card_nsmul (parts.map Part.nanos) maxPart fun n hn => by
    obtain ⟨p, -, rfl⟩ := List.mem_map.mp hn
    exact p.nanos_le
  simpa using h

theorem sum_nanos_of_whole {parts : List Part}
    (h : ∀ p ∈ parts, ∃ n : Nat, p.value = n ∧ n * p.unitNanos < 2 ^ 53) :
    (((parts.map Part.nanos).sum : Nat) : ℚ) = (parts.map Part.exact).sum := by
  have hfits : 2 ^ 53 ≤ maxPart := by decide
  rw [Nat.cast_list_sum, List.map_map]
  refine congrArg List.sum (List.map_congr_left fun p hp => ?_)
  obtain ⟨n, hn, hlt⟩ := h p hp
  rw [Function.comp_apply, p.nanos_of_whole hn (.of_lt hlt) (by omega), Part.exact, hn,
    Nat.cast_mul]

/-- A text is read exactly when it is a lone zero or a row of parts, blanks around it ignored. What
fewer than `10 ^ 9` parts add up to stays below `2 ^ 64` seconds, and it is their exact sum where
every number is whole and below `2 ^ 53` nanoseconds. -/
theorem parse_ok_iff_written (s : String) :
    ((∃ d, parse s = .ok d) ↔
      trim s = "0" ∨ ∃ parts, parts ≠ [] ∧ Written parts (trim s).toList) ∧
    ∀ parts, parts ≠ [] → Written parts (trim s).toList →
      ∃ d, parse s = .ok d ∧
        (parts.length < 10 ^ 9 → d.nanos < 2 ^ 64 * 10 ^ 9) ∧
        ((∀ p ∈ parts, ∃ n : Nat, p.value = n ∧ n * p.unitNanos < 2 ^ 53) →
          (d.nanos : ℚ) = (parts.map Part.exact).sum) := by
  refine ⟨⟨fun ⟨d, h⟩ => written_of_parse h, ?_⟩, fun parts hne hparts => ?_⟩
  · rintro (hzero | ⟨parts, hne, hparts⟩)
    · exact ⟨⟨0⟩, by rw [parse, hzero]; rfl⟩
    · exact ⟨_, parse_of_written hne hparts⟩
  · refine ⟨_, parse_of_written hne hparts, fun hlength => ?_, sum_nanos_of_whole⟩
    have hbound := sum_nanos_le parts
    have hpart : maxPart < 2 ^ 64 := by decide
    calc (parts.map Part.nanos).sum
        ≤ parts.length * maxPart := hbound
      _ ≤ 10 ^ 9 * maxPart := Nat.mul_le_mul_right _ hlength.le
      _ < 2 ^ 64 * 10 ^ 9 := by
        rw [Nat.mul_comm]
        exact Nat.mul_lt_mul_of_pos_right hpart (by decide)

example : parse " 1.0h30m" = .ok ⟨5400000000000⟩ := by decide +kernel

end CredentialEngine.Duration
