import CredentialEngine.Proofs.Json.Layout
import CredentialEngine.Proofs.Json.Medium
import CredentialEngine.Proofs.Text.Digits
import CredentialEngine.Proofs.Text.Splitting

/-!
# Reading written JSON

The reader gives back every value that a layout writes, in text and in UTF-8 octets. The induction
runs over the value with whatever follows it; the fuel exceeds the length of the text, and each
call of the reader consumes at least one character of it.
-/
namespace CredentialEngine.Json

open Text (isDigit_of_mem_toDigits)

variable {cset : Charset}

/-! ## Numbers -/

/-- What follows does not continue a number. -/
def EndsNumber (r : List Char) : Prop :=
  ∀ c ∈ r.head?, c.isDigit = false ∧ c ≠ '.' ∧ c ≠ 'e' ∧ c ≠ 'E'

theorem EndsNumber.nil : EndsNumber [] := by simp [EndsNumber]

theorem EndsNumber.cons {c : Char} {r : List Char}
    (h : c.isDigit = false ∧ c ≠ '.' ∧ c ≠ 'e' ∧ c ≠ 'E') : EndsNumber (c :: r) := by
  simpa [EndsNumber] using h

theorem isSpace_iff {c : Char} :
    isSpace c = true ↔ c = ' ' ∨ c = '\n' ∨ c = '\t' ∨ c = '\r' := by
  simp [isSpace, or_assoc]

theorem isSpace_ascii {c : Char} (h : isSpace c = true) : c.toNat < 0x80 := by
  rcases isSpace_iff.mp h with rfl | rfl | rfl | rfl <;> decide

/-- A blank, or what stands after it, ends a number. -/
theorem EndsNumber.gap {b : List Char} (hb : ∀ c ∈ b, isSpace c = true) {r : List Char}
    (hr : EndsNumber r) : EndsNumber (b ++ r) := by
  cases b with
  | nil => exact hr
  | cons c b =>
    have hc := hb c (by simp)
    apply EndsNumber.cons
    rcases isSpace_iff.mp hc with rfl | rfl | rfl | rfl <;> decide

theorem EndsNumber.head {r : List Char} (h : EndsNumber r) : ∀ c ∈ r.head?, c.isDigit = false :=
  fun c hc => (h c hc).1

theorem wholePart?_toDigits (n : Nat) {r : List Char} (hr : EndsNumber r) :
    wholePart? (Nat.toDigits 10 n ++ r) = some (Nat.toDigits 10 n, r) := by
  by_cases h0 : n = 0
  · subst h0
    rw [Nat.toDigits_zero]
    cases r with
    | nil => rfl
    | cons c r =>
      have hc := (hr c (by simp)).1
      simp [wholePart?, hc]
  · obtain ⟨c, cs, he, hc⟩ := Text.head_toDigits_ne_zero h0
    have hd : ∀ d ∈ c :: cs, d.isDigit = true := fun d hd => isDigit_of_mem_toDigits (he ▸ hd)
    rw [he, List.cons_append, wholePart?]
    · rw [← List.cons_append, Text.takeWhile_run hd hr.head, Text.dropWhile_run hd hr.head]
      rfl
    · intro r' h
      exact hc (List.cons.inj h).1

theorem fraction?_end {r : List Char} (hr : EndsNumber r) : fraction? r = some (none, r) := by
  cases r with
  | nil => rfl
  | cons c r =>
    have hc := (hr c (by simp)).2.1
    rw [fraction?]
    intro r' h
    exact hc (List.cons.inj h).1

theorem exponent?_end {r : List Char} (hr : EndsNumber r) : exponent? r = some (none, r) := by
  cases r with
  | nil => rfl
  | cons c r =>
    obtain ⟨-, -, he, hE⟩ := hr c (by simp)
    change (if c = 'e' ∨ c = 'E' then _ else some (none, c :: r)) = _
    rw [if_neg (not_or.mpr ⟨he, hE⟩)]

theorem exceedsBinary64_of_lt {n : Nat} (hn : n < intLimit) : exceedsBinary64 n 0 = false := by
  unfold intLimit at hn
  unfold exceedsBinary64
  generalize Nat.pow 2 1024 - Nat.pow 2 970 = limit at hn ⊢
  split
  · rfl
  · rw [if_neg (by omega), if_neg (by omega)]
    have hone : Nat.pow 10 0 = 1 := rfl
    rw [Int.natAbs_zero, hone, Nat.mul_one, decide_eq_false_iff_not, Nat.not_le]
    exact hn

theorem unsigned?_toDigits {n : Nat} (hn : n < intLimit) {r : List Char} (hr : EndsNumber r) :
    unsigned? false (Nat.toDigits 10 n ++ r) = some (.int n, r) ∧
      (n ≠ 0 → unsigned? true (Nat.toDigits 10 n ++ r) = some (.int (-n), r)) := by
  have hx := exceedsBinary64_of_lt hn
  constructor
  · rw [unsigned?, wholePart?_toDigits n hr]
    simp [fraction?_end hr, exponent?_end hr, Text.digitsVal_toDigits, hx]
  · intro h0
    rw [unsigned?, wholePart?_toDigits n hr]
    simp [fraction?_end hr, exponent?_end hr, Text.digitsVal_toDigits, hx, h0]

/-! ## Blanks -/

theorem skipSpace_gap {b : List Char} (hb : ∀ c ∈ b, isSpace c = true) (r : List Char) :
    skipSpace (b ++ r) = skipSpace r :=
  List.dropWhile_append_of_pos hb

theorem skipSpace_cons {c : Char} (hc : isSpace c = false) (r : List Char) :
    skipSpace (c :: r) = c :: r := by
  rw [skipSpace, List.dropWhile_cons, hc]
  rfl

theorem spelled_gap (hl : cset.Lawful) {b : List Char} (hb : ∀ c ∈ b, isSpace c = true) :
    spelled cset b = b :=
  spelled_ascii hl fun c hc => isSpace_ascii (hb c hc)

theorem value?_gap {b : List Char} (hb : ∀ c ∈ b, isSpace c = true) (fuel : Nat) (r : List Char) :
    value? cset fuel (b ++ r) = value? cset fuel r := by
  cases fuel with
  | zero => simp only [value?]
  | succ fuel => simp only [value?, skipSpace_gap hb]

/-! ## Atoms -/

/-- The characters that a written value can start with. -/
def StartsValue (c : Char) : Prop :=
  c ∈ ['n', 't', 'f', '-', '"', '[', '\x7b'] ∨ c.isDigit = true

theorem StartsValue.facts {c : Char} (h : StartsValue c) :
    c.toNat < 0x80 ∧ isSpace c = false ∧ c ≠ ']' ∧ c ≠ '\x7d' := by
  rcases h with h | h
  · simp only [List.mem_cons, List.not_mem_nil, or_false] at h
    rcases h with rfl | rfl | rfl | rfl | rfl | rfl | rfl <;> decide
  · have hd := Text.toNat_of_isDigit h
    refine ⟨by omega, ?_, ?_, ?_⟩
    · rw [Bool.eq_false_iff]
      intro hs
      rcases isSpace_iff.mp hs with rfl | rfl | rfl | rfl <;> exact absurd hd (by decide)
    · rintro rfl; exact absurd hd (by decide)
    · rintro rfl; exact absurd hd (by decide)

theorem toDigits_cons (n : Nat) : ∃ c cs, Nat.toDigits 10 n = c :: cs ∧ c.isDigit = true := by
  cases h : Nat.toDigits 10 n with
  | nil => exact absurd h Nat.toDigits_ne_nil
  | cons c cs => exact ⟨c, cs, rfl, isDigit_of_mem_toDigits (h ▸ List.mem_cons_self)⟩

theorem intText_cons (n : Int) :
    ∃ c cs, (Text.intText n).toList = c :: cs ∧ (c = '-' ∨ c.isDigit = true) := by
  cases n with
  | ofNat n =>
    obtain ⟨c, cs, he, hc⟩ := toDigits_cons n
    exact ⟨c, cs, by rw [Text.intText, Text.toList_natText, he], .inr hc⟩
  | negSucc n => exact ⟨'-', _, Text.toList_intText_negSucc n, .inl rfl⟩

theorem chars_cons (sp : Spacing) (n : Nat) (v : Json) :
    ∃ c cs, chars sp n v = c :: cs ∧ StartsValue c := by
  match v with
  | .null | .fraction | .numbered _ | .unreadable =>
    exact ⟨'n', _, by simp only [chars, atomText]; rfl, .inl (by decide)⟩
  | .bool true => exact ⟨'t', _, by simp only [chars, atomText]; rfl, .inl (by decide)⟩
  | .bool false => exact ⟨'f', _, by simp only [chars, atomText]; rfl, .inl (by decide)⟩
  | .int i =>
    obtain ⟨c, cs, he, hc⟩ := intText_cons i
    refine ⟨c, cs, by simp only [chars, atomText, he], ?_⟩
    rcases hc with rfl | hc
    · exact .inl (by decide)
    · exact .inr hc
  | .str s => exact ⟨'"', _, by simp only [chars, atomText]; rfl, .inl (by decide)⟩
  | .arr [] | .arr (_ :: _) => exact ⟨'[', _, by rw [chars], .inl (by decide)⟩
  | .obj [] | .obj (_ :: _) => exact ⟨'\x7b', _, by rw [chars], .inl (by decide)⟩

/-- A digit opens a number without a sign. -/
theorem value?_digit {c : Char} (hc : c.isDigit = true) (fuel : Nat) (cs : List Char) :
    value? cset (fuel + 1) (c :: cs) = unsigned? false (c :: cs) := by
  have hs := (StartsValue.facts (.inr hc)).2.1
  simp only [value?, skipSpace_cons hs]
  split
  all_goals first
    | rfl
    | (rename_i h; obtain ⟨rfl, rfl⟩ := List.cons.inj h; exact absurd hc (by decide))

theorem intText_ascii (n : Int) : ∀ c ∈ (Text.intText n).toList, c.toNat < 0x80 := by
  have hd : ∀ m, ∀ c ∈ Nat.toDigits 10 m, c.toNat < 0x80 := fun m c hc =>
    (StartsValue.facts (.inr (isDigit_of_mem_toDigits hc))).1
  cases n with
  | ofNat n =>
    rw [Text.intText, Text.toList_natText]
    exact hd n
  | negSucc n =>
    rw [Text.toList_intText_negSucc]
    intro c hc
    rcases List.mem_cons.mp hc with rfl | hc
    · decide
    · exact hd _ c hc

theorem value?_int {i : Int} (hi : i.natAbs < intLimit) (fuel : Nat) {r : List Char}
    (hr : EndsNumber r) :
    value? cset (fuel + 1) ((Text.intText i).toList ++ r) = some (.int i, r) := by
  cases i with
  | ofNat n =>
    change n < intLimit at hi
    obtain ⟨c, cs, he, hc⟩ := toDigits_cons n
    rw [Text.intText, Text.toList_natText, he, List.cons_append, value?_digit hc,
      ← List.cons_append, ← he, (unsigned?_toDigits hi hr).1]
    rfl
  | negSucc n =>
    change n + 1 < intLimit at hi
    have hm : isSpace '-' = false := by decide
    rw [Text.toList_intText_negSucc, List.cons_append]
    simp only [value?, skipSpace_cons hm]
    rw [(unsigned?_toDigits hi hr).2 (Nat.succ_ne_zero n)]
    rfl

theorem spelled_stringText (hl : cset.Lawful) (s : String) (r : List Char) :
    spelled cset (stringText s) ++ r =
      '"' :: (spelled cset (s.toList.flatMap escapeChar) ++ '"' :: r) := by
  have hq : cset.spell '"' = ['"'] := hl.ascii '"' (by decide)
  rw [stringText, spelled, List.flatMap_cons, List.flatMap_append, hq, List.flatMap_singleton, hq,
    List.append_assoc, List.append_assoc]
  rfl

theorem value?_str (hl : cset.Lawful) (s : String) (fuel : Nat) (r : List Char) :
    value? cset (fuel + 1) (spelled cset (stringText s) ++ r) = some (.str s, r) := by
  have hm : isSpace '"' = false := by decide
  rw [spelled_stringText hl]
  simp only [value?, skipSpace_cons hm, pieces?_escaped hl]
  change some (((bodyText? cset _).map Json.str).getD .unreadable, r) = _
  rw [bodyText?_piecesOf hl]
  rfl

/-! ## Arrays and objects -/

theorem spelled_cons (hl : cset.Lawful) {c : Char} (hc : c.toNat < 0x80) (cs : List Char) :
    spelled cset (c :: cs) = c :: spelled cset cs := by
  rw [spelled, List.flatMap_cons, hl.ascii c hc]
  rfl

theorem spelled_append (cs ds : List Char) :
    spelled cset (cs ++ ds) = spelled cset cs ++ spelled cset ds :=
  List.flatMap_append

theorem spelled_lone (hl : cset.Lawful) {c : Char} (hc : c.toNat < 0x80) :
    spelled cset [c] = [c] :=
  spelled_cons hl hc []

/-- A written value shows itself by its first character, whatever is in front of it. -/
theorem skipSpace_chars (hl : cset.Lawful) (sp : Spacing) (n : Nat) (v : Json)
    {b : List Char} (hb : ∀ c ∈ b, isSpace c = true) (r : List Char) :
    ∃ c cs, StartsValue c ∧ spelled cset (chars sp n v) = c :: cs ∧
      skipSpace (b ++ (spelled cset (chars sp n v) ++ r)) = c :: (cs ++ r) := by
  obtain ⟨c, cs, he, hc⟩ := chars_cons sp n v
  obtain ⟨ha, hs, -, -⟩ := hc.facts
  have ht : spelled cset (chars sp n v) = c :: spelled cset cs := by rw [he, spelled_cons hl ha]
  refine ⟨c, spelled cset cs, hc, ht, ?_⟩
  rw [skipSpace_gap hb, ht, List.cons_append, skipSpace_cons hs]

theorem endsNumber_itemChars (hl : cset.Lawful) (sp : Spacing) (n : Nat) (vs : List Json)
    (r : List Char) : EndsNumber (spelled cset (itemChars sp n vs) ++ r) := by
  cases vs with
  | nil =>
    rw [itemChars, spelled_append, spelled_gap hl (sp.line_blank n), List.append_assoc,
      spelled_lone hl (by decide)]
    exact EndsNumber.gap (sp.line_blank n) (EndsNumber.cons (by decide))
  | cons v vs =>
    rw [itemChars, spelled_cons hl (by decide)]
    exact EndsNumber.cons (by decide)

theorem endsNumber_memberChars (hl : cset.Lawful) (sp : Spacing) (n : Nat)
    (ms : List (String × Json)) (r : List Char) :
    EndsNumber (spelled cset (memberChars sp n ms) ++ r) := by
  cases ms with
  | nil =>
    rw [memberChars, spelled_append, spelled_gap hl (sp.line_blank n), List.append_assoc,
      spelled_lone hl (by decide)]
    exact EndsNumber.gap (sp.line_blank n) (EndsNumber.cons (by decide))
  | cons m ms =>
    rw [memberChars, spelled_cons hl (by decide)]
    exact EndsNumber.cons (by decide)

/-- One member, once its value is read. -/
theorem member1?_cons (hl : cset.Lawful) {b b' : List Char} (hb : ∀ c ∈ b, isSpace c = true)
    (hb' : ∀ c ∈ b', isSpace c = true) (k : String) {v : Json} {fuel : Nat} {t r : List Char}
    (hv : value? cset fuel t = some (v, r)) :
    member1? cset (fuel + 1) (b ++ (spelled cset (stringText k) ++ ':' :: (b' ++ t))) =
      some ((some k, v), r) := by
  have hq : isSpace '"' = false := by decide
  have hc : isSpace ':' = false := by decide
  rw [spelled_stringText hl]
  simp only [member1?, skipSpace_gap hb, skipSpace_cons hq, pieces?_escaped hl,
    skipSpace_cons hc, Option.bind_eq_bind, Option.bind_some, value?_gap hb', hv,
    bodyText?_piecesOf hl]
  rfl

theorem ofMembers_some (ms : List (String × Json)) :
    ofMembers (ms.map fun m => (some m.1, m.2)) = .obj ms := by
  have hm : (ms.map fun m => ((some m.1, m.2) : Option String × Json)).mapM
      (fun m => m.1.map fun k => (k, m.2)) = some ms := by
    induction ms with
    | nil => rfl
    | cons m ms ih => simp [List.mapM_cons, ih]
  rw [ofMembers, hm]

theorem literal?_append (word : String) (v : Json) (r : List Char) :
    literal? word v (word.toList ++ r) = some (v, r) := by
  have hp : word.toList.isPrefixOf (word.toList ++ r) = true :=
    List.isPrefixOf_iff_prefix.mpr (List.prefix_append _ _)
  rw [literal?, if_pos hp, ← String.length_toList, List.drop_left]

theorem spelled_null (hl : cset.Lawful) (sp : Spacing) (n : Nat) :
    spelled cset (chars sp n .null) = 'n' :: "ull".toList := by
  rw [show chars sp n .null = "null".toList by simp [chars, atomText]]
  exact spelled_ascii hl (Text.forall_of_all (by decide))

theorem spelled_true (hl : cset.Lawful) (sp : Spacing) (n : Nat) :
    spelled cset (chars sp n (.bool true)) = 't' :: "rue".toList := by
  rw [show chars sp n (.bool true) = "true".toList by simp [chars, atomText]]
  exact spelled_ascii hl (Text.forall_of_all (by decide))

theorem spelled_false (hl : cset.Lawful) (sp : Spacing) (n : Nat) :
    spelled cset (chars sp n (.bool false)) = 'f' :: "alse".toList := by
  rw [show chars sp n (.bool false) = "false".toList by simp [chars, atomText]]
  exact spelled_ascii hl (Text.forall_of_all (by decide))

mutual

/-- The reader gives back a written value and leaves what follows it. -/
theorem value?_chars (hl : cset.Lawful) (sp : Spacing) :
    ∀ (v : Json) (n fuel : Nat) (r : List Char), v.isWritable = true → EndsNumber r →
      (spelled cset (chars sp n v)).length < fuel →
      value? cset fuel (spelled cset (chars sp n v) ++ r) = some (v, r)
  | _, _, 0, _ => fun _ _ hf => absurd hf (Nat.not_lt_zero _)
  | .null, n, fuel + 1, r => fun _ _ _ => by
    have hs : isSpace 'n' = false := by decide
    rw [spelled_null hl, List.cons_append]
    simp only [value?, skipSpace_cons hs]
    exact literal?_append "ull" .null r
  | .bool true, n, fuel + 1, r => fun _ _ _ => by
    have hs : isSpace 't' = false := by decide
    rw [spelled_true hl, List.cons_append]
    simp only [value?, skipSpace_cons hs]
    exact literal?_append "rue" (.bool true) r
  | .bool false, n, fuel + 1, r => fun _ _ _ => by
    have hs : isSpace 'f' = false := by decide
    rw [spelled_false hl, List.cons_append]
    simp only [value?, skipSpace_cons hs]
    exact literal?_append "alse" (.bool false) r
  | .fraction, _, _ + 1, _ | .numbered _, _, _ + 1, _ | .unreadable, _, _ + 1, _ =>
    fun hw _ _ => by simp [isWritable] at hw
  | .int i, n, fuel + 1, r => fun hw hr _ => by
    rw [isWritable, decide_eq_true_eq] at hw
    rw [chars.eq_def]
    change value? cset (fuel + 1) (spelled cset (Text.intText i).toList ++ r) = _
    rw [spelled_ascii hl (intText_ascii i), value?_int hw fuel hr]
  | .str s, n, fuel + 1, r => fun _ _ _ => by
    rw [chars.eq_def]
    exact value?_str hl s fuel r
  | .arr [], n, fuel + 1, r => fun _ _ _ => by
    have hs : isSpace '[' = false := by decide
    have hs' : isSpace ']' = false := by decide
    rw [chars, spelled_ascii hl (Text.forall_of_all (by decide))]
    simp only [List.cons_append, List.nil_append, value?, skipSpace_cons hs, skipSpace_cons hs']
  | .arr (v :: vs), n, fuel + 1, r => fun hw _ hf => by
    have hs : isSpace '[' = false := by decide
    rw [isWritable, areWritable, Bool.and_eq_true] at hw
    rw [chars, spelled_cons hl (by decide), spelled_append, spelled_append,
      spelled_gap hl (sp.line_blank _)] at hf ⊢
    simp only [List.length_cons, List.length_append] at hf
    obtain ⟨c, cs, hc, he, hk⟩ := skipSpace_chars hl sp (n + 1) v (sp.line_blank (n + 1))
      (spelled cset (itemChars sp n vs) ++ r)
    have hv := value?_chars hl sp v (n + 1) fuel (spelled cset (itemChars sp n vs) ++ r) hw.1
      (endsNumber_itemChars hl sp n vs r) (by omega)
    have hi := items?_chars hl sp vs n fuel r hw.2 (by omega)
    rw [he, List.cons_append] at hv
    simp only [List.cons_append, List.append_assoc, value?, skipSpace_cons hs, hk]
    split
    · rename_i h
      exact absurd (List.cons.inj h).1 hc.facts.2.2.1
    · rw [hv]
      simp [hi]
  | .obj [], n, fuel + 1, r => fun _ _ _ => by
    have hs : isSpace '\x7b' = false := by decide
    have hs' : isSpace '\x7d' = false := by decide
    rw [chars, spelled_ascii hl (Text.forall_of_all (by decide))]
    simp only [List.cons_append, List.nil_append, value?, skipSpace_cons hs, skipSpace_cons hs']
  | .obj ((k, v) :: ms), n, fuel + 1, r => fun hw _ hf => by
    have hs : isSpace '\x7b' = false := by decide
    rw [isWritable, membersWritable, Bool.and_eq_true] at hw
    rw [chars, spelled_cons hl (by decide), spelled_append, spelled_append,
      spelled_cons hl (by decide), spelled_append, spelled_append,
      spelled_gap hl (sp.line_blank _), spelled_gap hl sp.colon_blank] at hf ⊢
    simp only [List.length_cons, List.length_append] at hf
    obtain ⟨m, hm⟩ : ∃ m, fuel = m + 1 := ⟨fuel - 1, by omega⟩
    have hv := value?_chars hl sp v (n + 1) m (spelled cset (memberChars sp n ms) ++ r) hw.1
      (endsNumber_memberChars hl sp n ms r) (by omega)
    have h1 := member1?_cons hl (b := []) (by simp) sp.colon_blank k hv
    have hms := members?_chars hl sp ms n fuel r hw.2 (by omega)
    have hq : isSpace '"' = false := by decide
    rw [List.nil_append, spelled_stringText hl, ← hm] at h1
    simp only [List.cons_append, List.append_assoc, value?, skipSpace_cons hs,
      skipSpace_gap (sp.line_blank _), spelled_stringText hl, skipSpace_cons hq]
    split
    · rename_i h
      exact absurd (List.cons.inj h).1 (by decide)
    · rw [h1, ← ofMembers_some ((k, v) :: ms)]
      simp [hms]

theorem items?_chars (hl : cset.Lawful) (sp : Spacing) :
    ∀ (vs : List Json) (n fuel : Nat) (r : List Char), areWritable vs = true →
      (spelled cset (itemChars sp n vs)).length < fuel →
      items? cset fuel (spelled cset (itemChars sp n vs) ++ r) = some (vs, r)
  | _, _, 0, _ => fun _ hf => absurd hf (Nat.not_lt_zero _)
  | [], n, fuel + 1, r => fun _ _ => by
    have hs : isSpace ']' = false := by decide
    rw [itemChars, spelled_append, spelled_gap hl (sp.line_blank n), spelled_lone hl (by decide),
      List.append_assoc]
    simp only [items?, skipSpace_gap (sp.line_blank n), List.cons_append, List.nil_append,
      skipSpace_cons hs]
  | v :: vs, n, fuel + 1, r => fun hw hf => by
    have hs : isSpace ',' = false := by decide
    rw [areWritable, Bool.and_eq_true] at hw
    rw [itemChars, spelled_cons hl (by decide), spelled_append, spelled_append,
      spelled_gap hl (sp.line_blank _)] at hf ⊢
    simp only [List.length_cons, List.length_append] at hf
    have hv := value?_chars hl sp v (n + 1) fuel (spelled cset (itemChars sp n vs) ++ r) hw.1
      (endsNumber_itemChars hl sp n vs r) (by omega)
    have hi := items?_chars hl sp vs n fuel r hw.2 (by omega)
    simp only [List.cons_append, List.append_assoc, items?, skipSpace_cons hs,
      value?_gap (sp.line_blank _), hv, Option.bind_eq_bind, Option.bind_some, hi]
    rfl

theorem members?_chars (hl : cset.Lawful) (sp : Spacing) :
    ∀ (ms : List (String × Json)) (n fuel : Nat) (r : List Char), membersWritable ms = true →
      (spelled cset (memberChars sp n ms)).length < fuel →
      members? cset fuel (spelled cset (memberChars sp n ms) ++ r) =
        some (ms.map fun m => (some m.1, m.2), r)
  | _, _, 0, _ => fun _ hf => absurd hf (Nat.not_lt_zero _)
  | [], n, fuel + 1, r => fun _ _ => by
    have hs : isSpace '\x7d' = false := by decide
    rw [memberChars, spelled_append, spelled_gap hl (sp.line_blank n),
      spelled_lone hl (by decide), List.append_assoc]
    simp only [members?, skipSpace_gap (sp.line_blank n), List.cons_append, List.nil_append,
      skipSpace_cons hs]
    rfl
  | (k, v) :: ms, n, fuel + 1, r => fun hw hf => by
    have hs : isSpace ',' = false := by decide
    rw [membersWritable, Bool.and_eq_true] at hw
    rw [memberChars, spelled_cons hl (by decide), spelled_append, spelled_append,
      spelled_cons hl (by decide), spelled_append, spelled_append,
      spelled_gap hl (sp.line_blank _), spelled_gap hl sp.colon_blank] at hf ⊢
    simp only [List.length_cons, List.length_append] at hf
    obtain ⟨m, hm⟩ : ∃ m, fuel = m + 1 := ⟨fuel - 1, by omega⟩
    have hv := value?_chars hl sp v (n + 1) m (spelled cset (memberChars sp n ms) ++ r) hw.1
      (endsNumber_memberChars hl sp n ms r) (by omega)
    have h1 := member1?_cons hl (sp.line_blank (n + 1)) sp.colon_blank k hv
    have hms := members?_chars hl sp ms n fuel r hw.2 (by omega)
    rw [← hm] at h1
    simp only [List.cons_append, List.append_assoc, members?, skipSpace_cons hs, h1,
      Option.bind_eq_bind, Option.bind_some, hms]
    rfl

end

theorem read?_chars (hl : cset.Lawful) (sp : Spacing) {v : Json} (hw : v.isWritable = true) :
    read? cset (spelled cset (chars sp 0 v)) = some v := by
  have h := value?_chars hl sp v 0 ((spelled cset (chars sp 0 v)).length + 1) [] hw .nil (by omega)
  rw [List.append_nil] at h
  rw [read?, h]
  rfl

/-- The compact text of a value is read back from its bytes. -/
theorem ofBytes?_compact {v : Json} (hw : v.isWritable = true) :
    ofBytes? (Key.textBytes v.compact) = some v := by
  rw [ofBytes?, compact, ← Charset.utf8_spelling, compactChars_eq 0]
  exact read?_chars Charset.utf8_lawful .none hw

/-- The indented text of a value is read back from its bytes. -/
theorem ofBytes?_pretty {v : Json} (hw : v.isWritable = true) :
    ofBytes? (Key.textBytes v.pretty) = some v := by
  rw [ofBytes?, pretty, ← Charset.utf8_spelling, prettyChars_eq 0]
  exact read?_chars Charset.utf8_lawful .indented hw

/-- An indented text is read back. -/
theorem ofText?_pretty {v : Json} (hw : v.isWritable = true) : ofText? v.pretty = some v := by
  have h := read?_chars Charset.plain_lawful .indented hw
  rw [spelled, show Charset.plain.spell = fun c => [c] from rfl, List.flatMap_singleton'] at h
  rw [ofText?, pretty, String.toList_ofList, prettyChars_eq 0]
  exact h

end CredentialEngine.Json
