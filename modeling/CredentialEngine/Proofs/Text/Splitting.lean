import CredentialEngine.Text.Blank
import CredentialEngine.Text.Parts

/-!
# Trimming and splitting

Trimming takes the blanks around a text away and nothing else. A text falls into just those pieces
without a separator that make it up when they are joined.
-/
namespace CredentialEngine.Text

/-! ## Runs -/

section Runs

variable {p : Char → Bool} {run rest : List Char} (hrun : ∀ c ∈ run, p c = true)
  (hrest : ∀ c ∈ rest.head?, p c = false)

include hrun hrest

theorem takeWhile_run : (run ++ rest).takeWhile p = run := by
  have hnil : rest.takeWhile p = [] := by
    cases rest with
    | nil => rfl
    | cons c rest => rw [List.takeWhile_cons, hrest c rfl]; rfl
  rw [List.takeWhile_append_of_pos hrun, hnil, List.append_nil]

theorem dropWhile_run : (run ++ rest).dropWhile p = rest := by
  have hsame : rest.dropWhile p = rest := by
    cases rest with
    | nil => rfl
    | cons c rest => rw [List.dropWhile_cons, hrest c rfl]; rfl
  rw [List.dropWhile_append_of_pos hrun, hsame]

end Runs

theorem of_mem_head?_dropWhile {p : Char → Bool} {cs : List Char} {c : Char}
    (h : c ∈ (cs.dropWhile p).head?) : p c = false := by
  have hnot := List.head?_dropWhile_not p cs
  rwa [Option.mem_def.mp h] at hnot

theorem drop_length_takeWhile (p : Char → Bool) (cs : List Char) :
    cs.drop (cs.takeWhile p).length = cs.dropWhile p := by
  calc cs.drop (cs.takeWhile p).length
      = (cs.takeWhile p ++ cs.dropWhile p).drop (cs.takeWhile p).length := by
        rw [List.takeWhile_append_dropWhile]
    _ = cs.dropWhile p := List.drop_left' rfl

theorem exists_dropEndWhile (p : Char → Bool) (cs : List Char) :
    ∃ after, (∀ c ∈ after, p c = true) ∧ cs = dropEndWhile p cs ++ after := by
  refine ⟨(cs.reverse.takeWhile p).reverse, fun c hc => ?_, ?_⟩
  · exact List.all_eq_true.mp List.all_takeWhile c (List.mem_reverse.mp hc)
  · rw [dropEndWhile, ← List.reverse_append, List.takeWhile_append_dropWhile, List.reverse_reverse]

theorem dropEndWhile_append {p : Char → Bool} {cs after : List Char}
    (hafter : ∀ c ∈ after, p c = true) (hlast : ∀ c ∈ cs.getLast?, p c = false) :
    dropEndWhile p (cs ++ after) = cs := by
  have hrun : ∀ c ∈ after.reverse, p c = true := fun c hc => hafter c (List.mem_reverse.mp hc)
  have hrest : ∀ c ∈ cs.reverse.head?, p c = false := by
    rw [List.head?_reverse]
    exact hlast
  rw [dropEndWhile, List.reverse_append, dropWhile_run hrun hrest, List.reverse_reverse]

/-! ## Trimming -/

theorem eq_nil_of_blank {cs : List Char} (hblank : ∀ c ∈ cs, isBlank c = true)
    (hunblank : ∀ c ∈ cs, isBlank c = false) : cs = [] :=
  List.eq_nil_iff_forall_not_mem.mpr fun c hc =>
    Bool.false_ne_true ((hunblank c hc).symm.trans (hblank c hc))

/-- Trimming takes off blanks only. -/
theorem exists_blanks (cs : List Char) :
    ∃ before after, (∀ c ∈ before, isBlank c = true) ∧ (∀ c ∈ after, isBlank c = true) ∧
      cs = before ++ trimChars cs ++ after := by
  obtain ⟨after, hafter, hrest⟩ := exists_dropEndWhile isBlank (cs.dropWhile isBlank)
  refine ⟨cs.takeWhile isBlank, after, fun c hc => ?_, hafter, ?_⟩
  · exact List.all_eq_true.mp List.all_takeWhile c hc
  · rw [trimChars, List.append_assoc, ← hrest, List.takeWhile_append_dropWhile]

/-- A text is another one among blanks, and the other one neither starts nor ends with a blank. -/
structure Trims (cs ds : List Char) : Prop where
  padded : ∃ before after, (∀ c ∈ before, isBlank c = true) ∧ (∀ c ∈ after, isBlank c = true) ∧
    cs = before ++ ds ++ after
  head : ∀ c ∈ ds.head?, isBlank c = false
  last : ∀ c ∈ ds.getLast?, isBlank c = false

theorem trims_trimChars (cs : List Char) : Trims cs (trimChars cs) where
  padded := exists_blanks cs
  head c hc := by
    have hprefix : trimChars cs <+: cs.dropWhile isBlank := by
      rw [trimChars, dropEndWhile, ← List.reverse_suffix, List.reverse_reverse]
      exact List.dropWhile_suffix isBlank
    obtain ⟨after, hafter⟩ := hprefix
    apply @of_mem_head?_dropWhile isBlank cs
    rw [← hafter, List.head?_append, Option.mem_def.mp hc]
    rfl
  last c hc := by
    rw [trimChars, dropEndWhile, List.getLast?_reverse] at hc
    exact of_mem_head?_dropWhile hc

theorem Trims.trimChars_eq {cs ds : List Char} (h : Trims cs ds) : trimChars cs = ds := by
  obtain ⟨before, after, hb, ha, rfl⟩ := h.padded
  cases ds with
  | nil =>
    have hall : ∀ c ∈ before ++ after, isBlank c = true := fun c hc =>
      (List.mem_append.mp hc).elim (hb c) (ha c)
    have hnil := dropWhile_run hall (@nofun : ∀ c ∈ ([] : List Char).head?, isBlank c = false)
    rw [List.append_nil] at hnil ⊢
    rw [trimChars, hnil]
    rfl
  | cons d ds =>
    have hfirst : ∀ c ∈ (d :: ds ++ after).head?, isBlank c = false := h.head
    rw [trimChars, List.append_assoc, dropWhile_run hb hfirst, dropEndWhile_append ha h.last]

/-- A text without blanks is what remains of it among blanks. -/
theorem trimChars_padded {before cs after : List Char} (hb : ∀ c ∈ before, isBlank c = true)
    (ha : ∀ c ∈ after, isBlank c = true) (hc : ∀ c ∈ cs, isBlank c = false) :
    trimChars (before ++ cs ++ after) = cs :=
  Trims.trimChars_eq ⟨⟨before, after, hb, ha, rfl⟩, fun c h => hc c (List.mem_of_mem_head? h),
    fun c h => hc c (List.mem_of_mem_getLast? h)⟩

/-- Blanks around a text make no difference to what trimming leaves. -/
theorem trimChars_among_blanks {before after : List Char} (hb : ∀ c ∈ before, isBlank c = true)
    (ha : ∀ c ∈ after, isBlank c = true) (cs : List Char) :
    trimChars (before ++ cs ++ after) = trimChars cs := by
  obtain ⟨⟨before', after', hb', ha', he⟩, hhead, hlast⟩ := trims_trimChars cs
  refine Trims.trimChars_eq
    ⟨⟨before ++ before', after' ++ after, fun c hc => ?_, fun c hc => ?_, ?_⟩, hhead, hlast⟩
  · exact (List.mem_append.mp hc).elim (hb c) (hb' c)
  · exact (List.mem_append.mp hc).elim (ha' c) (ha c)
  · conv => lhs; rw [he]
    simp only [List.append_assoc]

theorem trimChars_of_unblank {cs : List Char} (hc : ∀ c ∈ cs, isBlank c = false) :
    trimChars cs = cs := by
  have h := @trimChars_padded [] cs [] nofun nofun hc
  rwa [List.nil_append, List.append_nil] at h

/-! ## Splitting -/

theorem parts_of_notMem {separator : Char} {cs : List Char} (h : separator ∉ cs) :
    parts separator cs = [cs] := by
  induction cs with
  | nil => rfl
  | cons c cs ih =>
    rw [List.mem_cons, not_or] at h
    rw [parts, if_neg (Ne.symm h.1), ih h.2]

theorem exists_parts_cons (separator : Char) (cs : List Char) :
    ∃ p ps, parts separator cs = p :: ps := by
  induction cs with
  | nil => exact ⟨[], [], rfl⟩
  | cons c cs ih =>
    obtain ⟨p, ps, hparts⟩ := ih
    by_cases hc : c = separator
    · exact ⟨[], p :: ps, by rw [parts, if_pos hc, hparts]⟩
    · exact ⟨c :: p, ps, by rw [parts, if_neg hc, hparts]⟩

/-- A separator ends the parts before it and starts those after it. -/
theorem parts_append_separator (separator : Char) (cs ds : List Char) :
    parts separator (cs ++ separator :: ds) = parts separator cs ++ parts separator ds := by
  induction cs with
  | nil =>
    change parts separator (separator :: ds) = [] :: parts separator ds
    rw [parts, if_pos rfl]
  | cons c cs ih =>
    obtain ⟨p, ps, hparts⟩ := exists_parts_cons separator cs
    rw [List.cons_append, parts, parts, ih, hparts]
    by_cases hc : c = separator
    · rw [if_pos hc, if_pos hc]
      rfl
    · rw [if_neg hc, if_neg hc]
      rfl

/-- A piece without the separator is split off before the first one. -/
theorem parts_append {separator : Char} {cs : List Char} (h : separator ∉ cs) (ds : List Char) :
    parts separator (cs ++ separator :: ds) = cs :: parts separator ds := by
  rw [parts_append_separator, parts_of_notMem h, List.singleton_append]

/-- What follows a text without a separator belongs to its last part. -/
theorem exists_last_part (separator : Char) (cs : List Char) :
    ∃ ps p, ∀ ds, separator ∉ ds → parts separator (cs ++ ds) = ps ++ [p ++ ds] := by
  induction cs with
  | nil => exact ⟨[], [], fun ds hds => parts_of_notMem hds⟩
  | cons c cs ih =>
    obtain ⟨ps, p, hparts⟩ := ih
    by_cases hc : c = separator
    · exact ⟨[] :: ps, p, fun ds hds => by
        rw [List.cons_append, parts, if_pos hc, hparts ds hds, List.cons_append]⟩
    · cases ps with
      | nil => exact ⟨[], c :: p, fun ds hds => by
          rw [List.cons_append, parts, if_neg hc, hparts ds hds]
          rfl⟩
      | cons q ps => exact ⟨(c :: q) :: ps, p, fun ds hds => by
          rw [List.cons_append, parts, if_neg hc, hparts ds hds]
          rfl⟩

/-- Joining the parts gives the text back. -/
theorem intercalate_parts (separator : Char) (cs : List Char) :
    [separator].intercalate (parts separator cs) = cs := by
  induction cs with
  | nil => rfl
  | cons c cs ih =>
    obtain ⟨p, ps, hparts⟩ := exists_parts_cons separator cs
    rw [hparts] at ih
    by_cases hc : c = separator
    · rw [parts, if_pos hc, hparts, List.intercalate_cons_cons, ih, hc]
      rfl
    · rw [parts, if_neg hc, hparts]
      cases ps with
      | nil =>
        rw [List.intercalate_singleton] at ih ⊢
        rw [ih]
      | cons q ps =>
        rw [List.intercalate_cons_cons] at ih ⊢
        rw [List.cons_append, List.cons_append, ih]

theorem notMem_of_mem_parts {separator : Char} {cs p : List Char} (h : p ∈ parts separator cs) :
    separator ∉ p := by
  induction cs generalizing p with
  | nil =>
    rw [List.mem_singleton.mp h]
    exact List.not_mem_nil
  | cons c cs ih =>
    obtain ⟨q, ps, hparts⟩ := exists_parts_cons separator cs
    rw [hparts] at ih
    by_cases hc : c = separator
    · rw [parts, if_pos hc, hparts] at h
      rcases List.mem_cons.mp h with rfl | h
      · exact List.not_mem_nil
      · exact ih h
    · rw [parts, if_neg hc, hparts] at h
      rcases List.mem_cons.mp h with rfl | h
      · rw [List.mem_cons, not_or]
        exact ⟨Ne.symm hc, ih List.mem_cons_self⟩
      · exact ih (List.mem_cons_of_mem q h)

/-- A text falls into just those parts that hold no separator and make it up when joined. -/
theorem parts_eq_iff {separator : Char} {cs p : List Char} {ps : List (List Char)} :
    parts separator cs = p :: ps ↔
      (∀ q ∈ p :: ps, separator ∉ q) ∧ cs = [separator].intercalate (p :: ps) := by
  constructor
  · intro h
    rw [← h]
    exact ⟨fun q hq => notMem_of_mem_parts hq, (intercalate_parts separator cs).symm⟩
  · rintro ⟨hall, rfl⟩
    induction ps generalizing p with
    | nil => rw [List.intercalate_singleton, parts_of_notMem (hall p List.mem_cons_self)]
    | cons q ps ih =>
      rw [List.forall_mem_cons] at hall
      rw [List.intercalate_cons_cons, List.append_assoc, List.singleton_append,
        parts_append hall.1, ih hall.2]

/-- What stands before a separator that no other follows. -/
theorem beforeLast_append {separator : Char} {ds : List Char} (h : separator ∉ ds)
    (cs : List Char) : beforeLast separator (cs ++ separator :: ds) = cs := by
  have hrun : ∀ c ∈ ds.reverse, decide (c ≠ separator) = true := fun c hc =>
    decide_eq_true fun he => h (he ▸ List.mem_reverse.mp hc)
  have hstop : ∀ c ∈ (separator :: cs.reverse).head?, decide (c ≠ separator) = false := by
    intro c hc
    rw [← Option.some.inj hc]
    exact decide_eq_false fun hne => hne rfl
  have hrev : (cs ++ separator :: ds).reverse = ds.reverse ++ separator :: cs.reverse := by
    rw [List.reverse_append, List.reverse_cons, List.append_assoc, List.singleton_append]
  rw [beforeLast, hrev, dropWhile_run hrun hstop, List.drop_one, List.tail_cons,
    List.reverse_reverse]

end CredentialEngine.Text
