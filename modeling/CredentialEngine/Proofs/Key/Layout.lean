import CredentialEngine.Proofs.Key.Bundle

/-!
# Bundles in other layouts

Reading looks only at what is left of each line without the blanks around it, and passes over lines
of which nothing is left. So line ends, indentation, padding, blank lines and free text before the
blocks make no difference to what a bundle is read as.
-/
namespace CredentialEngine.Key.Bundle

open Text (parts trimChars isBlank)

/-! ## What reading looks at -/

/-- What is left of the lines of a text without the blanks around them, where anything is. -/
def content (cs : List Char) : List (List Char) :=
  ((splitLines cs).map trimChars).filter fun l => !l.isEmpty

/-- The lines of a text are its parts between line feeds, up to an empty last one. -/
theorem parts_eq_splitLines (cs : List Char) :
    parts '\n' cs = splitLines cs ∨ parts '\n' cs = splitLines cs ++ [[]] := by
  induction cs with
  | nil => exact .inr rfl
  | cons c cs ih =>
    rw [parts, splitLines]
    by_cases hc : c = '\n'
    · rw [if_pos hc, if_pos hc]
      exact ih.imp (congrArg _) (congrArg _)
    · rw [if_neg hc, if_neg hc]
      cases hlines : splitLines cs with
      | nil =>
        rw [hlines] at ih
        rcases ih with h | h <;> rw [h] <;> exact .inl rfl
      | cons l ls =>
        rw [hlines] at ih
        rcases ih with h | h <;> rw [h]
        · exact .inl rfl
        · exact .inr rfl

theorem content_eq_parts (cs : List Char) :
    content cs = ((parts '\n' cs).map trimChars).filter fun l => !l.isEmpty := by
  rcases parts_eq_splitLines cs with h | h
  · rw [h, content]
  · rw [h, content, List.map_append, List.filter_append]
    exact (List.append_nil _).symm

theorem content_nil : content [] = [] := rfl

theorem content_append_newline (cs ds : List Char) :
    content (cs ++ '\n' :: ds) = content cs ++ content ds := by
  rw [content_eq_parts, Text.parts_append_separator, List.map_append, List.filter_append,
    ← content_eq_parts, ← content_eq_parts]

/-- The content of a text within one line. -/
theorem content_of_oneLine {cs : List Char} (h : '\n' ∉ cs) :
    content cs = if (trimChars cs).isEmpty then [] else [trimChars cs] := by
  rw [content_eq_parts, Text.parts_of_notMem h]
  cases he : (trimChars cs).isEmpty <;> simp [he]

theorem content_cons_blank {c : Char} (hc : isBlank c = true) (cs : List Char) :
    content (c :: cs) = content cs := by
  by_cases hn : c = '\n'
  · subst hn
    exact content_append_newline [] cs
  · obtain ⟨p, ps, hparts⟩ := Text.exists_parts_cons '\n' cs
    have htrim : trimChars (c :: p) = trimChars p := by
      rw [trimChars, trimChars, List.dropWhile_cons_of_pos hc]
    rw [content_eq_parts, content_eq_parts, parts, if_neg hn, hparts]
    simp only [List.map_cons, htrim]

theorem content_concat_blank {c : Char} (hc : isBlank c = true) (cs : List Char) :
    content (cs ++ [c]) = content cs := by
  by_cases hn : c = '\n'
  · subst hn
    rw [content_append_newline, content_nil, List.append_nil]
  · -- any other blank joins the last line, and trimming takes it off again
    obtain ⟨ps, p, hparts⟩ := Text.exists_last_part '\n' cs
    have hplain := hparts [] List.not_mem_nil
    have hlonger := hparts [c] (by simpa using Ne.symm hn)
    have htrim : trimChars (p ++ [c]) = trimChars p :=
      @Text.trimChars_among_blanks [] [c] nofun (by simpa using hc) p
    rw [List.append_nil, List.append_nil] at hplain
    rw [content_eq_parts, content_eq_parts, hplain, hlonger]
    simp only [List.map_append, List.map_cons, htrim]

/-- Blanks around a text, line feeds among them, do not change its content. -/
theorem content_among_blanks {before after : List Char} (hb : ∀ c ∈ before, isBlank c = true)
    (ha : ∀ c ∈ after, isBlank c = true) (cs : List Char) :
    content (before ++ cs ++ after) = content cs := by
  have hleading : content (before ++ cs) = content cs := by
    induction before with
    | nil => rfl
    | cons c before ih =>
      rw [List.forall_mem_cons] at hb
      rw [List.cons_append, content_cons_blank hb.1, ih hb.2]
  rw [← hleading]
  generalize before ++ cs = ds
  induction after generalizing ds with
  | nil => rw [List.append_nil]
  | cons c after ih =>
    rw [List.forall_mem_cons] at ha
    rw [← List.singleton_append, ← List.append_assoc, ih ha.2, content_concat_blank ha.1]

theorem content_trimChars (cs : List Char) : content (trimChars cs) = content cs := by
  obtain ⟨before, after, hb, ha, he⟩ := Text.exists_blanks cs
  conv => rhs; rw [he]
  rw [content_among_blanks hb ha]

/-! ## Blocks in the content -/

/-- The content of a text decides where its blocks are. -/
theorem blockAfter?_content {marker : String} (hm : marker.toList.isPrefixOf [] = false)
    (cs : List Char) :
    blockAfter? marker ((splitLines cs).map trimChars) = blockAfter? marker (content cs) := by
  rw [content]
  induction (splitLines cs).map trimChars with
  | nil => rfl
  | cons l ls ih =>
    cases l with
    | nil =>
      rw [blockAfter?_cons_of_other ls hm, List.filter_cons_of_neg (by decide), ih]
    | cons c l =>
      rw [List.filter_cons_of_pos rfl]
      cases hl : marker.toList.isPrefixOf (c :: l) with
      | false => rw [blockAfter?_cons_of_other _ hl, blockAfter?_cons_of_other _ hl, ih]
      | true =>
        -- the rest of the search looks for a line that is not empty, so nothing is lost
        have hdrop : ∀ rest, ((c :: l) :: rest).dropWhile (fun l => !marker.toList.isPrefixOf l) =
            (c :: l) :: rest := fun rest => List.dropWhile_cons_of_neg (by rw [hl]; decide)
        simp only [blockAfter?, hdrop, List.find?_filter, and_self, Bool.decide_eq_true]

theorem blockAfter?_append_of_others {marker : String} {others : List (List Char)}
    (h : ∀ l ∈ others, marker.toList.isPrefixOf l = false) (ls : List (List Char)) :
    blockAfter? marker (others ++ ls) = blockAfter? marker ls := by
  induction others with
  | nil => rfl
  | cons l others ih =>
    rw [List.forall_mem_cons] at h
    rw [List.cons_append, blockAfter?_cons_of_other _ h.1, ih h.2]

/-- No line of a list opens a block. -/
def Unmarked (ls : List (List Char)) : Prop :=
  ∀ l ∈ ls, tokenOpening.toList.isPrefixOf l = false ∧ seedOpening.toList.isPrefixOf l = false

/-- Texts with the same content, but for lines that open no block before it, are read alike. -/
theorem parse_eq_of_content {s s' : String} {others : List (List Char)} (h : Unmarked others)
    (hc : content s.toList = others ++ content s'.toList) : parse s = parse s' := by
  have htoken : blockAfter? tokenOpening (content s.toList) =
      blockAfter? tokenOpening (content s'.toList) := by
    rw [hc, blockAfter?_append_of_others fun l hl => (h l hl).1]
  have hseed : blockAfter? seedOpening (content s.toList) =
      blockAfter? seedOpening (content s'.toList) := by
    rw [hc, blockAfter?_append_of_others fun l hl => (h l hl).2]
  simp only [parse, blockAfter?_content (show tokenOpening.toList.isPrefixOf [] = false by decide),
    blockAfter?_content (show seedOpening.toList.isPrefixOf [] = false by decide), htoken, hseed]

/-! ## Layouts -/

/-- How a line may end. -/
def lineEnds : List (List Char) :=
  [['\n'], ['\r', '\n']]

/-- Blanks within a line. -/
def IsSpacing (cs : List Char) : Prop :=
  ∀ c ∈ cs, isBlank c = true ∧ c ≠ '\n'

/-- A text shows lines in their order, each indented, padded and ended in any way, with any blank
lines before, between and after them. -/
inductive LaidOut : List (List Char) → List Char → Prop
  | nil : LaidOut [] []
  | blank {ls : List (List Char)} {text spacing ending : List Char} (hs : IsSpacing spacing)
      (he : ending ∈ lineEnds) (h : LaidOut ls text) : LaidOut ls (spacing ++ ending ++ text)
  | line {ls : List (List Char)} {l text indent padding ending : List Char} (hi : IsSpacing indent)
      (hp : IsSpacing padding) (he : ending ∈ lineEnds) (h : LaidOut ls text) :
      LaidOut (l :: ls) (indent ++ l ++ padding ++ ending ++ text)

/-- Lines of free text: none of them opens a block. -/
inductive Preamble : List Char → Prop
  | nil : Preamble []
  | line {l text ending : List Char} (hl : '\n' ∉ l)
      (ht : tokenOpening.toList.isPrefixOf (trimChars l) = false)
      (hs : seedOpening.toList.isPrefixOf (trimChars l) = false) (he : ending ∈ lineEnds)
      (h : Preamble text) : Preamble (l ++ ending ++ text)

/-- A text shows a bundle: after free text, the lines of the bundle in some layout. -/
def Shows (b : Bundle) (text : String) : Prop :=
  ∃ preamble body, Preamble preamble ∧ LaidOut (b.lines.map String.toList) body ∧
    text.toList = preamble ++ body

/-- A line end separates contents, and a carriage return belongs to the padding of its line. -/
theorem content_line {ending : List Char} (he : ending ∈ lineEnds) (cs text : List Char) :
    content (cs ++ ending ++ text) = content cs ++ content text := by
  have hends : ending = ['\n'] ∨ ending = ['\r', '\n'] := by simpa [lineEnds] using he
  rcases hends with rfl | rfl
  · rw [List.append_assoc]
    exact content_append_newline cs text
  · have hreturn : content (cs ++ ['\r']) = content cs := content_concat_blank (by decide) cs
    rw [← hreturn, ← content_append_newline]
    simp only [List.append_assoc, List.cons_append, List.nil_append]

theorem IsSpacing.blank {cs : List Char} (h : IsSpacing cs) : ∀ c ∈ cs, isBlank c = true :=
  fun c hc => (h c hc).1

theorem LaidOut.content {ls : List (List Char)} {text : List Char} (h : LaidOut ls text) :
    content text = ls.flatMap content := by
  induction h with
  | nil => rfl
  | @blank ls text spacing ending hs he _ ih =>
    have hnone : Bundle.content spacing = [] := by
      have hblank := @content_among_blanks spacing [] hs.blank nofun []
      rwa [List.append_nil, List.append_nil] at hblank
    rw [content_line he, hnone, List.nil_append, ih]
  | line hi hp he _ ih =>
    rw [content_line he, content_among_blanks hi.blank hp.blank, ih, List.flatMap_cons]

theorem Preamble.content {preamble : List Char} (h : Preamble preamble) :
    ∃ others, Unmarked others ∧
      ∀ body, content (preamble ++ body) = others ++ content body := by
  induction h with
  | nil => exact ⟨[], nofun, fun _ => rfl⟩
  | @line l text ending hl ht hs he _ ih =>
    obtain ⟨others, hothers, hcontent⟩ := ih
    refine ⟨Bundle.content l ++ others, fun l' hl' => ?_, fun body => ?_⟩
    · rcases List.mem_append.mp hl' with hl' | hl'
      · rw [content_of_oneLine hl] at hl'
        split at hl'
        · contradiction
        · exact List.mem_singleton.mp hl' ▸ ⟨ht, hs⟩
      · exact hothers l' hl'
    · rw [List.append_assoc, content_line he, hcontent, List.append_assoc]

/-- Lines that are indented, padded and ended in one way are laid out. -/
theorem laidOut_flatMap {indent padding ending : List Char} (hi : IsSpacing indent)
    (hp : IsSpacing padding) (he : ending ∈ lineEnds) (ls : List (List Char)) :
    LaidOut ls (ls.flatMap fun l => indent ++ l ++ padding ++ ending) := by
  induction ls with
  | nil => exact .nil
  | cons l ls ih => exact .line hi hp he ih

/-- The characters of lines that are written one after the other. -/
theorem toList_join_map {f : String → String} {g : List Char → List Char}
    (h : ∀ l, (f l).toList = g l.toList) (ls : List String) :
    (String.join (ls.map f)).toList = (ls.map String.toList).flatMap g := by
  rw [String.toList_join, List.flatMap_map, List.flatMap_map]
  exact List.flatMap_congr fun l _ => h l

/-- A bundle is laid out in its own format. -/
theorem laidOut_format (b : Bundle) : LaidOut (b.lines.map String.toList) b.format.toList := by
  have hlaid := @laidOut_flatMap [] [] ['\n'] nofun nofun List.mem_cons_self
    (b.lines.map String.toList)
  simp only [List.nil_append, List.append_nil] at hlaid
  have hchars : b.format.toList = (b.lines.map String.toList).flatMap (· ++ ['\n']) :=
    @toList_join_map (· ++ "\n") (· ++ ['\n']) (fun _ => String.toList_append) b.lines
  rwa [hchars]

/-! ## Reading what is shown -/

/-- A text that shows a bundle is read as the bundle's own format is. -/
theorem parse_of_shows {b : Bundle} {text : String} (h : Shows b text) :
    parse text = parse b.format := by
  -- both texts have the bundle's content; the one that shows it has other lines before
  obtain ⟨preamble, body, hpreamble, hbody, htext⟩ := h
  obtain ⟨others, hothers, hcontent⟩ := hpreamble.content
  refine parse_eq_of_content hothers ?_
  rw [htext, hcontent, hbody.content, (laidOut_format b).content]

/-- Blanks around a seed, line feeds among them, are not part of what is read. -/
theorem parse_format_trim (token seed : String) :
    parse (format ⟨token, seed⟩) = parse (format ⟨token, Text.trim seed⟩) := by
  refine parse_eq_of_content (show Unmarked [] from nofun) ?_
  rw [(laidOut_format _).content, (laidOut_format _).content, List.nil_append]
  simp only [lines, List.map_cons, List.flatMap_cons, Text.trim, String.toList_ofList,
    content_trimChars]

/-- A text is the seed of a user: a key pair is read from the whole of it, and the public text of
that has the letter of a user. -/
def IsSeedText (seed : String) : Prop :=
  ∃ p, Pair.ofSeedText seed = .ok p ∧ Pair.startsWith p.publicText userLead = true

/-- The seeds that reading a bundle accepts are the seeds of users with blanks around them. -/
theorem isUserSeed_iff {seed : String} : isUserSeed seed = true ↔ IsSeedText (Text.trim seed) := by
  rw [isUserSeed, IsSeedText]
  cases Pair.ofSeedText (Text.trim seed) with
  | ok p => simp only [Except.ok.injEq, exists_eq_left']
  | error fault => simp only [Bool.false_eq_true, reduceCtorEq, false_and, exists_false]

theorem IsSeedText.isPayload {seed : String} (h : IsSeedText seed) : IsPayload seed := by
  obtain ⟨p, hread, -⟩ := h
  obtain ⟨bytes, rfl⟩ := Pair.checkedText_of_ofSeedText hread
  exact isPayload_checkedText bytes

theorem IsSeedText.trim {seed : String} (h : IsSeedText seed) : Text.trim seed = seed := by
  rw [Text.trim, h.isPayload.trimmed, String.ofList_toList]

/-- A token that fills one line and a user's seed are read back from the format of their bundle and
from every text that shows it. Where the seed was put there with blanks around it, they are left
out. -/
theorem parse_shown {token seed : String} (ht : IsPayload token) (hs : IsSeedText seed) :
    parse (format ⟨token, seed⟩) = .ok ⟨token, seed⟩ ∧
      (∀ text, Shows ⟨token, seed⟩ text → parse text = .ok ⟨token, seed⟩) ∧
      ∀ padded, Text.trim padded = seed →
        ∀ text, Shows ⟨token, padded⟩ text → parse text = .ok ⟨token, seed⟩ := by
  have hformat : parse (format ⟨token, seed⟩) = .ok ⟨token, seed⟩ :=
    parse_format ht hs.isPayload (isUserSeed_iff.mpr (hs.trim.symm ▸ hs))
  refine ⟨hformat, fun text hshows => ?_, fun padded hpadded text hshows => ?_⟩
  · rw [parse_of_shows hshows, hformat]
  · rw [parse_of_shows hshows, parse_format_trim, hpadded, hformat]

/-- The bundle of a user whose seed is thirty-two bytes of seven. -/
def parcels : Bundle :=
  ⟨"eyJhbGciOi.payload.sig", "SUAAOBYHA4DQOBYHA4DQOBYHA4DQOBYHA4DQOBYHA4DQOBYHA4DQOBZ5FE"⟩

/-- Below a heading and an empty line, all lines are indented, padded and end in carriage return and
line feed. -/
def parcelsShown : String :=
  "Issued for parcels.\r\n \n" ++
    String.join (parcels.lines.map fun l => "  " ++ l ++ "\t\r\n")

theorem parcels_seed : IsSeedText parcels.seed := by
  obtain ⟨text, htext, hpayload, huser, -⟩ :=
    seedText?_user (List.length_replicate : (List.replicate 32 (7 : UInt8)).length = 32)
  have hseed : (Pair.ofSeed .user (List.replicate 32 7)).seedText? = some parcels.seed := by
    decide +kernel
  obtain rfl := Option.some.inj (hseed.symm.trans htext)
  have htrimmed := isUserSeed_iff.mp huser
  rwa [Text.trim, hpayload.trimmed, String.ofList_toList] at htrimmed

theorem shows_parcels : Shows parcels parcelsShown := by
  have hindent : IsSpacing [' ', ' '] := Text.forall_of_all (by decide)
  have hpadding : IsSpacing ['\t'] := Text.forall_of_all (by decide)
  have hempty : IsSpacing [' '] := Text.forall_of_all (by decide)
  have hfeed : ['\n'] ∈ lineEnds := by decide
  have hreturn : ['\r', '\n'] ∈ lineEnds := by decide
  have hheading : Preamble ("Issued for parcels.".toList ++ ['\r', '\n'] ++ []) :=
    .line (by decide) (by decide) (by decide) hreturn .nil
  have hline : ∀ l, ("  " ++ l ++ "\t\r\n").toList =
      [' ', ' '] ++ l.toList ++ ['\t'] ++ ['\r', '\n'] := by
    intro l
    rw [String.toList_append, String.toList_append, List.append_assoc _ ['\t']]
    rfl
  have hstart : "Issued for parcels.\r\n \n".toList =
      "Issued for parcels.".toList ++ ['\r', '\n'] ++ [] ++ ([' '] ++ ['\n']) := by decide
  have hlines := @toList_join_map (fun l => "  " ++ l ++ "\t\r\n")
    (fun l => [' ', ' '] ++ l ++ ['\t'] ++ ['\r', '\n']) hline parcels.lines
  have hchars := String.toList_append.trans (congrArg₂ List.append hstart hlines)
  exact ⟨_, _, hheading, .blank hempty hfeed (laidOut_flatMap hindent hpadding hreturn _),
    hchars.trans (List.append_assoc ..)⟩

theorem parse_shown_parcels :
    IsPayload parcels.token ∧ IsSeedText parcels.seed ∧ parse parcels.format = .ok parcels ∧
      parse parcelsShown = .ok parcels :=
  have ht : IsPayload parcels.token :=
    ⟨by decide, by decide +kernel, by decide, by decide⟩
  have hread := parse_shown ht parcels_seed
  ⟨ht, parcels_seed, hread.1, hread.2.1 parcelsShown shows_parcels⟩

end CredentialEngine.Key.Bundle
