import CredentialEngine.Key.Bundle
import CredentialEngine.Proofs.Key.Text

/-!
# Bundles are read back

A bundle whose token and seed each fill one line gives them back: the lines come apart again, the
block markers are found where they were written, and the free text between the blocks is passed
over.
-/
namespace CredentialEngine.Key.Bundle

/-- A text that a block can hold: one line that is not blank, no blanks around it, no row of
dashes. -/
structure IsPayload (s : String) : Prop where
  oneLine : '\n' ∉ s.toList
  trimmed : Text.trimChars s.toList = s.toList
  nonempty : s.toList.isEmpty = false
  noDashes : ['-', '-', '-'].isPrefixOf s.toList = false

/-! ## Lines -/

theorem splitLines_append {l : List Char} (h : '\n' ∉ l) (rest : List Char) :
    splitLines (l ++ '\n' :: rest) = l :: splitLines rest := by
  induction l with
  | nil => rw [List.nil_append, splitLines, if_pos rfl]
  | cons c l ih =>
    rw [List.mem_cons, not_or] at h
    rw [List.cons_append, splitLines, if_neg (Ne.symm h.1), ih h.2]

/-- Lines that are joined come apart again. -/
theorem splitLines_join {ls : List String} (h : ∀ l ∈ ls, '\n' ∉ l.toList) :
    splitLines (String.join (ls.map (· ++ "\n"))).toList = ls.map String.toList := by
  rw [String.toList_join, List.flatMap_map]
  induction ls with
  | nil => rfl
  | cons l ls ih =>
    rw [List.forall_mem_cons] at h
    rw [List.flatMap_cons, String.toList_append, List.append_assoc, List.map_cons, ← ih h.2]
    exact splitLines_append h.1 _

/-! ## Blocks -/

theorem blockAfter?_cons_of_other {marker : String} {l : List Char} (rest : List (List Char))
    (h : marker.toList.isPrefixOf l = false) :
    blockAfter? marker (l :: rest) = blockAfter? marker rest := by
  rw [blockAfter?, List.dropWhile_cons_of_pos (by rw [h]; decide), ← blockAfter?]

/-- The line after the marker is the block. -/
theorem blockAfter?_payload {marker s : String} {l : List Char} (rest : List (List Char))
    (h : marker.toList.isPrefixOf l = true) (hs : IsPayload s) :
    blockAfter? marker (l :: s.toList :: rest) = some s := by
  have hdrop : (l :: s.toList :: rest).dropWhile (fun l => !marker.toList.isPrefixOf l) =
      l :: s.toList :: rest := List.dropWhile_cons_of_neg (by rw [h]; decide)
  have hfind : (s.toList :: rest).find? (fun l => !l.isEmpty) = some s.toList :=
    List.find?_cons_of_pos (by rw [hs.nonempty]; rfl)
  simp only [blockAfter?, hdrop, hfind, hs.noDashes, Bool.false_eq_true, if_false,
    String.ofList_toList]

/-- A marker starts with dashes, and so no payload starts with it. -/
theorem not_marker_of_payload {marker s : String}
    (hm : ['-', '-', '-'].isPrefixOf marker.toList = true) (hs : IsPayload s) :
    marker.toList.isPrefixOf s.toList = false := by
  rw [← Bool.not_eq_true, List.isPrefixOf_iff_prefix]
  intro hp
  have hdashes := (List.isPrefixOf_iff_prefix.mp hm).trans hp
  rw [← List.isPrefixOf_iff_prefix, hs.noDashes] at hdashes
  exact Bool.false_ne_true hdashes

/-- Every line of a bundle is one line and has no blanks around it. -/
theorem lines_trimmed {b : Bundle} (ht : IsPayload b.token) (hs : IsPayload b.seed) :
    ∀ l ∈ b.lines, '\n' ∉ l.toList ∧ Text.trimChars l.toList = l.toList := by
  simp only [lines, List.forall_mem_cons]
  refine ⟨by decide, ⟨ht.oneLine, ht.trimmed⟩, by decide, by decide, by decide, by decide,
    by decide, by decide, by decide, ⟨hs.oneLine, hs.trimmed⟩, by decide, by decide, by decide, ?_⟩
  exact nofun

/-- The seed block is found behind the token block and the free text. -/
theorem blockAfter?_seed {b : Bundle} (ht : IsPayload b.token) (hs : IsPayload b.seed) :
    blockAfter? seedOpening (b.lines.map String.toList) = some b.seed := by
  have htoken : seedOpening.toList.isPrefixOf b.token.toList = false :=
    not_marker_of_payload (by decide) ht
  rw [lines, List.map_cons, blockAfter?_cons_of_other _ (by decide), List.map_cons,
    blockAfter?_cons_of_other _ htoken, List.map_cons, blockAfter?_cons_of_other _ (by decide),
    List.map_cons, blockAfter?_cons_of_other _ (by decide), List.map_cons,
    blockAfter?_cons_of_other _ (by decide), List.map_cons,
    blockAfter?_cons_of_other _ (by decide), List.map_cons,
    blockAfter?_cons_of_other _ (by decide), List.map_cons,
    blockAfter?_cons_of_other _ (by decide), List.map_cons, List.map_cons]
  exact blockAfter?_payload _ (by decide) hs

/-- The token and the seed of a bundle are read back. -/
theorem parse_format {b : Bundle} (ht : IsPayload b.token) (hs : IsPayload b.seed)
    (hseed : isUserSeed b.seed = true) : parse b.format = .ok b := by
  have hlines := lines_trimmed ht hs
  have htrimmed : (splitLines b.format.toList).map Text.trimChars = b.lines.map String.toList := by
    rw [format, splitLines_join fun l hl => (hlines l hl).1, List.map_map]
    exact List.map_congr_left fun l hl => (hlines l hl).2
  have htoken : blockAfter? tokenOpening (b.lines.map String.toList) = some b.token :=
    blockAfter?_payload _ (by decide) ht
  simp only [parse, htrimmed, htoken, blockAfter?_seed ht hs, hseed, if_true]

/-! ## Seeds -/

theorem isPayload_of_unblank {s : String} (hne : s.toList.isEmpty = false)
    (hc : ∀ c ∈ s.toList, Text.isBlank c = false)
    (hd : ['-', '-', '-'].isPrefixOf s.toList = false) : IsPayload s where
  oneLine h := absurd (hc _ h) (by decide)
  trimmed := Text.trimChars_of_unblank hc
  nonempty := hne
  noDashes := hd

theorem base32_noDash : ∀ c ∈ Encoding.Radix.base32.alphabet, c ≠ '-' :=
  Text.forall_of_all (by decide)

theorem isPayload_checkedText (bytes : List UInt8) : IsPayload (checkedText bytes) := by
  have hletter : ∀ c ∈ (checkedText bytes).toList, c ∈ Encoding.Radix.base32.alphabet := by
    intro c hc
    rw [checkedText, String.toList_ofList] at hc
    exact Encoding.Radix.base32_lawful.mem_alphabet hc
  have hlength : (checkedText bytes).toList.length = (8 * (bytes.length + 2) + 4) / 5 := by
    rw [checkedText, String.toList_ofList, Encoding.Radix.base32_lawful.length_encode,
      List.length_append, length_crcBytes]
    rfl
  cases hchars : (checkedText bytes).toList with
  | nil =>
    rw [hchars, List.length_nil] at hlength
    omega
  | cons c cs =>
    refine isPayload_of_unblank (by rw [hchars]; rfl) (fun d hd => base32_unblank d (hletter d hd))
      ?_
    have hdash : ('-' == c) = false :=
      beq_eq_false_iff_ne.mpr (base32_noDash c (hletter c (hchars ▸ List.mem_cons_self ..))).symm
    rw [hchars, List.isPrefixOf_cons_cons, hdash, Bool.false_and]

/-- The text of a user's seed fills a block, and reading it gives back the key pair. -/
theorem seedText?_user {seed : List UInt8} (hl : seed.length = 32) :
    ∃ text, (Pair.ofSeed .user seed).seedText? = some text ∧ IsPayload text ∧
      isUserSeed text = true ∧ Pair.ofSeedText text = .ok (Pair.ofSeed .user seed) := by
  obtain ⟨text, htext, htrim, hread⟩ := Pair.seedText?_ofSeed .user hl
  have hpayload : IsPayload text := Option.some.inj htext ▸ isPayload_checkedText _
  refine ⟨text, htext, hpayload, ?_, hread⟩
  have hletter : Encoding.Radix.base32.letter
      ((Encoding.bitsOf 8 Role.user.byte.toNat).take 5) = userLead := by decide
  have hlead : Pair.startsWith (Pair.ofSeed .user seed).publicText userLead = true :=
    hletter ▸ Pair.startsWith_publicText (Pair.ofSeed .user seed)
  rw [isUserSeed, htrim, hread]
  exact hlead

end CredentialEngine.Key.Bundle
