import CredentialEngine.Json.Reader
import CredentialEngine.Json.Writer
import CredentialEngine.Proofs.Text.Bytes

/-!
# Strings in a medium

A medium is lawful when it shows ASCII characters as themselves, spells every other character
without ASCII, and gives the text back from the spelling. Plain text and UTF-8 octets are such
media. In a lawful medium the body of a written string is read back, up to its closing quote.
-/
namespace CredentialEngine

/-- What the reader needs of a medium. -/
structure Charset.Lawful (cset : Charset) : Prop where
  ascii : ∀ c : Char, c.toNat < 0x80 → cset.spell c = [c]
  beyond : ∀ c : Char, 0x80 ≤ c.toNat → ∀ d ∈ cset.spell c, 0x80 ≤ d.toNat
  text : ∀ cs : List Char, cset.text? (cs.flatMap cset.spell) = some (String.ofList cs)

theorem Charset.plain_lawful : Charset.plain.Lawful where
  ascii _ _ := rfl
  beyond c hc d hd := by
    obtain rfl := List.mem_singleton.mp hd
    exact hc
  text cs := by
    change some (String.ofList (cs.flatMap fun c => [c])) = _
    rw [List.flatMap_singleton']

theorem Charset.utf8_spell (c : Char) :
    Charset.utf8.spell c = (String.utf8EncodeChar c).map Char.ofUInt8 := by
  change ((String.singleton c).toUTF8.data.toList).map Char.ofUInt8 = _
  rw [Text.toUTF8_singleton]

/-- The octets that spell a text are its bytes. -/
theorem Charset.utf8_spelling (cs : List Char) :
    cs.flatMap Charset.utf8.spell = (Key.textBytes (String.ofList cs)).map Char.ofUInt8 := by
  rw [Text.textBytes_ofList, List.map_flatMap]
  exact congrArg cs.flatMap (funext Charset.utf8_spell)

theorem Charset.utf8_lawful : Charset.utf8.Lawful where
  ascii c hc := by
    rw [utf8_spell, Text.utf8EncodeChar_of_lt hc, List.map_singleton, Text.ofUInt8_ofNat hc]
  beyond c hc d hd := by
    rw [utf8_spell] at hd
    obtain ⟨b, hb, rfl⟩ := List.mem_map.mp hd
    rw [Text.toNat_ofUInt8]
    exact Text.le_of_mem_utf8EncodeChar hc hb
  text cs := by
    rw [utf8_spelling]
    change String.fromUTF8? ⟨((List.map Char.ofUInt8 _).map Char.toUInt8).toArray⟩ = _
    have hm : ((Key.textBytes (String.ofList cs)).map Char.ofUInt8).map Char.toUInt8 =
        Key.textBytes (String.ofList cs) := by
      rw [List.map_map, show Char.toUInt8 ∘ Char.ofUInt8 = id from funext Text.toUInt8_ofUInt8,
        List.map_id]
    rw [hm, Text.textBytes_ofList, Text.fromUTF8?_flatMap]

namespace Json

variable {cset : Charset}

/-- The spelling of a character list. -/
abbrev spelled (cset : Charset) (cs : List Char) : List Char :=
  cs.flatMap cset.spell

/-- A run of ASCII characters is its own spelling. -/
theorem spelled_ascii (hl : cset.Lawful) {cs : List Char} (h : ∀ c ∈ cs, c.toNat < 0x80) :
    spelled cset cs = cs := by
  induction cs with
  | nil => rfl
  | cons c cs ih =>
    rw [spelled, List.flatMap_cons, hl.ascii c (h c (by simp)), ← spelled,
      ih fun d hd => h d (by simp [hd])]
    rfl

/-- The characters that a written string shows by a letter after a backslash. -/
def lettered : List Char := ['"', '\\', '\x08', '\x0c', '\n', '\r', '\t']

theorem lettered_ascii : ∀ c ∈ lettered, c.toNat < 0x80 := Text.forall_of_all (by decide)

/-- The pieces that the reader makes of one written character. -/
def piecesOf (cset : Charset) (c : Char) : List Piece :=
  if c ∉ lettered ∧ c.toNat < 0x20 then [.unit c.toNat] else (cset.spell c).map .raw

/-! ## From the written body to pieces -/

theorem hexVal?_digitChar : ∀ d < 16, hexVal? (Nat.digitChar d) = some d := by decide

theorem hex4?_control {n : Nat} (hn : n < 0x20) :
    hex4? '0' '0' (hexDigit (n / 16)) (hexDigit (n % 16)) = some n := by
  have h0 : hexVal? '0' = some 0 := by decide
  have h1 : hexVal? (hexDigit (n / 16)) = some (n / 16) := hexVal?_digitChar _ (by omega)
  have h2 : hexVal? (hexDigit (n % 16)) = some (n % 16) := hexVal?_digitChar _ (by omega)
  have he : ((0 * 16 + 0) * 16 + n / 16) * 16 + n % 16 = n := by omega
  unfold hex4?
  rw [h0, h1, h2]
  change some (((0 * 16 + 0) * 16 + n / 16) * 16 + n % 16) = some n
  rw [he]

/-- The reader takes a character of the medium that is neither quote, backslash nor control as it
stands. -/
theorem pieces?_cons {c : Char} (hq : c ≠ '"') (hb : c ≠ '\\') (hc : 0x20 ≤ c.toNat)
    (cs : List Char) :
    pieces? (c :: cs) = (pieces? cs).map fun p => (.raw c :: p.1, p.2) := by
  rw [pieces?.eq_def]
  split
  · contradiction
  · simp_all
  · simp_all
  · simp_all
  · rename_i h
    obtain ⟨rfl, rfl⟩ := List.cons.inj h
    rw [if_neg (by omega)]
    cases pieces? cs <;> rfl

theorem pieces?_raw {ds : List Char}
    (h : ∀ d ∈ ds, d ≠ '"' ∧ d ≠ '\\' ∧ 0x20 ≤ d.toNat) (r : List Char) :
    pieces? (ds ++ r) = (pieces? r).map fun p => (ds.map .raw ++ p.1, p.2) := by
  induction ds with
  | nil => cases hp : pieces? r <;> simp [hp]
  | cons d ds ih =>
    obtain ⟨hq, hb, hc⟩ := h d (by simp)
    rw [List.cons_append, pieces?_cons hq hb hc, ih fun e he => h e (by simp [he]), Option.map_map]
    rfl

/-- A character that is written as it stands is spelled without quote, backslash and control. -/
theorem spell_plain (hl : cset.Lawful) {c : Char} (hn : c ∉ lettered) (hc : 0x20 ≤ c.toNat) :
    ∀ d ∈ cset.spell c, d ≠ '"' ∧ d ≠ '\\' ∧ 0x20 ≤ d.toNat := by
  intro d hd
  by_cases ha : c.toNat < 0x80
  · rw [hl.ascii c ha] at hd
    obtain rfl := List.mem_singleton.mp hd
    exact ⟨fun h => hn (by simp [h, lettered]), fun h => hn (by simp [h, lettered]), hc⟩
  · have hb := hl.beyond c (by omega) d hd
    refine ⟨?_, ?_, by omega⟩ <;> rintro rfl <;> exact absurd hb (by decide)

theorem escapeChar_plain {c : Char} (hn : c ∉ lettered) (hc : 0x20 ≤ c.toNat) :
    escapeChar c = [c] := by
  simp only [lettered, List.mem_cons, List.not_mem_nil, or_false, not_or] at hn
  unfold escapeChar
  split <;> simp_all

theorem escapeChar_control {c : Char} (hn : c ∉ lettered) (hc : c.toNat < 0x20) :
    escapeChar c = ['\\', 'u', '0', '0', hexDigit (c.toNat / 16), hexDigit (c.toNat % 16)] := by
  simp only [lettered, List.mem_cons, List.not_mem_nil, or_false, not_or] at hn
  unfold escapeChar
  split <;> simp_all

theorem digitChar_ascii : ∀ d < 16, (Nat.digitChar d).toNat < 0x80 := by decide

theorem pieces?_lettered (hl : cset.Lawful) {c : Char} (hm : c ∈ lettered) (r : List Char) :
    pieces? (spelled cset (escapeChar c) ++ r) =
      (pieces? r).map fun p => (piecesOf cset c ++ p.1, p.2) := by
  have hp : piecesOf cset c = [.raw c] := by
    rw [piecesOf, if_neg fun h => h.1 hm, hl.ascii c (lettered_ascii c hm), List.map_singleton]
  rw [hp]
  simp only [lettered, List.mem_cons, List.not_mem_nil, or_false] at hm
  rcases hm with rfl | rfl | rfl | rfl | rfl | rfl | rfl <;>
  · rw [spelled_ascii hl (Text.forall_of_all (by decide))]
    simp only [escapeChar, List.cons_append, List.nil_append]
    cases h : pieces? r <;> simp [pieces?, escaped?, h]

/-- Reading one written character. -/
theorem pieces?_escapeChar (hl : cset.Lawful) (c : Char) (r : List Char) :
    pieces? (spelled cset (escapeChar c) ++ r) =
      (pieces? r).map fun p => (piecesOf cset c ++ p.1, p.2) := by
  by_cases hm : c ∈ lettered
  · exact pieces?_lettered hl hm r
  · by_cases hc : c.toNat < 0x20
    · have hd : ∀ d ∈ escapeChar c, d.toNat < 0x80 := by
        rw [escapeChar_control hm hc]
        have h1 := digitChar_ascii (c.toNat / 16) (by omega)
        have h2 := digitChar_ascii (c.toNat % 16) (by omega)
        simp only [List.mem_cons, List.not_mem_nil, or_false]
        rintro d (rfl | rfl | rfl | rfl | rfl | rfl)
        all_goals first
          | decide
          | assumption
      rw [spelled_ascii hl hd, escapeChar_control hm hc, piecesOf, if_pos ⟨hm, hc⟩]
      simp only [List.cons_append, List.nil_append, pieces?, hex4?_control hc]
      cases pieces? r <;> rfl
    · have hs := spell_plain hl hm (by omega)
      rw [escapeChar_plain hm (by omega), piecesOf, if_neg fun h => hc h.2, spelled,
        List.flatMap_singleton, pieces?_raw hs]

/-- Reading the body of a written string, up to its closing quote. -/
theorem pieces?_escaped (hl : cset.Lawful) (cs r : List Char) :
    pieces? (spelled cset (cs.flatMap escapeChar) ++ '"' :: r) =
      some (cs.flatMap (piecesOf cset), r) := by
  induction cs with
  | nil => rw [List.flatMap_nil, spelled, List.flatMap_nil, List.nil_append, pieces?]; rfl
  | cons c cs ih =>
    rw [List.flatMap_cons, spelled, List.flatMap_append, List.append_assoc, ← spelled, ← spelled,
      pieces?_escapeChar hl, ih]
    rfl

/-! ## From pieces to the text -/

theorem spelling?_raw (ds : List Char) (ps : List Piece) :
    spelling? cset (ds.map .raw ++ ps) = (spelling? cset ps).map (ds ++ ·) := by
  induction ds with
  | nil => cases h : spelling? cset ps <;> simp [h]
  | cons d ds ih =>
    rw [List.map_cons, List.cons_append, spelling?, ih, Option.map_map]
    rfl

/-- A code unit below the surrogates stands for its character, whatever follows. -/
theorem spelling?_unit {n : Nat} (hn : n < 0xD800) (ps : List Piece) :
    spelling? cset (.unit n :: ps) =
      (spelling? cset ps).map (cset.spell (Char.ofNat n) ++ ·) := by
  have hlead : isLead n = false := by simp [isLead]; omega
  have htrail : isTrail n = false := by simp [isTrail]; omega
  cases ps with
  | nil => simp [spelling?, hlead, htrail]
  | cons p ps => cases p <;> simp [spelling?, hlead, htrail]

theorem spelling?_piecesOf (c : Char) (ps : List Piece) :
    spelling? cset (piecesOf cset c ++ ps) = (spelling? cset ps).map (cset.spell c ++ ·) := by
  unfold piecesOf
  split
  · rename_i h
    rw [List.singleton_append, spelling?_unit (by omega), Char.ofNat_toNat]
  · exact spelling?_raw _ ps

theorem spelling?_flatMap (cs : List Char) :
    spelling? cset (cs.flatMap (piecesOf cset)) = some (spelled cset cs) := by
  induction cs with
  | nil => rfl
  | cons c cs ih =>
    rw [List.flatMap_cons, spelling?_piecesOf, ih]
    rfl

/-- A written string denotes its text. -/
theorem bodyText?_piecesOf (hl : cset.Lawful) (s : String) :
    bodyText? cset (s.toList.flatMap (piecesOf cset)) = some s := by
  rw [bodyText?, spelling?_flatMap]
  change cset.text? (s.toList.flatMap cset.spell) = some s
  rw [hl.text, String.ofList_toList]

end Json

end CredentialEngine
