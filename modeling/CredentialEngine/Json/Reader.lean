import CredentialEngine.Json.Basic

/-!
# Reading JSON

A strict reader: no comments, no trailing commas, no leading zeros, nothing after the value. It
works on the characters of the medium, and a `Charset` tells how those spell the characters of a
text, so one reader serves both text and raw bytes.
-/
namespace CredentialEngine

/-- How a medium spells the characters of a text. -/
structure Charset where
  /-- The spelling of one character. -/
  spell : Char → List Char
  /-- The text that a run of spellings denotes, if it denotes one. -/
  text? : List Char → Option String

/-- Characters stand for themselves. -/
def Charset.plain : Charset where
  spell c := [c]
  text? cs := some (String.ofList cs)

/-- Octets, shown as the characters below U+0100, spell text in UTF-8. -/
def Charset.utf8 : Charset where
  spell c := (String.singleton c).toUTF8.data.toList.map Char.ofUInt8
  text? cs := String.fromUTF8? ⟨(cs.map Char.toUInt8).toArray⟩

namespace Json

def isSpace (c : Char) : Bool :=
  c == ' ' || c == '\n' || c == '\t' || c == '\r'

def skipSpace (cs : List Char) : List Char :=
  cs.dropWhile isSpace

/-- A part of a string body: a character of the medium, or a code unit given by number. -/
inductive Piece where
  | raw (c : Char)
  | unit (n : Nat)

/-- The value of a hexadecimal digit of either case. -/
def hexVal? (c : Char) : Option Nat :=
  if c.isDigit then some (c.toNat - '0'.toNat)
  else if 'a' ≤ c ∧ c ≤ 'f' then some (c.toNat - 'a'.toNat + 10)
  else if 'A' ≤ c ∧ c ≤ 'F' then some (c.toNat - 'A'.toNat + 10)
  else none

def hex4? (a b c d : Char) : Option Nat := do
  return (((← hexVal? a) * 16 + (← hexVal? b)) * 16 + (← hexVal? c)) * 16 + (← hexVal? d)

/-- The character that a one-letter escape stands for. -/
def escaped? : Char → Option Char
  | '"' => some '"'
  | '\\' => some '\\'
  | '/' => some '/'
  | 'b' => some '\x08'
  | 'f' => some '\x0c'
  | 'n' => some '\n'
  | 'r' => some '\r'
  | 't' => some '\t'
  | _ => none

/-- Splits a string body, after its opening quote, into pieces and the rest after the closing
quote. -/
def pieces? : List Char → Option (List Piece × List Char)
  | [] => none
  | '"' :: cs => some ([], cs)
  | '\\' :: 'u' :: a :: b :: c :: d :: cs => do
    let n ← hex4? a b c d
    let (ps, r) ← pieces? cs
    return (.unit n :: ps, r)
  | '\\' :: e :: cs => do
    let c ← escaped? e
    let (ps, r) ← pieces? cs
    return (.raw c :: ps, r)
  | c :: cs =>
    if c.toNat < 0x20 then none
    else do
      let (ps, r) ← pieces? cs
      return (.raw c :: ps, r)

def isLead (n : Nat) : Bool := 0xD800 ≤ n && n < 0xDC00

def isTrail (n : Nat) : Bool := 0xDC00 ≤ n && n < 0xE000

/-- The spelling that the pieces of a body denote. Code units above the basic plane come in pairs;
half a pair denotes nothing. -/
def spelling? (cset : Charset) : List Piece → Option (List Char)
  | [] => some []
  | .raw c :: ps => (spelling? cset ps).map (c :: ·)
  | .unit n :: .unit m :: ps =>
    if isLead n then
      if isTrail m then
        (spelling? cset ps).map
          (cset.spell (Char.ofNat (0x10000 + (n - 0xD800) * 0x400 + (m - 0xDC00))) ++ ·)
      else none
    else if isTrail n then none
    else (spelling? cset (.unit m :: ps)).map (cset.spell (Char.ofNat n) ++ ·)
  | .unit n :: ps =>
    if isLead n || isTrail n then none
    else (spelling? cset ps).map (cset.spell (Char.ofNat n) ++ ·)

/-- The text of a string body, if it denotes one. -/
def bodyText? (cset : Charset) (ps : List Piece) : Option String :=
  (spelling? cset ps).bind cset.text?

/-- Whether `mantissa · 10 ^ exponent` is too large for a binary64 number. -/
def exceedsBinary64 (mantissa : Nat) (exponent : Int) : Bool :=
  if mantissa = 0 then false
  else if 400 < exponent then true
  else if exponent < 0 then
    Nat.pow 10 (min exponent.natAbs (Nat.log2 mantissa)) * (Nat.pow 2 1024 - Nat.pow 2 970) ≤
      mantissa
  else Nat.pow 2 1024 - Nat.pow 2 970 ≤ mantissa * Nat.pow 10 exponent.natAbs

/-- The exponent part of a number, if there is one: its value and the rest. -/
def exponent? : List Char → Option (Option Int × List Char)
  | e :: cs =>
    if e = 'e' ∨ e = 'E' then
      let (sign, ds) : Int × List Char :=
        match cs with
        | '+' :: r => (1, r)
        | '-' :: r => (-1, r)
        | r => (1, r)
      let run := ds.takeWhile Char.isDigit
      if run.isEmpty then none
      else some (some (sign * Text.digitsVal 0 run), ds.dropWhile Char.isDigit)
    else some (none, e :: cs)
  | [] => some (none, [])

/-- The fraction part of a number, if there is one: its digits and the rest. -/
def fraction? : List Char → Option (Option (List Char) × List Char)
  | '.' :: cs =>
    let run := cs.takeWhile Char.isDigit
    if run.isEmpty then none else some (some run, cs.dropWhile Char.isDigit)
  | cs => some (none, cs)

/-- The integer part of a number: no leading zeros. -/
def wholePart? (cs : List Char) : Option (List Char × List Char) :=
  match cs with
  | '0' :: r =>
    match r with
    | d :: _ => if d.isDigit then none else some (['0'], r)
    | [] => some (['0'], [])
  | _ =>
    let run := cs.takeWhile Char.isDigit
    if run.isEmpty then none else some (run, cs.dropWhile Char.isDigit)

/-- A number after its sign. Minus zero is not an integer. -/
def unsigned? (negative : Bool) (cs : List Char) : Option (Json × List Char) := do
  let (whole, r₁) ← wholePart? cs
  let (frac, r₂) ← fraction? r₁
  let (exp, r₃) ← exponent? r₂
  let mantissa := Text.digitsVal 0 (whole ++ frac.getD [])
  let v : Json :=
    if exceedsBinary64 mantissa (exp.getD 0 - (frac.getD []).length) then .unreadable
    else
      match frac, exp, negative with
      | none, none, false => .int mantissa
      | none, none, true => if mantissa = 0 then .fraction else .int (-mantissa)
      | _, _, _ => .fraction
  return (v, r₃)

/-- Drops a literal that the text starts with. -/
def literal? (word : String) (v : Json) (cs : List Char) : Option (Json × List Char) :=
  if word.toList.isPrefixOf cs then some (v, cs.drop word.length) else none

mutual

/-- A value at the head of the text, and the rest. -/
def value? (cset : Charset) : Nat → List Char → Option (Json × List Char)
  | 0, _ => none
  | fuel + 1, cs =>
    match skipSpace cs with
    | 'n' :: r => literal? "ull" .null r
    | 't' :: r => literal? "rue" (.bool true) r
    | 'f' :: r => literal? "alse" (.bool false) r
    | '-' :: r => unsigned? true r
    | '"' :: r => do
      let (ps, r) ← pieces? r
      return (((bodyText? cset ps).map Json.str).getD .unreadable, r)
    | '[' :: r =>
      match skipSpace r with
      | ']' :: r => some (.arr [], r)
      | r => do
        let (v, r) ← value? cset fuel r
        let (vs, r) ← items? cset fuel r
        return (.arr (v :: vs), r)
    | '\x7b' :: r =>
      match skipSpace r with
      | '\x7d' :: r => some (.obj [], r)
      | r => do
        let (m, r) ← member1? cset fuel r
        let (ms, r) ← members? cset fuel r
        return (ofMembers (m :: ms), r)
    | r => unsigned? false r

/-- The items of an array after one item, and the rest after the closing bracket. -/
def items? (cset : Charset) : Nat → List Char → Option (List Json × List Char)
  | 0, _ => none
  | fuel + 1, cs =>
    match skipSpace cs with
    | ']' :: r => some ([], r)
    | ',' :: r => do
      let (v, r) ← value? cset fuel r
      let (vs, r) ← items? cset fuel r
      return (v :: vs, r)
    | _ => none

/-- One member of an object; its key is missing where it denotes no text. -/
def member1? (cset : Charset) : Nat → List Char → Option ((Option String × Json) × List Char)
  | 0, _ => none
  | fuel + 1, cs =>
    match skipSpace cs with
    | '"' :: r => do
      let (ps, r) ← pieces? r
      match skipSpace r with
      | ':' :: r => do
        let (v, r) ← value? cset fuel r
        return ((bodyText? cset ps, v), r)
      | _ => none
    | _ => none

/-- The members of an object after one member, and the rest after the closing brace. -/
def members? (cset : Charset) :
    Nat → List Char → Option (List (Option String × Json) × List Char)
  | 0, _ => none
  | fuel + 1, cs =>
    match skipSpace cs with
    | '\x7d' :: r => some ([], r)
    | ',' :: r => do
      let (m, r) ← member1? cset fuel r
      let (ms, r) ← members? cset fuel r
      return (m :: ms, r)
    | _ => none

/-- An object denotes nothing if one of its keys does. -/
def ofMembers (ms : List (Option String × Json)) : Json :=
  match ms.mapM fun m => m.1.map fun k => (k, m.2) with
  | some ms => .obj ms
  | none => .unreadable

end

def read? (cset : Charset) (cs : List Char) : Option Json :=
  match value? cset (cs.length + 1) cs with
  | some (v, r) => if (skipSpace r).isEmpty then some v else none
  | none => none

def ofText? (s : String) : Option Json :=
  read? .plain s.toList

/-- The value of a text given in bytes. -/
def ofBytes? (bytes : List UInt8) : Option Json :=
  read? .utf8 (bytes.map Char.ofUInt8)

end Json

end CredentialEngine
