import CredentialEngine.Yaml.Scalar
import CredentialEngine.Yaml.Token

/-!
# From characters to tokens

Columns tell where block collections begin and end. A scalar or a collection may turn out to be a
mapping key when a colon follows it, on the same line and within 1024 characters; until then its
place among the tokens is remembered, one for the block and one for each open flow collection, and
the tokens that announce a key are put there afterwards.
-/
namespace CredentialEngine.Yaml

/-- The beginning of what may turn out to be a mapping key. -/
structure PossibleKey where
  /-- Nothing but a key can stand there. -/
  required : Bool
  /-- The number of tokens before it. -/
  tokens : Nat
  place : Place
  deriving DecidableEq, Repr

structure Lexer where
  cursor : Cursor
  tokens : Array Token := #[]
  /-- The column of the innermost block collection. -/
  indent : Int := -1
  /-- The columns of the block collections around it. -/
  outer : List Int := []
  /-- Whether a key may begin at the next token. -/
  keyAllowed : Bool := true
  /-- The latest possible key of the innermost flow collection, of those around it, and of the
  block. -/
  keys : List (Option PossibleKey) := [none]

namespace Lexer

def inFlow (l : Lexer) : Bool :=
  1 < l.keys.length

def push (l : Lexer) (t : Token) : Lexer :=
  { l with tokens := l.tokens.push t }

/-- Adds a token that is written in `n` characters. -/
def pushOver (l : Lexer) (n : Nat) (t : Token) : Lexer :=
  { l with tokens := l.tokens.push t, cursor := l.cursor.skip n }

def allowKey (l : Lexer) (b : Bool) : Lexer :=
  { l with keyAllowed := b }

/-! ## Keys -/

/-- The greatest number of characters from the beginning of a key to its colon. -/
def keyLimit : Nat := 1024

/-- Gives up the latest possible key, which may not be a required one. -/
def dropKey? (l : Lexer) : Option Lexer :=
  match l.keys with
  | some k :: ks => if k.required then none else some { l with keys := none :: ks }
  | _ => some l

def saveKey? (l : Lexer) : Option Lexer :=
  if l.keyAllowed then do
    let l ← l.dropKey?
    let k : PossibleKey := {
      required := !l.inFlow && l.indent == l.cursor.column
      tokens := l.tokens.size
      place := l.cursor.place }
    return { l with keys := some k :: l.keys.drop 1 }
  else some l

/-- A possible key is out of reach at a later place. -/
def PossibleKey.isStale (k : PossibleKey) (p : Place) : Bool :=
  k.place.line < p.line || k.place.offset + keyLimit < p.offset

/-- Gives up the possible keys that are out of reach, none of which may be a required one. -/
def dropStaleKeys? (l : Lexer) : Option Lexer := do
  let keys ← l.keys.mapM fun k? =>
    match k? with
    | none => some none
    | some k =>
      if PossibleKey.isStale k l.cursor.place then if k.required then none else some none
      else some (some k)
  return { l with keys }

/-! ## Indentation -/

/-- The number of collections that end left of a column, and the columns that remain. -/
def endsAt (column : Int) : Int → List Int → Nat × Int × List Int
  | indent, [] => (0, indent, [])
  | indent, o :: os =>
    if column < indent then
      let (n, r) := endsAt column o os
      (n + 1, r)
    else (0, indent, o :: os)

/-- Ends the block collections that begin right of a column. -/
def unroll (l : Lexer) (column : Int) : Lexer :=
  if l.inFlow then l
  else
    let (n, indent, outer) := endsAt column l.indent l.outer
    { l with tokens := l.tokens ++ Array.replicate n .blockEnd, indent, outer }

/-- Begins a block collection, after `n` tokens, unless there is one at its column. -/
def roll (l : Lexer) (column : Nat) (n : Nat) (t : Token) : Lexer :=
  if l.inFlow || column ≤ l.indent then l
  else { l with
    tokens := l.tokens.insertIdxIfInBounds n t, indent := column, outer := l.indent :: l.outer }

/-- Begins a block collection with the next token, which has to be in a place where a key may
begin. -/
def rollHere? (l : Lexer) (t : Token) : Option Lexer :=
  if l.inFlow then some l
  else if l.keyAllowed then some (l.roll l.cursor.column l.tokens.size t)
  else none

/-! ## Directives and marks -/

/-- A number of up to nine digits. -/
def versionNumber? (cs : List Char) : Option (Nat × List Char) :=
  let run := cs.takeWhile Char.isDigit
  if run.isEmpty || 9 < run.length then none
  else some (Text.digitsVal 0 run, cs.dropWhile Char.isDigit)

/-- The directive that comes next, after its percent sign. -/
def directive? (cs : List Char) : Option (Token × List Char) := do
  let name := cs.takeWhile isNameChar
  let r := cs.dropWhile isNameChar
  if !atGap r then none
  let r := r.dropWhile isBlank
  if name = "YAML".toList then
    let (major, r) ← versionNumber? r
    if r.head? != some '.' then none
    let (minor, r) ← versionNumber? (r.drop 1)
    return (.version major minor, r)
  else if name = "TAG".toList then
    let (handle, r) ← Tag.handle? true r
    if !r.head?.any isBlank then none
    let (lead, r) ← Tag.chars? true 0 (r.dropWhile isBlank)
    if lead.isEmpty || !atGap r then none
    return (.handle (String.ofList handle) (String.ofList lead), r)
  else none

/-- Ends all block collections, before a directive or a mark. -/
def leave? (l : Lexer) : Option Lexer := do
  return (← (l.unroll (-1)).dropKey?).allowKey false

def readDirective? (l : Lexer) : Option Lexer := do
  let l ← l.leave?
  let (t, r) ← directive? (l.cursor.rest.drop 1)
  let r := skipComment (r.dropWhile isBlank)
  if !atBreak r then none
  return { l.push t with cursor := (l.cursor.moveTo r).skipBreak }

/-! ## Single tokens -/

def openFlow? (l : Lexer) (t : Token) : Option Lexer := do
  let l ← l.saveKey?
  return ({ l with keys := none :: l.keys }.allowKey true).pushOver 1 t

def closeFlow? (l : Lexer) (t : Token) : Option Lexer := do
  let l ← l.dropKey?
  return ({ l with keys := if l.inFlow then l.keys.drop 1 else l.keys }.allowKey false).pushOver 1 t

def readItem? (l : Lexer) : Option Lexer := do
  let l ← (← l.rollHere? .blockSequence).dropKey?
  return (l.allowKey true).pushOver 1 .item

def readKey? (l : Lexer) : Option Lexer := do
  let l ← (← l.rollHere? .blockMapping).dropKey?
  return (l.allowKey !l.inFlow).pushOver 1 .key

/-- The colon of a value: what may have been a key is one now, or the key is empty or has been
announced. -/
def readValue? (l : Lexer) : Option Lexer :=
  match l.keys with
  | some k :: ks =>
    let l := { l with tokens := l.tokens.insertIdxIfInBounds k.tokens .key, keys := none :: ks }
    some (((l.roll k.place.column k.tokens .blockMapping).allowKey false).pushOver 1 .value)
  | _ => do
    let l ← l.rollHere? .blockMapping
    return (l.allowKey !l.inFlow).pushOver 1 .value

/-- A name after its indicator; it is followed by a gap or by one of a few indicators. -/
def readName? (l : Lexer) (make : String → Token) : Option Lexer := do
  let l := (← l.saveKey?).allowKey false
  let name := (l.cursor.rest.drop 1).takeWhile isNameChar
  let r := (l.cursor.rest.drop 1).dropWhile isNameChar
  if name.isEmpty then none
  else if atGap r || (r.head?.any fun c => "?:,]\x7d%@\x60".toList.contains c) then
    return l.pushOver (name.length + 1) (make (String.ofList name))
  else none

def readTag? (l : Lexer) : Option Lexer := do
  let l := (← l.saveKey?).allowKey false
  let (t, r) ← Tag.next? l.inFlow l.cursor.rest
  return { l.push (.tag t) with cursor := l.cursor.moveTo r }

def readBlock? (l : Lexer) (folded : Bool) : Option Lexer := do
  let l := (← l.dropKey?).allowKey true
  let (t, cursor) ← block? folded l.indent l.cursor
  return { l.push (.scalar false (String.ofList t)) with cursor }

def readQuoted? (l : Lexer) (double : Bool) : Option Lexer := do
  let l := (← l.saveKey?).allowKey false
  let (t, cursor) ← quoted? double l.cursor
  return { l.push (.scalar false (String.ofList t)) with cursor }

def readPlain? (l : Lexer) : Option Lexer := do
  let l := (← l.saveKey?).allowKey false
  let e ← plain? l.inFlow (l.indent + 1) l.cursor
  return { l.push (.scalar true (String.ofList e.text)) with
    cursor := e.cursor
    keyAllowed := e.broken }

/-! ## The whole stream -/

/-- Moves to the next token: over spaces, comments and ends of lines. Tabs are passed over where no
key may begin. In a block each line may begin with a key. -/
def skipToToken : Nat → Lexer → Lexer
  | 0, l => l
  | fuel + 1, l =>
    let c := l.cursor.skipWhile fun x => x == ' ' || (x == '\t' && (l.inFlow || !l.keyAllowed))
    let c := c.moveTo (skipComment c.rest)
    match c.rest with
    | b :: _ =>
      if isBreak b then
        skipToToken fuel { l with cursor := c.skip 1, keyAllowed := l.keyAllowed || !l.inFlow }
      else { l with cursor := c }
    | [] => { l with cursor := c }

/-- The characters that no plain scalar begins with. -/
def indicators : List Char :=
  "-?:,[]\x7b\x7d#&*!|>'\"%@\x60".toList

/-- Reads the token that begins with `c`, after which `cs` follows. -/
def readToken? (l : Lexer) (c : Char) (cs : List Char) : Option Lexer :=
  if l.cursor.column == 0 && c == '%' then l.readDirective?
  else if l.cursor.atDocumentMark then do
    return (← l.leave?).pushOver 3 (if c == '-' then .documentStart else .documentEnd)
  else
    match c with
    | '[' => l.openFlow? .flowSequence
    | '\x7b' => l.openFlow? .flowMapping
    | ']' => l.closeFlow? .flowSequenceEnd
    | '\x7d' => l.closeFlow? .flowMappingEnd
    | ',' => do return ((← l.dropKey?).allowKey true).pushOver 1 .separator
    | '*' => l.readName? .alias
    | '&' => l.readName? .anchor
    | '!' => l.readTag?
    | '\'' => l.readQuoted? false
    | '"' => l.readQuoted? true
    | c =>
      if c == '-' && atGap cs then l.readItem?
      else if c == '?' && (l.inFlow || atGap cs) then l.readKey?
      else if c == ':' && (l.inFlow || atGap cs) then l.readValue?
      else if (c == '|' || c == '>') && !l.inFlow then l.readBlock? (c == '>')
      else if isGap c then none
      else if !indicators.contains c || c == '-' || (!l.inFlow && (c == '?' || c == ':')) then
        l.readPlain?
      else none

/-- Reads tokens up to the end of the stream. -/
def run? : Nat → Lexer → Option (Array Token)
  | 0, _ => none
  | fuel + 1, l => do
    let l := l.skipToToken (l.cursor.rest.length + 1)
    let l := (← l.dropStaleKeys?).unroll l.cursor.column
    match l.cursor.rest with
    | [] => return (← (l.unroll (-1)).dropKey?).tokens
    | c :: cs => run? fuel (← l.readToken? c cs)

end Lexer

def Token.ofText? (s : String) : Option (List Token) :=
  let cs := s.toList
  if cs.all isAllowed then
    (Lexer.run? (cs.length + 1) { cursor := { rest := unifyBreaks cs } }).map Array.toList
  else none

end CredentialEngine.Yaml
