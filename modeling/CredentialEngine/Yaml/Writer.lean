import CredentialEngine.Json.Writer
import CredentialEngine.Yaml.Char
import CredentialEngine.Yaml.Plain

/-!
# Writing YAML

Collections are written in block style, two columns per level, with the items of a sequence at the
column of the key above them. Texts stand without quotes where they read back as they are, and over
several lines where they hold line breaks; the style falls back to single and then to double quotes
where a simpler one cannot hold the text.
-/
namespace CredentialEngine.Yaml

/-! ## Styles of texts -/

inductive Style where
  | plain
  | single
  | double
  /-- Line by line. -/
  | literal
  deriving DecidableEq, Repr

/-- The characters that may be written as they are. -/
def isPrintable (c : Char) : Bool :=
  let n := c.toNat
  n == 0x0A || (0x20 ≤ n && n ≤ 0x7E) || (0xA0 ≤ n && n ≠ 0xFEFF && n ≠ 0xFFFE && n ≠ 0xFFFF)

/-- A character that stands directly before one of another class. -/
def hasPair (first second : Char → Bool) : List Char → Bool
  | a :: b :: cs => (first a && second b) || hasPair first second (b :: cs)
  | _ => false

/-- A colon before a gap, or a comment sign after one. -/
def hasInnerIndicator : List Char → Bool
  | [] => false
  | c :: cs => (c == ':' && atGap cs) || (isGap c && cs.head? == some '#') || hasInnerIndicator cs

/-- Without quotes the beginning would be taken for an indicator. -/
def beginsAsIndicator (cs : List Char) : Bool :=
  match cs with
  | [] => false
  | c :: r =>
    "#,[]\x7b\x7d&*!|>'\"%@\x60".toList.contains c ||
      ((c == '?' || c == ':' || c == '-') && atGap r) ||
      ['-', '-', '-'].isPrefixOf cs || ['.', '.', '.'].isPrefixOf cs

def isSpace (c : Char) : Bool :=
  c == ' '

/-- The text can stand without quotes as far as its characters are concerned. -/
def fitsPlain (cs : List Char) : Bool :=
  !(cs.any isBreak || cs.head?.any isSpace || cs.getLast?.any isSpace || beginsAsIndicator cs ||
    hasInnerIndicator cs)

def needsEscapes (cs : List Char) : Bool :=
  cs.any (fun c => !isPrintable c) || hasPair isSpace isBreak cs

def Style.of (s : String) : Style :=
  let cs := s.toList
  if needsEscapes cs then .double
  else if cs.contains '\n' then if cs.getLast?.any isSpace then .double else .literal
  else if Plain.isText s && fitsPlain cs then .plain
  else if hasPair isBreak isSpace cs then .double
  else .single

/-! ## Texts -/

def spaces (n : Nat) : List Char :=
  List.replicate n ' '

/-- A hexadecimal digit, upper case. -/
def hexDigit (n : Nat) : Char :=
  (Nat.digitChar n).toUpper

/-- The last `width` hexadecimal digits of a number. -/
def hexDigits (n : Nat) : Nat → List Char
  | 0 => []
  | width + 1 => hexDigits (n / 16) width ++ [hexDigit (n % 16)]

def escapeLetter? (c : Char) : Option Char :=
  match c with
  | '\x00' => some '0'
  | '\x07' => some 'a'
  | '\x08' => some 'b'
  | '\t' => some 't'
  | '\n' => some 'n'
  | '\x0b' => some 'v'
  | '\x0c' => some 'f'
  | '\r' => some 'r'
  | '\x1b' => some 'e'
  | '"' => some '"'
  | '\\' => some '\\'
  | '\x85' => some 'N'
  | '\u2028' => some 'L'
  | '\u2029' => some 'P'
  | _ => none

/-- A character between double quotes. -/
def doubleChar (c : Char) : List Char :=
  match escapeLetter? c with
  | some l => ['\\', l]
  | none =>
    if isPrintable c then [c]
    else
      let n := c.toNat
      if n ≤ 0xFF then '\\' :: 'x' :: hexDigits n 2
      else if n ≤ 0xFFFF then '\\' :: 'u' :: hexDigits n 4
      else '\\' :: 'U' :: hexDigits n 8

/-- The lines of a text: what follows a break is indented, unless it is a break itself. `fresh`
tells that a break comes before the text. -/
def indented (n : Nat) (fresh : Bool) : List Char → List Char
  | [] => []
  | c :: cs =>
    if isBreak c then c :: indented n true cs
    else (if fresh then spaces n else []) ++ c :: indented n false cs

def singleQuoted (n : Nat) (cs : List Char) : List Char :=
  let doubled := cs.flatMap fun c => if c == '\'' then ['\'', '\''] else [c]
  '\'' :: (indented n false (doubled ++ ['\'']))

/-- What a block says about its text: the indentation, where the text itself begins like one, and
the breaks at its end, where they are not exactly one. -/
def literalHints (cs : List Char) : List Char :=
  let indent := if cs.head?.any fun c => isSpace c || isBreak c then ['2'] else []
  let chomp :=
    match cs.reverse with
    | [] => ['-']
    | c :: r => if !isBreak c then ['-'] else if r.isEmpty || r.head?.any isBreak then ['+'] else []
  indent ++ chomp

/-- A text, with further lines at column `n`. -/
def textChars (n : Nat) (s : String) : List Char :=
  let cs := s.toList
  match Style.of s with
  | .plain => cs
  | .single => singleQuoted n cs
  | .double => '"' :: (cs.flatMap doubleChar ++ ['"'])
  | .literal => '|' :: (literalHints cs ++ '\n' :: indented n true cs)

/-- Ends the line, unless it has ended. -/
def closeLine (cs : List Char) : List Char :=
  if cs.getLast?.any isBreak then cs else cs ++ ['\n']

/-! ## Values -/

/-- A value without parts, with further lines at column `n`. -/
def atomChars (n : Nat) : Json → List Char
  | .str s => textChars n s
  | .arr _ => ['[', ']']
  | .obj _ => ['\x7b', '\x7d']
  | v => Json.atomText v

/-- The longest key, in bytes, that may stand before its colon on one line. -/
def keyLimit : Nat := 128

/-- A key that fits before its colon. -/
def isSimpleKey (k : String) : Bool :=
  !k.toList.any (fun c => isBreak c || c == '\r' || c == '\x85') && k.utf8ByteSize ≤ keyLimit

/-- A key at column `n` with its colon, which needs a line of its own after a long key. -/
def keyChars (n : Nat) (k : String) : List Char :=
  if isSimpleKey k then textChars (n + 2) k ++ [':']
  else '?' :: ' ' :: (closeLine (textChars (n + 2) k) ++ spaces n ++ [':'])

mutual

/-- A value that begins at column `n` on a line already begun. -/
def inlineChars (n : Nat) : Json → List Char
  | .arr (v :: vs) => '-' :: ' ' :: (inlineChars (n + 2) v ++ itemChars n vs)
  | .obj ((k, v) :: ms) => keyChars n k ++ valueChars n (isSimpleKey k) v ++ memberChars n ms
  | v => closeLine (atomChars n v)

/-- The value of a key at column `n`. -/
def valueChars (n : Nat) (simple : Bool) : Json → List Char
  | .arr (v :: vs) =>
    if simple then '\n' :: (spaces n ++ '-' :: ' ' :: (inlineChars (n + 2) v ++ itemChars n vs))
    else ' ' :: '-' :: ' ' :: (inlineChars (n + 4) v ++ itemChars (n + 2) vs)
  | .obj ((k, v) :: ms) =>
    (if simple then '\n' :: spaces (n + 2) else [' ']) ++ keyChars (n + 2) k ++
      valueChars (n + 2) (isSimpleKey k) v ++ memberChars (n + 2) ms
  | v => ' ' :: closeLine (atomChars (n + 2) v)

/-- Items at column `n`. -/
def itemChars (n : Nat) : List Json → List Char
  | [] => []
  | v :: vs => spaces n ++ '-' :: ' ' :: (inlineChars (n + 2) v ++ itemChars n vs)

/-- Members at column `n`. -/
def memberChars (n : Nat) : List (String × Json) → List Char
  | [] => []
  | (k, v) :: ms =>
    spaces n ++ keyChars n k ++ valueChars n (isSimpleKey k) v ++ memberChars n ms

end

def write (v : Json) : String :=
  String.ofList (inlineChars 0 v)

end CredentialEngine.Yaml
