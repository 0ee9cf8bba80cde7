/-!
# Characters of YAML streams

A stream holds printable characters only. Its lines may end in several ways, which are made one
before anything is read; the two Unicode separators end lines as well, but stay what they are.
-/
namespace CredentialEngine.Yaml

def isAllowed (c : Char) : Bool :=
  let n := c.toNat
  n == 0x09 || n == 0x0A || n == 0x0D || (0x20 ≤ n && n ≤ 0x7E) || n == 0x85 ||
    (0xA0 ≤ n && n ≤ 0xD7FF) || (0xE000 ≤ n && n ≤ 0xFFFD && n ≠ 0xFEFF) || 0x10000 ≤ n

/-- Writes every end of line that is no Unicode separator as one line feed. -/
def unifyBreaks : List Char → List Char
  | '\r' :: '\n' :: cs => '\n' :: unifyBreaks cs
  | '\r' :: cs => '\n' :: unifyBreaks cs
  | '\x85' :: cs => '\n' :: unifyBreaks cs
  | c :: cs => c :: unifyBreaks cs
  | [] => []

def isBlank (c : Char) : Bool :=
  c == ' ' || c == '\t'

/-- The ends of lines in a unified stream. -/
def isBreak (c : Char) : Bool :=
  c == '\n' || c == '\u2028' || c == '\u2029'

def isGap (c : Char) : Bool :=
  isBlank c || isBreak c

/-- A blank, the end of the line or the end of the stream comes next. -/
def atGap : List Char → Bool
  | [] => true
  | c :: _ => isGap c

/-- The end of the line or of the stream comes next. -/
def atBreak : List Char → Bool
  | [] => true
  | c :: _ => isBreak c

def isNameChar (c : Char) : Bool :=
  c.isAlphanum || c == '-' || c == '_'

def isFlowIndicator (c : Char) : Bool :=
  c == ',' || c == '[' || c == ']' || c == '\x7b' || c == '\x7d'

/-- At the beginning of a line: three dashes or three dots on their own. -/
def atDocumentMark : List Char → Bool
  | '-' :: '-' :: '-' :: cs => atGap cs
  | '.' :: '.' :: '.' :: cs => atGap cs
  | _ => false

/-- The rest of the line is dropped if it is a comment. -/
def skipComment : List Char → List Char
  | '#' :: cs => cs.dropWhile fun c => !isBreak c
  | cs => cs

end CredentialEngine.Yaml
