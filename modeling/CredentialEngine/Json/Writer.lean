import CredentialEngine.Json.Basic

/-!
# Writing JSON

Two layouts: the compact one of signed documents and replies, and the indented one of files. Inside
strings only the quote, the backslash and control characters below U+0020 are escaped.
-/
namespace CredentialEngine.Json

/-- A hexadecimal digit, lower case. -/
def hexDigit (n : Nat) : Char :=
  Nat.digitChar n

/-- One character as it stands inside a JSON string. -/
def escapeChar (c : Char) : List Char :=
  match c with
  | '"' => ['\\', '"']
  | '\\' => ['\\', '\\']
  | '\x08' => ['\\', 'b']
  | '\x0c' => ['\\', 'f']
  | '\n' => ['\\', 'n']
  | '\r' => ['\\', 'r']
  | '\t' => ['\\', 't']
  | c =>
    if c.toNat < 0x20 then
      ['\\', 'u', '0', '0', hexDigit (c.toNat / 16), hexDigit (c.toNat % 16)]
    else
      [c]

def stringText (s : String) : List Char :=
  '"' :: (s.toList.flatMap escapeChar ++ ['"'])

/-- The text of a value that has no parts. -/
def atomText : Json → List Char
  | .bool true => "true".toList
  | .bool false => "false".toList
  | .int n => (Text.intText n).toList
  | .str s => stringText s
  | _ => "null".toList

mutual

def compactChars : Json → List Char
  | .arr [] => ['[', ']']
  | .arr (v :: vs) => '[' :: (compactChars v ++ compactItems vs)
  | .obj [] => ['\x7b', '\x7d']
  | .obj ((k, v) :: ms) => '\x7b' :: (stringText k ++ ':' :: (compactChars v ++ compactMembers ms))
  | v => atomText v

/-- The items after the first, with the closing bracket. -/
def compactItems : List Json → List Char
  | [] => [']']
  | v :: vs => ',' :: (compactChars v ++ compactItems vs)

/-- The members after the first, with the closing brace. -/
def compactMembers : List (String × Json) → List Char
  | [] => ['\x7d']
  | (k, v) :: ms => ',' :: (stringText k ++ ':' :: (compactChars v ++ compactMembers ms))

end

/-- A value on one line without spaces. -/
def compact (v : Json) : String :=
  String.ofList (compactChars v)

/-- A line break followed by `n` levels of two spaces. -/
def lineBreak (n : Nat) : List Char :=
  '\n' :: List.replicate (2 * n) ' '

mutual

/-- The indented layout, for a value that stands at nesting level `n`. -/
def prettyChars (n : Nat) : Json → List Char
  | .arr [] => ['[', ']']
  | .arr (v :: vs) => '[' :: (lineBreak (n + 1) ++ prettyChars (n + 1) v ++ prettyItems n vs)
  | .obj [] => ['\x7b', '\x7d']
  | .obj ((k, v) :: ms) =>
    '\x7b' :: (lineBreak (n + 1) ++ stringText k ++ ':' :: ' ' ::
      (prettyChars (n + 1) v ++ prettyMembers n ms))
  | v => atomText v

def prettyItems (n : Nat) : List Json → List Char
  | [] => lineBreak n ++ [']']
  | v :: vs => ',' :: (lineBreak (n + 1) ++ prettyChars (n + 1) v ++ prettyItems n vs)

def prettyMembers (n : Nat) : List (String × Json) → List Char
  | [] => lineBreak n ++ ['\x7d']
  | (k, v) :: ms =>
    ',' :: (lineBreak (n + 1) ++ stringText k ++ ':' :: ' ' ::
      (prettyChars (n + 1) v ++ prettyMembers n ms))

end

/-- A value over several lines, two spaces per level, without a final line break. -/
def pretty (v : Json) : String :=
  String.ofList (prettyChars 0 v)

end CredentialEngine.Json
