/-!
# Blank characters and trimming

Blank characters are those with the Unicode property `White_Space`. Every text
that the engine trims (seeds, durations, source networks, tokens, lines of a
credential bundle) is trimmed by this class.
-/
namespace CredentialEngine.Text

/-- The characters with the property `White_Space`. -/
def isBlank (c : Char) : Bool :=
  let n := c.toNat
  (9 ≤ n && n ≤ 13) || n == 0x20 || n == 0x85 || n == 0xA0 || n == 0x1680 ||
    (0x2000 ≤ n && n ≤ 0x200A) || n == 0x2028 || n == 0x2029 || n == 0x202F ||
    n == 0x205F || n == 0x3000

/-- Drops the characters of a class from the end. -/
def dropEndWhile (p : Char → Bool) (cs : List Char) : List Char :=
  (cs.reverse.dropWhile p).reverse

/-- Drops blanks from both ends of a character list. -/
def trimChars (cs : List Char) : List Char :=
  dropEndWhile isBlank (cs.dropWhile isBlank)

/-- Drops blanks from both ends of a text. -/
def trim (s : String) : String :=
  String.ofList (trimChars s.toList)

end CredentialEngine.Text
