/-!
# Parts of a text

A text falls into parts at each occurrence of a separating character, which belongs to no part.
-/
namespace CredentialEngine.Text

/-- The parts between separators; there is always at least one. -/
def parts (separator : Char) : List Char → List (List Char)
  | [] => [[]]
  | c :: cs =>
    if c = separator then [] :: parts separator cs
    else
      match parts separator cs with
      | [] => [[c]]
      | p :: ps => (c :: p) :: ps

/-- What stands before the last separator; nothing where there is none. -/
def beforeLast (separator : Char) (cs : List Char) : List Char :=
  ((cs.reverse.dropWhile (· ≠ separator)).drop 1).reverse

end CredentialEngine.Text
