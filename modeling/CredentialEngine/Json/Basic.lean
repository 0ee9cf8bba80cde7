import CredentialEngine.Text.Numeral

/-!
# JSON values

The values that JSON texts denote, as far as the engine can tell them apart. Numbers with a
fraction or an exponent are one value, since no shape of the engine holds one.
-/
namespace CredentialEngine

inductive Json where
  | null
  | bool (b : Bool)
  | int (n : Int)
  /-- A number that is not written as an integer. -/
  | fraction
  | str (s : String)
  | arr (items : List Json)
  | obj (members : List (String × Json))
  /-- An object some of whose members are named by the position of a field in its shape. No JSON
  text denotes one. -/
  | numbered (members : List ((String ⊕ Nat) × Json))
  /-- Well-formed text that denotes no value, such as a string with half a surrogate pair. It is
  harmless only where nobody looks at it. -/
  | unreadable
  deriving Inhabited

namespace Json

/-- An object of the given members, leaving out those without a value. -/
def record (fields : List (String × Option Json)) : Json :=
  .obj (fields.filterMap fun f => f.2.map fun v => (f.1, v))

def texts (ss : List String) : Json :=
  .arr (ss.map .str)

/-- The member of an object by its key; the first one counts. -/
def member? (key : String) : Json → Option Json
  | .obj ms => ms.lookup key
  | _ => none

mutual

/-- Every part of the value can be read as JSON, and it nests arrays and objects at most `depth`
deep. -/
def isReadable (depth : Nat) : Json → Bool
  | .unreadable => false
  | .numbered _ => false
  | .arr items => depth ≠ 0 && areReadable (depth - 1) items
  | .obj members => depth ≠ 0 && membersReadable (depth - 1) members
  | _ => true

def areReadable (depth : Nat) : List Json → Bool
  | [] => true
  | v :: vs => isReadable depth v && areReadable depth vs

def membersReadable (depth : Nat) : List (String × Json) → Bool
  | [] => true
  | (_, v) :: ms => isReadable depth v && membersReadable depth ms

end

end Json

end CredentialEngine
