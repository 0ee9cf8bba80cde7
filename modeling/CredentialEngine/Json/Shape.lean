import CredentialEngine.Dict
import CredentialEngine.Json.Basic

/-!
# Reading shapes from JSON values

A shape is a structure with named fields. It is read from an object, whose unknown members are
ignored and whose known ones may occur once, or from an array of the fields in order, whose tail may
be cut off. Each field says what its absence means.
-/
namespace CredentialEngine.Json

/-- The values of the named fields, in the order of the names. -/
def fields? (names : List String) : Json → Option (List (Option Json))
  | .obj members =>
    if names.all fun n => members.countP (fun m => m.1 == n) ≤ 1 then
      some (names.map fun n => members.lookup n)
    else none
  | .numbered members =>
    let named := members.map fun m => (m.1.elim some fun i => names[i]?, m.2)
    if names.all fun n => named.countP (fun m => m.1 == some n) ≤ 1 then
      some (names.map fun n => named.lookup (some n))
    else none
  | .arr items =>
    if items.length ≤ names.length then
      some (items.map some ++ List.replicate (names.length - items.length) none)
    else none
  | _ => none

def required {α : Type} (read : Json → Option α) (field : Option Json) : Option α :=
  field.bind read

/-- A field that may be absent or null. -/
def optional {α : Type} (read : Json → Option α) : Option Json → Option (Option α)
  | none => some none
  | some .null => some none
  | some v => (read v).map some

/-- A field with a default for its absence; null is refused. -/
def defaulted {α : Type} (default : α) (read : Json → Option α) : Option Json → Option α
  | none => some default
  | some v => read v

def asText : Json → Option String
  | .str s => some s
  | _ => none

def asBool : Json → Option Bool
  | .bool b => some b
  | _ => none

/-- How a value comes to its shape: as it is read, or gathered before, as the members of a document
are that is told by one of them what it is. -/
inductive Intake where
  | direct
  | gathered
  deriving DecidableEq, Repr

/-- Whether a name holds nothing. An empty object is nothing once it has been gathered. -/
def isNothing (intake : Intake) : Json → Bool
  | .null => true
  | .obj [] => intake = .gathered
  | _ => false

/-- One of several names, given as a text or as the only member of an object that holds nothing. -/
def asName (intake : Intake) (names : List String) : Json → Option String
  | .str s => some s
  | .obj [(s, v)] => if isNothing intake v then some s else none
  | .numbered [(.inr i, v)] => if isNothing intake v then names[i]? else none
  | _ => none

def asInt64 : Json → Option Int64
  | .int n => if -Int.pow 2 63 ≤ n ∧ n < Int.pow 2 63 then some (Int64.ofInt n) else none
  | _ => none

def asUInt32 : Json → Option UInt32
  | .int n => if 0 ≤ n ∧ n < Int.pow 2 32 then some (UInt32.ofNat n.toNat) else none
  | _ => none

def asUInt8 : Json → Option UInt8
  | .int n => if 0 ≤ n ∧ n < Int.pow 2 8 then some (UInt8.ofNat n.toNat) else none
  | _ => none

def asList {α : Type} (read : Json → Option α) : Json → Option (List α)
  | .arr items => items.mapM read
  | _ => none

/-- A map from texts; of a repeated key the last value counts. -/
def asDict {α : Type} (read : Json → Option α) : Json → Option (Dict α)
  | .obj members => (members.mapM fun m => (read m.2).map fun v => (m.1, v)).map Dict.ofList
  | _ => none

def ofInt64 (n : Int64) : Json :=
  .int n.toInt

def ofNat (n : Nat) : Json :=
  .int n

def ofList {α : Type} (write : α → Json) (xs : List α) : Json :=
  .arr (xs.map write)

def ofDict {α : Type} (write : α → Json) (d : Dict α) : Json :=
  .obj (d.entries.map fun e => (e.1, write e.2))

/-- A list field that is left out when empty. -/
def unlessEmpty {α : Type} (write : α → Json) (xs : List α) : Option Json :=
  if xs.isEmpty then none else some (ofList write xs)

/-- A map field that is left out when empty. -/
def unlessEmptyDict {α : Type} (write : α → Json) (d : Dict α) : Option Json :=
  if d.isEmpty then none else some (ofDict write d)

/-- A text field that is left out when empty. -/
def unlessBlank (s : String) : Option Json :=
  if s.isEmpty then none else some (.str s)

/-- A flag that is left out when false. -/
def whenSet (b : Bool) : Option Json :=
  if b then some (.bool true) else none

end CredentialEngine.Json
