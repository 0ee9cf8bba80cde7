import CredentialEngine.Json.Shape
import CredentialEngine.Yaml.Event
import CredentialEngine.Yaml.Plain
import CredentialEngine.Yaml.Token.Lexer

/-!
# The values of YAML documents

A document denotes a value if it has no tag of its own making, nests no deeper than allowed and
follows a bounded number of references. One member of the outermost mapping, which tells the kind of
the whole, is a text however it is spelled.
-/
namespace CredentialEngine.Yaml

namespace Document

/-- How deep collections may nest. -/
def depthLimit : Nat := 128

/-- How many references may be followed for each event of a document. -/
def referencesPerEvent : Nat := 100

/-- A tag of the document's own making. -/
def isLocalTag (tag : Option String) : Bool :=
  tag.any fun t => t.toList.head? == some '!'

def scalarValue? (plain : Bool) (tag : Option String) (text : String) : Option Json :=
  match tag with
  | none => if plain then Plain.value? text else some (.str text)
  | some "tag:yaml.org,2002:bool" => (Plain.bool? text).map .bool
  | some "tag:yaml.org,2002:int" => Plain.intValue? text
  | some "tag:yaml.org,2002:float" => if Plain.isFraction text then some .fraction else none
  | some "tag:yaml.org,2002:null" => if Plain.isNull text then some .null else none
  | some _ => if isLocalTag tag then none else some (.str text)

/-- The value of a mapping. Keys are texts, or numbers that stand for fields by their position; with
other keys it denotes nothing, which matters only where it is looked at. -/
def ofEntries (entries : List (Json × Json)) : Json :=
  let text? : Json × Json → Option (String × Json)
    | (.str k, v) => some (k, v)
    | _ => none
  let name? : Json × Json → Option ((String ⊕ Nat) × Json)
    | (.str k, v) => some (.inl k, v)
    | (.int (.ofNat n), v) => some (.inr n, v)
    | _ => none
  match entries.mapM text? with
  | some members => .obj members
  | none => ((entries.mapM name?).map Json.numbered).getD .unreadable

/-- What is left to read: the references that may still be followed, and the events. -/
abbrev Left := Nat × List Event

/-- The scalar that comes next, as it is spelled. -/
def textAt? (d : Document) : Left → Option (Json × Left)
  | (n, .scalar _ _ t :: es) => some (.str t, n, es)
  | (n + 1, .alias a :: es) =>
    match d.at? a with
    | some (.scalar _ _ t :: _) => some (.str t, n, es)
    | _ => none
  | _ => none

mutual

/-- The value of the node that comes next. `kind` names the member that is a text as it is spelled,
if this is the outermost node. -/
def value? (d : Document) (kind : Option String) (depth : Nat) :
    Nat → Left → Option (Json × Left)
  | 0, _ => none
  | fuel + 1, (n, e :: es) =>
    match e with
    | .alias a =>
      match n with
      | 0 => none
      | n + 1 => do
        let (v, n, _) ← value? d kind depth fuel (n, ← d.at? a)
        return (v, n, es)
    | .scalar plain tag text => (scalarValue? plain tag text).map fun v => (v, n, es)
    | .sequence tag =>
      if isLocalTag tag || depth = 0 then none
      else (items? d kind (depth - 1) fuel (n, es)).map fun (vs, left) => (.arr vs, left)
    | .mapping tag =>
      if isLocalTag tag || depth = 0 then none
      else (entries? d kind (depth - 1) fuel (n, es)).map fun (ms, left) => (ofEntries ms, left)
    | .close => none
  | _ + 1, (_, []) => none

/-- The items of a sequence; the first one of the outermost node tells the kind. -/
def items? (d : Document) (kind : Option String) (depth : Nat) :
    Nat → Left → Option (List Json × Left)
  | 0, _ => none
  | _ + 1, (n, .close :: es) => some ([], n, es)
  | fuel + 1, left => do
    let (v, left) ← if kind.isSome then d.textAt? left else value? d none depth fuel left
    let (vs, left) ← items? d none depth fuel left
    return (v :: vs, left)

def entries? (d : Document) (kind : Option String) (depth : Nat) :
    Nat → Left → Option (List (Json × Json) × Left)
  | 0, _ => none
  | _ + 1, (n, .close :: es) => some ([], n, es)
  | fuel + 1, left => do
    let (k, left) ← value? d none depth fuel left
    let isKind := kind.any fun name => (Json.asText k).any (· == name)
    let (v, left) ← if isKind then d.textAt? left else value? d none depth fuel left
    let (ms, left) ← entries? d kind depth fuel left
    return ((k, v) :: ms, left)

end

def toJson? (d : Document) (kind : String) : Option Json :=
  let size := d.events.length
  let fuel := (depthLimit + 1) * (size + 3)
  (d.value? (some kind) depthLimit fuel (referencesPerEvent * size, d.events)).map (·.1)

end Document

def ofText? (kind text : String) : Option Json := do
  (← Document.ofTokens? (← Token.ofText? text)).toJson? kind

end CredentialEngine.Yaml
