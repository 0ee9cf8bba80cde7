import CredentialEngine.Yaml.Token

/-!
# Documents as events

A document is a list of events: scalars, collections that open and close, and references to nodes
that an anchor marks. Anchors are numbered by how many names are in use, so a name that is given
anew gets a number that the next new name gets as well; what is marked last with a number counts.
-/
namespace CredentialEngine.Yaml

inductive Event where
  /-- A reference to the node with an anchor number. -/
  | alias (anchor : Nat)
  | scalar (plain : Bool) (tag : Option String) (text : String)
  | sequence (tag : Option String)
  /-- Keys and values follow in turn. -/
  | mapping (tag : Option String)
  /-- The end of the innermost collection. -/
  | close
  deriving DecidableEq, Repr

/-- The events of a document, and the anchors with the number of events before each. -/
structure Document where
  events : List Event
  /-- The latest one of a number stands first. -/
  anchors : List (Nat × Nat)
  deriving DecidableEq, Repr

namespace Document

def at? (d : Document) (anchor : Nat) : Option (List Event) :=
  (d.anchors.lookup anchor).map d.events.drop

end Document

structure Assembly where
  tokens : List Token
  events : Array Event := #[]
  /-- The numbers of the names in use. -/
  names : List (String × Nat) := []
  anchors : List (Nat × Nat) := []
  /-- What tag handles stand for. -/
  handles : List (String × String) := Tag.knownHandles

/-- A step of reading events, which may find the tokens in disorder. -/
abbrev Assemble := StateT Assembly Option

namespace Assemble

def peek : Assemble (Option Token) := do
  return (← get).tokens.head?

def skip : Assemble Unit :=
  modify fun a => { a with tokens := a.tokens.drop 1 }

/-- Passes over a token if it is the given one. -/
def skipIf (t : Token) : Assemble Bool := do
  if (← peek) == some t then
    skip
    return true
  else return false

def isNext (ts : List Token) : Assemble Bool := do
  return (← peek).any ts.contains

def emit (e : Event) : Assemble Unit :=
  modify fun a => { a with events := a.events.push e }

/-- A node that is left out. -/
def emitEmpty : Assemble Unit :=
  emit (.scalar true none "")

def mark (name : String) : Assemble Unit :=
  modify fun a =>
    let number := a.names.length
    { a with
      names := (name, number) :: a.names.filter fun n => n.1 ≠ name
      anchors := (number, a.events.size) :: a.anchors }

/-- The anchor and the tag before a node, in either order. -/
def properties : Assemble (Option String × Option Tag) := do
  match ← peek with
  | some (.anchor a) =>
    skip
    match ← peek with
    | some (.tag t) => skip; return (some a, some t)
    | _ => return (some a, none)
  | some (.tag t) =>
    skip
    match ← peek with
    | some (.anchor a) => skip; return (some a, some t)
    | _ => return (none, some t)
  | _ => return (none, none)

def tagText (t : Option Tag) : Assemble (Option String) := do
  match t with
  | none => return none
  | some t => return some (← Tag.resolve? (← get).handles t)

/-- Emits an event for a node with its mark. -/
def emitMarked (anchor : Option String) (e : Event) : Assemble Unit := do
  if let some a := anchor then mark a
  emit e

mutual

/-- A node. Collections told by indentation are allowed in a `block`; in a mapping the items of a
sequence may stand at the column of the keys, which is `unindented`. -/
def node (block unindented : Bool) : Nat → Assemble Unit
  | 0 => failure
  | fuel + 1 => do
    if let some (.alias name) := ← peek then
      skip
      match (← get).names.lookup name with
      | some number => emit (.alias number)
      | none => failure
    else
      let (anchor, written) ← properties
      let tag ← tagText written
      match ← peek with
      | some (.scalar plain text) =>
        skip
        emitMarked anchor (.scalar plain (tag.filter (· ≠ "!")) text)
      | some .flowSequence =>
        emitMarked anchor (.sequence tag)
        skip
        flowItems true fuel
      | some .flowMapping =>
        emitMarked anchor (.mapping tag)
        skip
        flowEntries true fuel
      | t =>
        if unindented && t == some .item then
          emitMarked anchor (.sequence tag)
          unindentedItems fuel
        else if block && t == some .blockSequence then
          emitMarked anchor (.sequence tag)
          skip
          blockItems fuel
        else if block && t == some .blockMapping then
          emitMarked anchor (.mapping tag)
          skip
          blockEntries fuel
        else if anchor.isSome || tag.isSome then emitMarked anchor (.scalar true tag "")
        else failure

/-- A node, or an empty one before the given tokens. -/
def nodeUnless (stops : List Token) (block unindented : Bool) : Nat → Assemble Unit
  | 0 => failure
  | fuel + 1 => do
    if ← isNext stops then emitEmpty else node block unindented fuel

def blockItems : Nat → Assemble Unit
  | 0 => failure
  | fuel + 1 => do
    if ← skipIf .item then
      nodeUnless [.item, .blockEnd] true false fuel
      blockItems fuel
    else if ← skipIf .blockEnd then emit .close
    else failure

/-- The items of a sequence at the column of the keys around it. -/
def unindentedItems : Nat → Assemble Unit
  | 0 => failure
  | fuel + 1 => do
    if ← skipIf .item then
      nodeUnless [.item, .key, .value, .blockEnd] true false fuel
      unindentedItems fuel
    else emit .close

def blockEntries : Nat → Assemble Unit
  | 0 => failure
  | fuel + 1 => do
    if ← skipIf .key then
      nodeUnless [.key, .value, .blockEnd] true true fuel
      if ← skipIf .value then nodeUnless [.key, .value, .blockEnd] true true fuel else emitEmpty
      blockEntries fuel
    else if ← skipIf .blockEnd then emit .close
    else failure

/-- The value of an entry in a flow collection. -/
def flowValue (stops : List Token) : Nat → Assemble Unit
  | 0 => failure
  | fuel + 1 => do
    if ← skipIf .value then nodeUnless stops false false fuel else emitEmpty

/-- The items of a flow sequence. An announced key makes an item a mapping of one entry; the token
after a key that is left out is passed over. -/
def flowItems (first : Bool) : Nat → Assemble Unit
  | 0 => failure
  | fuel + 1 => do
    if ← skipIf .flowSequenceEnd then emit .close
    else
      if !first then
        if !(← skipIf .separator) then failure
      if ← skipIf .key then
        emit (.mapping none)
        if ← isNext [.value, .separator, .flowSequenceEnd] then
          skip
          emitEmpty
        else node false false fuel
        flowValue [.separator, .flowSequenceEnd] fuel
        emit .close
        flowItems false fuel
      else if ← skipIf .flowSequenceEnd then emit .close
      else
        node false false fuel
        flowItems false fuel

def flowEntries (first : Bool) : Nat → Assemble Unit
  | 0 => failure
  | fuel + 1 => do
    if ← skipIf .flowMappingEnd then emit .close
    else
      if !first then
        if !(← skipIf .separator) then failure
      if ← skipIf .key then
        nodeUnless [.value, .separator, .flowMappingEnd] false false fuel
        flowValue [.separator, .flowMappingEnd] fuel
        flowEntries false fuel
      else if ← skipIf .flowMappingEnd then emit .close
      else
        node false false fuel
        emitEmpty
        flowEntries false fuel

end

/-- The directives before a document: at most one version, which has to be a known one, and at most
one meaning for each handle. -/
def directives (version : Bool) (handles : List (String × String)) : List Token → Assemble Unit
  | .version major minor :: ts => do
    skip
    if version || major ≠ 1 || (minor ≠ 1 && minor ≠ 2) then failure
    directives true handles ts
  | .handle name lead :: ts => do
    skip
    if handles.any fun h => h.1 == name then failure
    directives version ((name, lead) :: handles) ts
  | _ => modify fun a => { a with handles := handles ++ Tag.knownHandles }

def documentEnds : List Token → List Token
  | .documentEnd :: ts => documentEnds ts
  | ts => ts

def document : Assemble Unit := do
  let tokens := (← get).tokens
  let fuel := 4 * tokens.length + 4
  match tokens with
  | [] => failure
  | .version .. :: _ | .handle .. :: _ | .documentStart :: _ =>
    directives false [] tokens
    if !(← skipIf .documentStart) then failure
    match ← peek with
    | none | some (.version ..) | some (.handle ..) | some .documentStart | some .documentEnd =>
      emitEmpty
    | _ => node true false fuel
  | _ => node true false fuel
  if !(documentEnds (← get).tokens).isEmpty then failure

end Assemble

/-- The document that tokens form, if they form exactly one. -/
def Document.ofTokens? (ts : List Token) : Option Document :=
  match Assemble.document.run { tokens := ts } with
  | some (_, a) => some ⟨a.events.toList, a.anchors⟩
  | none => none

end CredentialEngine.Yaml
