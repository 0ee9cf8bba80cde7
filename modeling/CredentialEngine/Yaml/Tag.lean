import CredentialEngine.Json.Reader
import CredentialEngine.Yaml.Char

/-!
# Tags

A tag is written verbatim between angle brackets, or as a handle and a suffix. What a handle stands
for is said by directives; two handles are known from the start. Octets may be given by number, and
are kept one per character.
-/
namespace CredentialEngine.Yaml

/-- A tag as it is written: its handle, empty for a verbatim one, and the rest. -/
structure Tag where
  handle : String
  suffix : String
  deriving DecidableEq, Repr

namespace Tag

/-- What the handles stand for that need no directive. -/
def knownHandles : List (String × String) :=
  [("!", "!"), ("!!", "tag:yaml.org,2002:")]

/-- The full text of a tag, if its handle is known. -/
def resolve? (handles : List (String × String)) (t : Tag) : Option String :=
  if t.handle = "" then some t.suffix
  else (handles.lookup t.handle).map fun lead => lead ++ t.suffix

/-- The characters of tags. Some indicators of flow collections belong to them where the end of the
tag is told by other means. -/
def isTagChar (verbatim : Bool) (c : Char) : Bool :=
  isNameChar c || ";/?:@&=+$.%!~*'()".toList.contains c ||
    (verbatim && (c == ',' || c == '[' || c == ']'))

/-- How many octets a character takes, by its first one. -/
def octetCount? (first : Nat) : Option Nat :=
  if first < 0x80 then some 1
  else if 0xC0 ≤ first ∧ first < 0xE0 then some 2
  else if 0xE0 ≤ first ∧ first < 0xF0 then some 3
  else if 0xF0 ≤ first ∧ first < 0xF8 then some 4
  else none

/-- An octet given by number, with `missing` more octets of its character to come: how many are
missing after it. -/
def missingAfter? (missing octet : Nat) : Option Nat :=
  if missing = 0 then (octetCount? octet).map (· - 1)
  else if 0x80 ≤ octet ∧ octet < 0xC0 then some (missing - 1)
  else none

/-- The tag characters that come next and what follows them. The octets of a character that are
given by number stand together. -/
def chars? (verbatim : Bool) (missing : Nat) : List Char → Option (List Char × List Char)
  | '%' :: a :: b :: cs => do
    let octet := (← Json.hexVal? a) * 16 + (← Json.hexVal? b)
    let missing ← missingAfter? missing octet
    let (t, r) ← chars? verbatim missing cs
    return (Char.ofNat octet :: t, r)
  | c :: cs =>
    if missing ≠ 0 || c == '%' then none
    else if isTagChar verbatim c then do
      let (t, r) ← chars? verbatim 0 cs
      return (c :: t, r)
    else some ([], c :: cs)
  | [] => if missing = 0 then some ([], []) else none

/-- The handle that comes next: an exclamation mark, a name, and a second mark unless the name turns
out to belong to a suffix. A directive needs a handle proper. -/
def handle? (directive : Bool) : List Char → Option (List Char × List Char)
  | '!' :: cs =>
    let name := cs.takeWhile isNameChar
    match cs.dropWhile isNameChar with
    | '!' :: r => some ('!' :: (name ++ ['!']), r)
    | r => if directive && !name.isEmpty then none else some ('!' :: name, r)
  | _ => none

/-- The tag that comes next, without regard to what ends it. -/
def body? : List Char → Option (Tag × List Char)
  | '!' :: '<' :: cs => do
    let (suffix, r) ← chars? true 0 cs
    match r with
    | '>' :: r => if suffix.isEmpty then none else return (⟨"", String.ofList suffix⟩, r)
    | _ => none
  | cs => do
    let (handle, r) ← handle? false cs
    let (suffix, r) ← chars? false 0 r
    if 2 ≤ handle.length && handle.getLast? == some '!' then
      if suffix.isEmpty then none
      else return (⟨String.ofList handle, String.ofList suffix⟩, r)
    else
      match handle.drop 1 ++ suffix with
      | [] => return (⟨"", "!"⟩, r)
      | s => return (⟨"!", String.ofList s⟩, r)

/-- The tag that comes next. A blank or an end of line follows it, or in a flow collection a
comma. -/
def next? (flow : Bool) (cs : List Char) : Option (Tag × List Char) := do
  let (t, r) ← body? cs
  if atGap r || (flow && r.head? == some ',') then return (t, r) else none

end Tag

end CredentialEngine.Yaml
