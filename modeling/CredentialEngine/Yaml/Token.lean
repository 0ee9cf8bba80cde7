import CredentialEngine.Yaml.Tag

/-!
# Tokens of YAML streams

The layout of a stream shows in tokens of its own: a collection that is told by its indentation has
one where it begins and one where it ends. A mapping key has one before it, however its place was
recognised.
-/
namespace CredentialEngine.Yaml

inductive Token where
  /-- The directive that names a version. -/
  | version (major minor : Nat)
  /-- The directive that says what a tag handle stands for. -/
  | handle (name lead : String)
  | documentStart
  | documentEnd
  | blockSequence
  | blockMapping
  /-- The end of a collection that is told by its indentation. -/
  | blockEnd
  | flowSequence
  | flowSequenceEnd
  | flowMapping
  | flowMappingEnd
  /-- A comma in a flow collection. -/
  | separator
  /-- The dash before an item. -/
  | item
  | key
  | value
  | alias (name : String)
  | anchor (name : String)
  | tag (tag : Tag)
  | scalar (plain : Bool) (text : String)
  deriving DecidableEq, Repr

end CredentialEngine.Yaml
