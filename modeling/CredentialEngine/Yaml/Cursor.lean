import CredentialEngine.Yaml.Char

/-!
# Cursors

A cursor is what is left of a unified stream together with its place. Layout is told by columns, and
keys are limited in length, so the place counts lines, columns and characters.
-/
namespace CredentialEngine.Yaml

/-- A place in a stream, counted from zero. -/
structure Place where
  line : Nat := 0
  column : Nat := 0
  offset : Nat := 0
  deriving DecidableEq, Repr

/-- The place behind a character. -/
def Place.next (p : Place) (c : Char) : Place :=
  if isBreak c then ⟨p.line + 1, 0, p.offset + 1⟩ else ⟨p.line, p.column + 1, p.offset + 1⟩

/-- The rest of a stream and where it begins. -/
structure Cursor where
  rest : List Char
  place : Place := {}
  deriving DecidableEq, Repr

namespace Cursor

def column (c : Cursor) : Nat :=
  c.place.column

def skip (c : Cursor) (n : Nat) : Cursor :=
  ⟨c.rest.drop n, (c.rest.take n).foldl Place.next c.place⟩

def skipWhile (c : Cursor) (p : Char → Bool) : Cursor :=
  c.skip (c.rest.takeWhile p).length

/-- Moves on to an end part of the rest. -/
def moveTo (c : Cursor) (rest : List Char) : Cursor :=
  c.skip (c.rest.length - rest.length)

/-- Moves over an end of line, if one comes next. -/
def skipBreak (c : Cursor) : Cursor :=
  match c.rest with
  | b :: _ => if isBreak b then c.skip 1 else c
  | [] => c

/-- A mark between documents comes next. -/
def atDocumentMark (c : Cursor) : Bool :=
  c.column == 0 && Yaml.atDocumentMark c.rest

end Cursor

end CredentialEngine.Yaml
