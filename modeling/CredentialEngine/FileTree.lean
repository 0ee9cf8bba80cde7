import CredentialEngine.Error
import CredentialEngine.Text.Parts

/-!
# File trees

Directories and files below a root, addressed by the names on the way down. Names are limited in
length, and every operation fails as it does on a POSIX system: a missing or unsuitable part of the
path is found before anything at its end.
-/
namespace CredentialEngine

/-- The names from the root down. -/
abbrev Path := List String

namespace Path

/-- The name of the top, from which paths start that begin with a slash. -/
def top : String := "/"

/-- Goes one step on: empty names and a dot stay, two dots go back. -/
def step (p : Path) (name : String) : Path :=
  if name = "" ∨ name = "." then p
  else if name = ".." then
    match p.getLast? with
    | none => [".."]
    | some ".." => p ++ [".."]
    | some last => if last = top then p else p.dropLast
  else p ++ [name]

/-- The path that a text tells, with slashes between names. -/
def ofText (s : String) : Path :=
  let names := (Text.parts '/' s.toList).map String.ofList
  names.foldl step (if names.head? = some "" ∧ s ≠ "" then [top] else [])

end Path

inductive Node where
  | dir
  /-- A file with its bytes and its permission bits. -/
  | file (bytes : List UInt8) (mode : Nat)
  deriving DecidableEq, Repr

/-- Everything below a root, which is a directory itself. -/
structure FileTree where
  nodes : List (Path × Node) := []
  deriving Inhabited

namespace FileTree

/-- The greatest number of bytes in a name. -/
def nameLimit : Nat := 255

/-- The permission bits of a file that only its owner may read. -/
def privateMode : Nat := 0o600

/-- The permission bits of an ordinary file. -/
def ordinaryMode : Nat := 0o644

def node? (t : FileTree) (p : Path) : Option Node :=
  if p = [] then some .dir else t.nodes.lookup p

def put (t : FileTree) (p : Path) (n : Node) : FileTree :=
  ⟨(p, n) :: t.nodes.filter fun e => e.1 ≠ p⟩

def drop (t : FileTree) (p : Path) : FileTree :=
  ⟨t.nodes.filter fun e => e.1 ≠ p⟩

/-- Walks down a path: what it leads to, or the first obstacle. -/
def resolve (t : FileTree) (above : Path) : Path → Except FileFault Node
  | [] => .ok ((t.node? above).getD .dir)
  | name :: rest =>
    if nameLimit < name.utf8ByteSize then .error .nameTooLong
    else
      match t.node? (above ++ [name]) with
      | none => .error .missing
      | some (.file bytes mode) =>
        if rest.isEmpty then .ok (.file bytes mode) else .error .notADirectory
      | some .dir => resolve t (above ++ [name]) rest

def read (t : FileTree) (p : Path) : Except FileFault (List UInt8) :=
  match t.resolve [] p with
  | .ok (.file bytes _) => .ok bytes
  | .ok .dir => .error .isADirectory
  | .error f => .error f

/-- The names in a directory, sorted. -/
def names (t : FileTree) (p : Path) : Except FileFault (List String) :=
  match t.resolve [] p with
  | .ok .dir =>
    let below := t.nodes.filterMap fun e =>
      if e.1.dropLast = p ∧ e.1 ≠ [] then e.1.getLast? else none
    .ok (below.mergeSort fun a b => a ≤ b)
  | .ok (.file _ _) => .error .notADirectory
  | .error f => .error f

def leads (t : FileTree) (p : Path) : Except FileFault Bool :=
  match t.resolve [] p with
  | .ok _ => .ok true
  | .error .missing => .ok false
  | .error f => .error f

/-- Makes a directory and those above it, where they are missing. -/
def makeDir (t : FileTree) (above : Path) : Path → Except FileFault FileTree
  | [] => .ok t
  | name :: rest =>
    if nameLimit < name.utf8ByteSize then .error .nameTooLong
    else
      let here := above ++ [name]
      match t.node? here with
      | none => makeDir (t.put here .dir) here rest
      | some .dir => makeDir t here rest
      | some (.file _ _) => .error (if rest.isEmpty then .alreadyExists else .notADirectory)

/-- Writes a file, which keeps its permission bits if it exists and gets `mode` otherwise. -/
def write (t : FileTree) (p : Path) (bytes : List UInt8) (mode : Nat) : Except FileFault FileTree :=
  match t.resolve [] p with
  | .ok (.file _ mode') => .ok (t.put p (.file bytes mode'))
  | .ok .dir => .error .isADirectory
  | .error .missing =>
    match t.resolve [] p.dropLast with
    | .ok .dir => .ok (t.put p (.file bytes mode))
    | .ok (.file _ _) => .error .notADirectory
    | .error f => .error f
  | .error f => .error f

/-- Moves a file over another path, which may not be a directory. -/
def moveFile (t : FileTree) (source target : Path) : Except FileFault FileTree :=
  match t.resolve [] source with
  | .error f => .error f
  | .ok n =>
    match t.resolve [] target with
    | .ok .dir => .error .isADirectory
    | .ok (.file _ _) => .ok ((t.drop source).put target n)
    | .error .missing => .ok ((t.drop source).put target n)
    | .error f => .error f

def removeFile (t : FileTree) (p : Path) : Except FileFault FileTree :=
  match t.resolve [] p with
  | .ok (.file _ _) => .ok (t.drop p)
  | .ok .dir => .error .isADirectory
  | .error f => .error f

/-- The part of a file name after its last dot, unless nothing is before that dot. -/
def extension? (name : String) : Option String :=
  let cs := name.toList
  if !cs.contains '.' then none
  else
    let stem := ((cs.reverse.dropWhile (· ≠ '.')).drop 1).reverse
    if stem.isEmpty then none
    else some (String.ofList (cs.reverse.takeWhile (· ≠ '.')).reverse)

/-- The part of a file name before its extension. -/
def stem (name : String) : String :=
  match extension? name with
  | none => name
  | some e => String.ofList (name.toList.take (name.length - e.length - 1))

end FileTree

end CredentialEngine
