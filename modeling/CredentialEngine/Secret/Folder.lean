import CredentialEngine.FileTree
import CredentialEngine.Json.Reader
import CredentialEngine.Json.Writer
import CredentialEngine.Secret.Storage

/-!
# Secrets in files

A folder keeps each record as a JSON document in a file named after it, in a directory named after
its namespace. A record is first written to a temporary file beside its place and then moved over.
Names are limited to a small alphabet, so that they are always single path components.
-/
namespace CredentialEngine.Secret

/-- Records as files below a root, among other files. -/
structure Folder where
  files : FileTree := {}
  root : Path := []
  deriving Inhabited

namespace Folder

def isNameChar (c : Char) : Bool :=
  c.isAlphanum || c == '-' || c == '.' || c == '_'

/-- A name that may stand in a path. -/
def isSegment (s : String) : Bool :=
  s ≠ "" && s.utf8ByteSize ≤ 253 && s.toList.head? != some '.' && s.toList.all isNameChar

def checkSegment (s : String) : Except Error String :=
  if isSegment s then .ok s else .error (.store (.badSegment s : Cause))

/-- The path of a record. The name is checked before the namespace. -/
def pathOf (root : Path) (loc : Location) : Except Error Path := do
  let name ← checkSegment loc.name
  let space ← checkSegment loc.space
  return root ++ [space, name ++ ".json"]

/-- The temporary path from which a record is moved to its own. -/
def temporaryOf (root : Path) (loc : Location) : Path :=
  root ++ [loc.space, loc.name ++ ".json.tmp"]

def tree : Action Folder FileTree := do
  return (← EStateM.get).files

def setTree (t : FileTree) : Action Folder Unit := do
  EStateM.set { ← EStateM.get with files := t }

/-- The path of a record in this folder. -/
def locate (loc : Location) : Action Folder Path := do
  Action.ofExcept (pathOf (← EStateM.get).root loc)

/-- A change of the tree, which may fail. -/
def change (f : FileTree → Except FileFault FileTree) : Action Folder Unit := do
  match f (← tree) with
  | .ok t => setTree t
  | .error fault => Action.fail (.store (.file fault : Cause))

def readRecord (path : Path) (loc : Location) : Action Folder Record := do
  match (← tree).read path with
  | .ok bytes =>
    match (Json.ofBytes? bytes).bind Record.ofJson? with
    | some r => return r
    | none => Action.fail (.store (.corruptSecret loc : Cause))
  | .error .missing => Action.fail (.secretNotFound loc)
  | .error fault => Action.fail (.store (.unreadableSecret loc fault : Cause))

def writeRecord (path : Path) (r : Record) : Action Folder Unit := do
  let temporary := temporaryOf (← EStateM.get).root r.location
  change fun t => t.makeDir [] path.dropLast
  change fun t => t.write temporary (Key.textBytes r.toJson.pretty) FileTree.privateMode
  change fun t => t.moveFile temporary path

def get (loc : Location) : Action Folder Record := do
  let path ← locate loc
  readRecord path loc

/-- The records in the files of a namespace's directory. -/
def readAll (directory : Path) (space : String) : List String → Action Folder (List Record)
  | [] => return []
  | name :: names => do
    if FileTree.extension? name = some "json" then
      let r ← readRecord (directory ++ [name]) ⟨space, FileTree.stem name⟩
      let rs ← readAll directory space names
      return r :: rs
    else readAll directory space names

def list (space : String) (selector : Labels) : Action Folder (List Record) := do
  let space ← Action.ofExcept (checkSegment space)
  let directory := (← EStateM.get).root ++ [space]
  match (← tree).names directory with
  | .error .missing => return []
  | .error fault => Action.fail (.store (.file fault : Cause))
  | .ok names =>
    let records ← readAll directory space names
    return (records.filter fun r => r.selectedBy selector).mergeSort fun a b => a.name ≤ b.name

/-- Whether there is something at the place of a record. -/
def isTaken (path : Path) : Action Folder Bool := do
  match (← tree).leads path with
  | .ok b => return b
  | .error fault => Action.fail (.store (.file fault : Cause))

def create (r : Record) : Action Folder Unit := do
  let path ← locate r.location
  if ← isTaken path then Action.fail (.store (.secretExists r.location : Cause))
  else writeRecord path r

def update (r : Record) : Action Folder Unit := do
  let path ← locate r.location
  if ← isTaken path then writeRecord path r
  else Action.fail (.secretNotFound r.location)

def delete (loc : Location) : Action Folder Unit := do
  let path ← locate loc
  match (← tree).removeFile path with
  | .ok t => setTree t
  | .error .missing => Action.fail (.secretNotFound loc)
  | .error fault => Action.fail (.store (.file fault : Cause))

/-- Deletes records one after another at the locations they name, and counts those that existed. -/
def deleteEach : List Record → Action Folder Nat
  | [] => return 0
  | r :: rs => do
    match ← Action.attempt (delete r.location) with
    | .ok () => return (← deleteEach rs) + 1
    | .error e => if e.isNotFound then deleteEach rs else Action.fail e

def deleteSelected (space : String) (selector : Labels) : Action Folder Nat := do
  deleteEach (← list space selector)

instance : Storage Folder where
  get := get
  list := list
  create := create
  update := update
  delete := delete
  deleteSelected := deleteSelected

end Folder

end CredentialEngine.Secret
