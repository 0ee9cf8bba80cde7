import CredentialEngine.FileTree
import CredentialEngine.Json.Reader
import CredentialEngine.Json.Writer
import CredentialEngine.Key.Bundle
import CredentialEngine.Resource.Basic
import CredentialEngine.Yaml.Value
import CredentialEngine.Yaml.Writer

/-!
# Manifests

A manifest is a file that holds one resource, tagged by its kind, in JSON or YAML as its name tells.
A resource is written back in the format that it came in.
-/
namespace CredentialEngine

/-- A resource with the file that holds it. -/
structure Manifest where
  path : Path
  resource : Resource
  deriving DecidableEq

/-- A directory and how messages name it. -/
structure Directory where
  shown : String
  path : Path
  deriving DecidableEq, Repr

namespace Directory

def ofText (s : String) : Directory :=
  ⟨s, Path.ofText s⟩

/-- How messages name a file in the directory. -/
def shownFile (d : Directory) (name : String) : String :=
  match d.shown.toList.getLast? with
  | some '/' | none => d.shown ++ name
  | some _ => d.shown ++ "/" ++ name

end Directory

namespace Manifest

inductive Format where
  | json
  | yaml
  deriving DecidableEq, Repr

/-- How deep a JSON manifest may nest. -/
def jsonDepth : Nat := 127

namespace Format

/-- The format of a file with a name. -/
def ofName (name : String) : Format :=
  if FileTree.extension? name = some "json" then .json else .yaml

/-- The resource that a text holds. All of a JSON text has to be readable. -/
def read? (text : String) : Format → Option Resource
  | .json => ((Json.ofText? text).filter (Json.isReadable jsonDepth)).bind Resource.ofJson?
  | .yaml => (Yaml.ofText? Resource.kindMember text).bind Resource.ofJson?

def write (r : Resource) : Format → String
  | .json => r.toJson.pretty
  | .yaml => Yaml.write r.toJson

end Format

/-- What manifests need not say: the namespace, and the identity of each by its number. -/
structure Defaults where
  space : String
  uid : Nat → String

/-- Fills in what a resource does not say. -/
def complete (defaults : Defaults) (n : Nat) (r : Resource) : Resource :=
  let m := r.metadata
  r.setMetadata { m with
    space := if m.space.isEmpty then defaults.space else m.space
    uid := if m.uid.isEmpty then defaults.uid n else m.uid }

/-- Whether a name is that of a manifest. -/
def isName (name : String) : Bool :=
  match FileTree.extension? name with
  | some e => ["yaml", "yml", "json"].contains e
  | none => false

/-- The manifest in a file of a directory. -/
def load (t : FileTree) (d : Directory) (defaults : Defaults) (n : Nat) (name : String) :
    Except Error Manifest :=
  let path := d.path ++ [name]
  let unreadable (fault : FileFault) : Except Error Manifest :=
    .error (.configuration (.unreadableManifest (d.shownFile name) fault : Cause))
  match t.read path with
  | .error fault => unreadable fault
  | .ok bytes =>
    match String.fromUTF8? ⟨bytes.toArray⟩ with
    | none => unreadable .notText
    | some text =>
      match (Format.ofName name).read? text with
      | none => .error (.configuration (.malformedManifest (d.shownFile name) : Cause))
      | some r => .ok ⟨path, complete defaults n r⟩

/-- The manifests of a directory, by name. The first that cannot be loaded is reported. -/
def loadAll (t : FileTree) (d : Directory) (defaults : Defaults) : Except Error (List Manifest) :=
  match t.names d.path with
  | .error fault => .error (.configuration (.unreadableManifest d.shown fault : Cause))
  | .ok names =>
    (names.filter isName).zipIdx.mapM fun (name, n) => load t d defaults n name

def save (m : Manifest) (t : FileTree) : Except FileFault FileTree :=
  let format := Format.ofName (m.path.getLast?.getD "")
  t.write m.path (Key.textBytes (format.write m.resource)) FileTree.ordinaryMode

/-- Removes the file; it may be gone already. -/
def remove (m : Manifest) (t : FileTree) : Except FileFault FileTree :=
  match t.removeFile m.path with
  | .error .missing => .ok t
  | r => r

end Manifest

end CredentialEngine
