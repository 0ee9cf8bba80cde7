import CredentialEngine.CommandLine.Run
import Std.Time.DateTime.Timestamp

/-!
# The program

Reads the directories that the command line names, runs it on them, and writes back what has
changed. Nothing here reaches a cluster: a command that needs one fails as it does when nothing
answers.
-/
namespace CredentialEngine.Program

open CommandLine

/-- The name of what a path leads to, from the working directory. -/
def nameOf (p : Path) : String :=
  match p with
  | [] => "."
  | first :: rest =>
    if first = Path.top then first ++ "/".intercalate rest else "/".intercalate p

/-- Puts what is below a directory into a tree, a number of levels deep. What cannot be read is left
out. -/
def readBelow (t : FileTree) (directory : Path) : Nat → IO FileTree
  | 0 => return t
  | depth + 1 => do
    let here ← IO.currentDir
    let entries ← (here / nameOf directory).readDir
    entries.foldlM (fun t e => do
      let path := directory ++ [e.fileName]
      try
        if ← e.path.isDir then readBelow (t.put path .dir) path depth
        else
          let bytes ← IO.FS.readBinFile e.path
          return t.put path (.file bytes.toList FileTree.ordinaryMode)
      catch _ => return t) t

/-- Puts a directory that exists into a tree, with the directories above it. -/
def readDirectory (t : FileTree) (directory : Path) (depth : Nat) : IO FileTree := do
  let here ← IO.currentDir
  if ← (here / nameOf directory).isDir then
    match t.makeDir [] directory with
    | .ok t => readBelow t directory depth
    | .error _ => return t
  else return t

/-- The files that an invocation works on: manifests lie in their directory, and secrets in one for
each namespace. -/
def readFiles (i : Invocation) : IO FileTree := do
  let t ← readDirectory {} (Path.ofText i.secretsDirectory) 2
  match i.command with
  | .reconcile directory => readDirectory t (Path.ofText directory) 1
  | .lookup _ => return t

/-- Makes the directories and files of a tree as they are in another one. -/
def writeChanges (before after : FileTree) : IO Unit := do
  for (path, _) in before.nodes do
    if after.node? path = none then IO.FS.removeFile (nameOf path)
  for (path, node) in after.nodes.reverse do
    if before.node? path ≠ some node then
      match node with
      | .dir => IO.FS.createDirAll (nameOf path)
      | .file bytes mode =>
        IO.FS.createDirAll (nameOf path.dropLast)
        IO.FS.writeBinFile (nameOf path) ⟨bytes.toArray⟩
        if mode = FileTree.privateMode then
          IO.setAccessRights (nameOf path) { user := { read := true, write := true } }

def uidOf (bytes : List UInt8) : String :=
  let digits := Encoding.Radix.base16.encode bytes
  let group (start length : Nat) : String := String.ofList ((digits.drop start).take length)
  "-".intercalate [group 0 8, group 8 4, "4" ++ group 13 3, "8" ++ group 17 3, group 20 12]

/-- The present time, with keys and identities drawn from random bytes. -/
def surroundings : IO Surroundings := do
  let now ← Std.Time.Timestamp.now
  let seed := (← IO.getRandomBytes 32).toList
  let draw (purpose : String) (n : Nat) : List UInt8 :=
    Digest.sha256 (seed ++ Key.textBytes (purpose ++ Text.natText n))
  return {
    now := now.toSecondsSinceUnixEpoch.val
    keySource := draw "key"
    uid := fun n => uidOf (draw "uid" n) }

def environment : IO (Dict String) := do
  let names := (Setting.manifests :: Setting.general).map Setting.variableName
  let found ← names.filterMapM fun name => do
    return (← IO.getEnv name).map fun v => (name, v)
  return Dict.ofList found

/-- What is said where no cluster can be reached. -/
def offline : Cluster.Unreachable := ⟨"no route to a cluster"⟩

end CredentialEngine.Program

open CredentialEngine Program in
/-- Runs the command line and ends with its code. -/
def main (arguments : List String) : IO UInt32 := do
  let settings ← environment
  let files ←
    match CommandLine.Invocation.ofArguments arguments settings with
    | .ok i => readFiles i
    | .error _ => pure {}
  let (outcome, after) := CommandLine.run (← surroundings) arguments settings offline files
  writeChanges files after
  IO.print outcome.output
  return outcome.exit.toUInt32
