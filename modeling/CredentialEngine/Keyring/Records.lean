import CredentialEngine.Secret.Storage

/-!
# Records of the keyring

The keyring works on a storage and changes the data only of records that carry the mark of
ownership. A record that someone else made is left alone.
-/
namespace CredentialEngine.Keyring

open Secret

variable {σ : Type} [Storage σ]

def labels (pairs : List (String × String)) : Labels :=
  Dict.ofList pairs

/-- A record with further labels and other data. -/
def revised (r : Record) (newLabels : Labels) (data : Dict String) : Record :=
  { r with labels := r.labels.overlay newLabels, data := data }

/-- The record of a first write: with the mark of ownership. -/
def fresh (owner : Option Owner) (loc : Location) (newLabels : Labels) (data : Dict String) :
    Record where
  space := loc.space
  name := loc.name
  labels := newLabels.insert Label.managed Label.managedValue
  owner := owner
  data := data

/-- Writes a record that the engine owns: creates it with an owner, or adds labels to the existing
one and replaces its data. -/
def put (owner : Option Owner) (loc : Location) (newLabels : Labels) (data : Dict String) :
    Action σ Unit := do
  match ← Action.attempt (Storage.get loc) with
  | .ok existing =>
    if existing.isManaged then
      Action.within ("update secret " ++ loc.text)
        (Storage.update (revised existing newLabels data))
    else Action.fail (.notManaged loc)
  | .error e =>
    if e.isNotFound then
      Action.within ("create secret " ++ loc.text)
        (Storage.create (fresh owner loc newLabels data))
    else Action.fail (e.within ("read secret " ++ loc.text))

/-- Deletes a record; an absent one counts as deleted. -/
def remove (loc : Location) : Action σ Unit := do
  match ← Action.attempt (Storage.delete loc) with
  | .ok () => return ()
  | .error e =>
    if e.isNotFound then return () else Action.fail (e.within ("delete secret " ++ loc.text))

/-- Adds labels to an existing record, whoever made it. -/
def annotate (loc : Location) (extra : Labels) : Action σ Unit := do
  let r ← Storage.get loc
  Storage.update { r with labels := r.labels.overlay extra }

/-- The single record of a role in a namespace. -/
def single (space : String) (role : Role) : Action σ Record := do
  match ← Storage.list space (labels [(Label.secretRole, role.text)]) with
  | [r] => return r
  | [] => Action.fail (.precondition (.roleAbsent role.text space : Cause))
  | rs => Action.fail (.precondition (.roleRepeated role.text space rs.length : Cause))

/-- The key pair of a seed; blanks around the seed are ignored. -/
def keyOfSeed (seed : String) : Except Error Key.Pair :=
  match Key.Pair.ofSeedText (Text.trim seed) with
  | .ok p => .ok p
  | .error fault => .error (.keys (.invalidSeed fault : Cause))

/-- The key pair of a seed, whose public text must start with a letter. -/
def keyOfSeedFor (lead : Char) (seed : String) : Except Error Key.Pair :=
  match keyOfSeed seed with
  | .ok p =>
    if Key.Pair.startsWith p.publicText lead then .ok p
    else .error (.keys (.foreignSeed p.publicText lead : Cause))
  | .error e => .error e

/-- The operator's signing key: the seed in the single record of that role. -/
def operatorKey (space : String) : Action σ Key.Pair := do
  let r ← single space .operatorSigning
  match r.value? seedKey with
  | none => Action.fail (.precondition (.operatorSeedAbsent r.location : Cause))
  | some seed =>
    Action.within ("operator signing secret " ++ r.location.text)
      (Action.ofExcept (keyOfSeedFor Key.operatorLead seed))

/-- The credentials with which the engine reaches the cluster. -/
def systemBundle (space : String) : Action σ Key.Bundle := do
  let r ← single space .systemBundle
  match r.value? bundleKey with
  | none => Action.fail (.precondition (.bundleAbsent r.location : Cause))
  | some text =>
    match Key.Bundle.parse text with
    | .ok b => return b
    | .error defect =>
      Action.fail ((Error.keys (.bundleDefect defect : Cause)).within
        ("system credentials secret " ++ r.location.text))

end CredentialEngine.Keyring
