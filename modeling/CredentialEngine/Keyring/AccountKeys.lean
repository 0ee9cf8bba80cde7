import CredentialEngine.Keyring.Records

/-!
# Keys of accounts

An account has a root key, whose public text is the account's id, and a signing key. Their records
are found by the label of the id. Records from before there were labels are found at fixed names;
they fill what the labels leave open, and are labelled when they are used.
-/
namespace CredentialEngine.Keyring

open Secret

/-- The two keys of an account. -/
structure AccountKeys where
  root : Key.Pair
  signing : Key.Pair
  deriving DecidableEq

namespace AccountKeys

def accountId (k : AccountKeys) : String :=
  k.root.publicText

end AccountKeys

variable {σ : Type} [Storage σ]

def storeKey (space account accountId : String) (role : Role) (pair : Key.Pair) :
    Action σ Unit :=
  put none ⟨space, keyName account accountId role⟩
    (labels [(Label.secretRole, role.text), (Label.accountId, accountId)])
    (Dict.ofList [(seedKey, pair.seedText?.getD "")])

/-- Writes the records of two new keys, the root first. -/
def storeAccountKeys (space account : String) (keys : AccountKeys) : Action σ Unit := do
  storeKey space account keys.accountId .accountRoot keys.root
  storeKey space account keys.accountId .accountSigning keys.signing

/-- The root and the signing record among labelled records, at most one of each. -/
def splitRecords (account : String) (records : List Record) :
    Except Error (Option Record × Option Record) :=
  let roots := records.filter fun r => r.role? = some .accountRoot
  let signings := records.filter fun r => r.role? = some .accountSigning
  if 1 < roots.length ∨ 1 < signings.length then
    .error (.precondition (.duplicateKeys account roots.length signings.length : Cause))
  else .ok (roots.head?, signings.head?)

/-- A look-up at a fixed name. One that dies is an error like any other. -/
def lookUp (loc : Location) : Action σ (Except Error Record) := fun s =>
  match Storage.get loc s with
  | .ok r s => .ok (.ok r) s
  | .error (.failed e) s => .ok (.error e) s
  | .error .crashed s => .ok (.error (.internal (.lookupCrashed loc : Cause))) s
  | .error .stalled s => .error .stalled s

/-- A slot and what was found for it at the fixed name: the record to use, whether it is newly
taken on, or the failure. -/
def fill (found : Option Record) (fixed : Except Error Record) : Except Error (Record × Bool) :=
  match found, fixed with
  | some r, _ => .ok (r, false)
  | none, .ok r => .ok (r, true)
  | none, .error e => .error e

def unfilled (account : String) (failures : List Error) : Error :=
  if failures.all Error.isNotFound then
    .missingSecrets account ("not found: " ++ String.intercalate ", " (failures.filterMap fun e =>
      match e with
      | .secretNotFound loc => some loc.name
      | _ => none))
  else .store (.fixedNameLookup account (failures.map Error.message) : Cause)

/-- The labels that a record gets when it is taken on. -/
def adoptionLabels (role : Role) (accountId : Option String) : Labels :=
  let base := labels [(Label.secretRole, role.text), (Label.managed, Label.managedValue)]
  match accountId with
  | some id => base.insert Label.accountId id
  | none => base

/-- Labels a record that was taken on; a failure to do so is no failure of the load. -/
def adopt (slot : Record × Bool) (role : Role) (accountId : Option String) : Action σ Unit :=
  if slot.2 then do
    let _ ← Action.attempt (annotate slot.1.location (adoptionLabels role accountId))
    return ()
  else return ()

/-- Completes a pair of records from the fixed names. -/
def completeRecords (space account : String) (root signing : Option Record) :
    Action σ (Record × Record) := do
  let fixedRoot ← lookUp ⟨space, fixedName account .accountRoot⟩
  let fixedSigning ← lookUp ⟨space, fixedName account .accountSigning⟩
  match fill root fixedRoot, fill signing fixedSigning with
  | .ok root, .ok signing =>
    let id := ((root.1.value? seedKey).bind fun seed => (keyOfSeed seed).toOption).map
      Key.Pair.publicText
    adopt root .accountRoot id
    adopt signing .accountSigning id
    return (root.1, signing.1)
  | .error e, .ok _ => Action.fail (unfilled account [e])
  | .ok _, .error e => Action.fail (unfilled account [e])
  | .error e, .error e' => Action.fail (unfilled account [e, e'])

def accountKeyOf (r : Record) : Except Error Key.Pair :=
  match r.value? seedKey with
  | none => .error (.precondition (.seedAbsent r.location : Cause))
  | some seed => (keyOfSeedFor Key.accountLead seed).mapError
      (Error.within ("secret " ++ r.location.text))

/-- The records that carry the label of an account's id. -/
def labelledRecords (space : String) : Option String → Action σ (List Record)
  | some id => Storage.list space (labels [(Label.accountId, id)])
  | none => return []

def accountKeys (space account : String) (accountId : Option String) : Action σ AccountKeys := do
  let labelled ← labelledRecords space accountId
  let (root, signing) ← match ← Action.ofExcept (splitRecords account labelled) with
    | (some root, some signing) => pure (root, signing)
    | (root, signing) => completeRecords space account root signing
  let root ← Action.ofExcept (accountKeyOf root)
  let signing ← Action.ofExcept (accountKeyOf signing)
  return ⟨root, signing⟩

end CredentialEngine.Keyring
