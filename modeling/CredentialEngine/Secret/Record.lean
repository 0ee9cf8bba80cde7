import CredentialEngine.Digest.Sha2
import CredentialEngine.Key.Pair
import CredentialEngine.Resource.Meta
import CredentialEngine.Secret.Location

/-!
# Secret records

A record has labels, an owner and named values. Its role and the mark of ownership are labels.
-/
namespace CredentialEngine.Secret

open Json

inductive Role where
  | accountRoot
  | accountSigning
  | operatorSigning
  | userBundle
  | systemBundle
  deriving DecidableEq, Repr

namespace Role

def text : Role → String
  | .accountRoot => "account-root"
  | .accountSigning => "account-sign"
  | .operatorSigning => "operator-sign"
  | .userBundle => "user-credentials"
  | .systemBundle => "system-account-user-creds"

def ofText? (s : String) : Option Role :=
  [accountRoot, accountSigning, operatorSigning, userBundle, systemBundle].find? fun r => r.text = s

end Role

/-- The key under which a seed is stored. -/
def seedKey : String := "default"

/-- The key under which a credential bundle is stored. -/
def bundleKey : String := "user.creds"

structure Record where
  space : String
  name : String
  labels : Labels := .empty
  /-- The resource whose deletion makes the record useless. -/
  owner : Option Owner := none
  data : Dict String := .empty
  deriving DecidableEq, Inhabited

namespace Record

def location (r : Record) : Location :=
  ⟨r.space, r.name⟩

def value? (r : Record) (key : String) : Option String :=
  r.data.get? key

def role? (r : Record) : Option Role :=
  (r.labels.get? Label.secretRole).bind Role.ofText?

/-- The engine owns the record and may change it. -/
def isManaged (r : Record) : Bool :=
  r.labels.get? Label.managed == some Label.managedValue

/-- Every label of the selector is on the record. -/
def selectedBy (r : Record) (selector : Labels) : Bool :=
  selector.entries.all fun e => r.labels.get? e.1 == some e.2

def toJson (r : Record) : Json :=
  record [("namespace", some (.str r.space)), ("name", some (.str r.name)),
    ("labels", some (ofDict .str r.labels)), ("owner", r.owner.map Owner.toJson),
    ("data", some (ofDict .str r.data))]

def ofJson? (j : Json) : Option Record := do
  match ← j.fields? ["namespace", "name", "labels", "owner", "data"] with
  | [space, name, labels, owner, data] =>
    return {
      space := ← required asText space
      name := ← required asText name
      labels := ← defaulted .empty (asDict asText) labels
      owner := ← optional Owner.ofJson? owner
      data := ← defaulted .empty (asDict asText) data }
  | _ => none

end Record

/-- The name of an account's key secret before secrets had labels. -/
def fixedName (account : String) (role : Role) : String :=
  account ++ "-" ++ (if role = .accountSigning then "ac-sign" else "ac-root")

/-- The leading hexadecimal digits of the hash of an account's id. -/
def idMark (accountId : String) : String :=
  String.ofList (((Digest.sha256 (Key.textBytes accountId)).flatMap fun b =>
    [Nat.digitChar (b.toNat / 16), Nat.digitChar (b.toNat % 16)]).take 6)

/-- The name of an account's key secret. The mark of the id keeps an account that is created anew
under an old name from meeting the records of the earlier one. -/
def keyName (account accountId : String) (role : Role) : String :=
  fixedName account role ++ "-" ++ idMark accountId

end CredentialEngine.Secret
