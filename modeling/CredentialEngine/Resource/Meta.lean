import CredentialEngine.Json.Shape
import CredentialEngine.Time.Timestamp

/-!
# Metadata of resources

Names, labels and the mark of deletion, as accounts and users carry them. The engine writes resolved
identities back as labels.
-/
namespace CredentialEngine

open Json

abbrev Labels := Dict String

/-! ## Labels that carry meaning -/

namespace Label

def accountId : String := "account.nauth.io/id"

def accountSignedBy : String := "account.nauth.io/signed-by"

def userId : String := "user.nauth.io/id"

/-- The id of the account a user belongs to. -/
def userAccountId : String := "user.nauth.io/account-id"

/-- The account's signing key that issued a user. -/
def userSignedBy : String := "user.nauth.io/signed-by"

def policy : String := "nauth.io/management-policy"

/-- The policy of accounts that are looked at and never written. -/
def observePolicy : String := "observe"

def secretRole : String := "nauth.io/secret-type"

/-- The mark of a record that the engine owns. -/
def managed : String := "nauth.io/managed"

def managedValue : String := "true"

end Label

def asTimestamp (j : Json) : Option Time.Timestamp :=
  (asText j).bind Time.Timestamp.parse?

def ofTimestamp (t : Time.Timestamp) : Json :=
  .str t.format

structure Metadata where
  name : String
  space : String := ""
  /-- A stable identity, for owner references. -/
  uid : String := ""
  labels : Labels := .empty
  /-- Set once the resource is to be deleted. -/
  deletion : Option Time.Timestamp := none
  deriving DecidableEq, Inhabited

namespace Metadata

/-- The value of a label; an empty one counts as absent. -/
def label? (m : Metadata) (key : String) : Option String :=
  (m.labels.get? key).filter fun v => !v.isEmpty

def setLabel (m : Metadata) (key value : String) : Metadata :=
  { m with labels := m.labels.insert key value }

def isDeleting (m : Metadata) : Bool :=
  m.deletion.isSome

def key (m : Metadata) : String :=
  m.space ++ "/" ++ m.name

def toJson (m : Metadata) : Json :=
  record [("name", some (.str m.name)), ("namespace", some (.str m.space)),
    ("uid", some (.str m.uid)), ("labels", unlessEmptyDict .str m.labels),
    ("deletionTimestamp", m.deletion.map ofTimestamp)]

def ofJson? (j : Json) : Option Metadata := do
  match ← j.fields? ["name", "namespace", "uid", "labels", "deletionTimestamp"] with
  | [name, space, uid, labels, deletion] =>
    return {
      name := ← required asText name
      space := ← defaulted "" asText space
      uid := ← defaulted "" asText uid
      labels := ← defaulted .empty (asDict asText) labels
      deletion := ← optional asTimestamp deletion }
  | _ => none

end Metadata

/-- The resource on whose behalf a secret exists. -/
structure Owner where
  kind : String
  name : String
  uid : String
  deriving DecidableEq, Repr

namespace Owner

def user (m : Metadata) : Owner :=
  ⟨"User", m.name, m.uid⟩

def toJson (o : Owner) : Json :=
  record [("kind", some (.str o.kind)), ("name", some (.str o.name)), ("uid", some (.str o.uid))]

def ofJson? (j : Json) : Option Owner := do
  match ← j.fields? ["kind", "name", "uid"] with
  | [kind, name, uid] =>
    return ⟨← required asText kind, ← required asText name, ← required asText uid⟩
  | _ => none

end Owner

end CredentialEngine
