import CredentialEngine.Claims.Imports
import CredentialEngine.Error
import CredentialEngine.Resource.Basic

/-!
# The catalog of declared resources

Accounts and users by namespace and name, as import resolution, user issuance and the deletion
guard look them up. Resources are filed under the two joined by a slash.
-/
namespace CredentialEngine

structure Catalog where
  accounts : Dict Account := .empty
  users : Dict User := .empty
  deriving Inhabited

namespace Catalog

/-- The key under which a resource is filed. -/
def key (space name : String) : String :=
  space ++ "/" ++ name

def putAccount (c : Catalog) (a : Account) : Catalog :=
  { c with accounts := c.accounts.insert a.metadata.key a }

def putUser (c : Catalog) (u : User) : Catalog :=
  { c with users := c.users.insert u.metadata.key u }

def removeAccount (c : Catalog) (space name : String) : Catalog :=
  { c with accounts := c.accounts.erase (key space name) }

def removeUser (c : Catalog) (space name : String) : Catalog :=
  { c with users := c.users.erase (key space name) }

/-- Files a resource, in place of the one that was filed under its namespace and name. -/
def put (c : Catalog) : Resource → Catalog
  | .account a => c.putAccount a
  | .user u => c.putUser u

/-- Takes out what is filed under the namespace and name of a resource. -/
def remove (c : Catalog) : Resource → Catalog
  | .account a => c.removeAccount a.metadata.space a.metadata.name
  | .user u => c.removeUser u.metadata.space u.metadata.name

def account? (c : Catalog) (space name : String) : Option Account :=
  c.accounts.get? (key space name)

/-- The users in a namespace that belong to an account. -/
def usersOf (c : Catalog) (space name : String) : List User :=
  (c.users.entries.map (·.2)).filter fun u =>
    u.metadata.space == space && u.spec.accountName == name

/-- What the catalog knows about an account's id. -/
def standing (c : Catalog) : Claims.Resolver := fun space name =>
  match c.account? space name with
  | none => .unknown
  | some a =>
    match a.id? with
    | none => .notReady
    | some id => .issued id

end Catalog

/-- The id of an account that must have one. -/
def Claims.Resolver.idOf (r : Claims.Resolver) (space name : String) : Except Error String :=
  match r space name with
  | .issued id => .ok id
  | .notReady => .error (.precondition (.accountNotReady space name : Cause))
  | .unknown => .error (.precondition (.accountUnknown space name : Cause))

/-- The id of an account that must exist but may have none yet. -/
def Claims.Resolver.idOfKnown (r : Claims.Resolver) (space name : String) :
    Except Error (Option String) :=
  match r space name with
  | .issued id => .ok (some id)
  | .notReady => .ok none
  | .unknown => .error (.precondition (.accountUnknown space name : Cause))

end CredentialEngine
