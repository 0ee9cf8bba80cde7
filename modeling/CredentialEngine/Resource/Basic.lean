import CredentialEngine.Resource.User

/-!
# Resources

A resource is an account or a user. Its document is tagged by its kind.
-/
namespace CredentialEngine

inductive Resource where
  | account (account : Account)
  | user (user : User)
  deriving DecidableEq

namespace Resource

def metadata : Resource → Metadata
  | .account a => a.metadata
  | .user u => u.metadata

def setMetadata (m : Metadata) : Resource → Resource
  | .account a => .account { a with metadata := m }
  | .user u => .user { u with metadata := m }

def kindMember : String := "kind"

def kind : Resource → String
  | .account _ => "Account"
  | .user _ => "User"

def members : Resource → List (String × Option Json)
  | .account a => a.members
  | .user u => u.members

/-- The kind stands first. -/
def toJson (r : Resource) : Json :=
  Json.record ((kindMember, some (.str r.kind)) :: r.members)

/-- A resource of a kind, from its members other than the kind, which were gathered to find it. -/
def ofMembers? (kind : String) (j : Json) : Option Resource :=
  match kind with
  | "Account" => (Account.ofJson? .gathered j).map .account
  | "User" => (User.ofJson? j).map .user
  | _ => none

/-- The kind is a member that occurs once, or the first item of an array. -/
def ofJson? : Json → Option Resource
  | .obj members =>
    match members.filter fun m => m.1 == kindMember with
    | [(_, .str kind)] => ofMembers? kind (.obj (members.filter fun m => m.1 != kindMember))
    | _ => none
  | .numbered members =>
    match members.filter fun m => m.1 == .inl kindMember with
    | [(_, .str kind)] =>
      ofMembers? kind (.numbered (members.filter fun m => m.1 != .inl kindMember))
    | _ => none
  | .arr (.str kind :: items) => ofMembers? kind (.arr items)
  | _ => none

end Resource

end CredentialEngine
