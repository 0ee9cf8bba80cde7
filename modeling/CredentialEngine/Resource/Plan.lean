import CredentialEngine.Resource.User

/-!
# Plans

The action that a resource needs follows from its metadata alone.
-/
namespace CredentialEngine

/-- What is to be done for an account. -/
inductive AccountAction where
  | create
  | update
  /-- Report on an account that is managed elsewhere. -/
  | observe
  | delete
  /-- Stop tracking an account that is managed elsewhere, leaving cluster and secrets alone. -/
  | release
  deriving DecidableEq, Repr

/-- What is to be done for a user. -/
inductive UserAction where
  | issue
  | delete
  deriving DecidableEq, Repr

/-- Deletion comes first, then the policy, then whether there is an id. -/
def Account.plan (a : Account) : AccountAction :=
  if a.metadata.isDeleting then
    if a.isObserveOnly then .release else .delete
  else if a.isObserveOnly then .observe
  else if a.id?.isSome then .update
  else .create

def User.plan (u : User) : UserAction :=
  if u.metadata.isDeleting then .delete else .issue

end CredentialEngine
