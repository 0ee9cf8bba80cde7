import CredentialEngine.Lifecycle.Fleet
import CredentialEngine.Lifecycle.User
import CredentialEngine.Resource.Plan

/-!
# Reconciling resources

A resource is brought to its declared state by the operation that its plan names, under a deadline.
Success is written to its labels and status, failure to its status alone. An account with users is
not deleted.
-/
namespace CredentialEngine.Lifecycle

variable {σ κ : Type} [Storage σ] [Control κ]

/-- Turns an operation that never answers into an error once the deadline has passed. -/
def bounded {ω α : Type} (key : String) (act : Action ω α) : Action ω α := fun s =>
  match act s with
  | .error .stalled s => .error (.failed (.timeout ("reconcile " ++ key))) s
  | r => r

/-- An account with the outcome of an operation on it. -/
def recordAccount (setting : Setting) (a : Account) (o : AccountOutcome) : Account where
  metadata := (a.metadata.setLabel Label.accountId o.accountId).setLabel Label.accountSignedBy
    o.signerId
  spec := a.spec
  status := {
    claims := some o.claims
    signingKey := some o.signingKey
    ready := true
    message := none
    reconciledAt := some setting.timestamp }

/-- An account with a failure in its status. -/
def failAccount (setting : Setting) (a : Account) (e : Error) : Account :=
  { a with status := { a.status with
      ready := false, message := some e.message, reconciledAt := some setting.timestamp } }

/-- A user with the outcome of its issuance. -/
def recordUser (setting : Setting) (u : User) (o : UserOutcome) : User where
  metadata := ((u.metadata.setLabel Label.userId o.userId).setLabel Label.userAccountId
    o.accountId).setLabel Label.userSignedBy o.signerId
  spec := u.spec
  status := {
    claims := some o.claims
    ready := true
    message := none
    reconciledAt := some setting.timestamp }

/-- A user with a failure in its status. -/
def failUser (setting : Setting) (u : User) (e : Error) : User :=
  { u with status := { u.status with
      ready := false, message := some e.message, reconciledAt := some setting.timestamp } }

/-- No account is deleted while users refer to it. -/
def guardDeletion (catalog : Catalog) (a : Account) : Except Error Unit :=
  match catalog.usersOf a.metadata.space a.metadata.name with
  | [] => .ok ()
  | users => .error (.deleteGuard a.metadata.key users.length)

/-- The cluster of an account in the present world. -/
def route (a : Account) : Action (World σ (Fleet κ)) Route := do
  Action.ofExcept ((← EStateM.get).cluster.routeOf a)

def applyAccount (setting : Setting) (catalog : Catalog) (a : Account) :
    Action (World σ (Fleet κ)) Account := do
  let key := a.metadata.key
  let issued (act : Action (World σ κ) AccountOutcome) : Action (World σ (Fleet κ)) Account := do
    let o ← bounded key (Fleet.on (← route a) act)
    return recordAccount setting a o
  match a.plan with
  | .release => return a
  | .delete =>
    let r ← route a
    Action.ofExcept (guardDeletion catalog a)
    bounded key (Fleet.on r (revokeAccount setting a))
    return a
  | .create => issued (issueAccount setting catalog.standing a)
  | .update => issued (reissueAccount setting catalog.standing a)
  | .observe => issued (observeAccount setting a)

/-- Reconciles an account: the action or the error, with the account as it is afterwards. -/
def reconcileAccount (setting : Setting) (catalog : Catalog) (a : Account) :
    Action (World σ (Fleet κ)) (Except Error AccountAction × Account) := do
  match ← Action.attempt (applyAccount setting catalog a) with
  | .ok a' => return (.ok a.plan, a')
  | .error e => return (.error e, failAccount setting a e)

/-- Carries out the plan of a user. The account must be known to issue a user; to delete one, the
default cluster's provider stands in for that of an absent account. -/
def applyUser (setting : Setting) (catalog : Catalog) (u : User) :
    Action (World σ (Fleet κ)) User := do
  let key := u.metadata.key
  let account? := catalog.account? u.metadata.space u.spec.accountName
  match u.plan with
  | .delete =>
    let r ← match account? with
      | some a => route a
      | none => pure Route.default
    bounded key (Fleet.on r (withdrawUser u))
    return u
  | .issue =>
    match account? with
    | none =>
      Action.fail (.precondition
        (.accountUnknown u.metadata.space u.spec.accountName : Cause))
    | some a =>
      let o ← bounded key (Fleet.on (← route a) (issueUser setting catalog.standing u))
      return recordUser setting u o

/-- Reconciles a user: the action or the error, with the user as it is afterwards. -/
def reconcileUser (setting : Setting) (catalog : Catalog) (u : User) :
    Action (World σ (Fleet κ)) (Except Error UserAction × User) := do
  match ← Action.attempt (applyUser setting catalog u) with
  | .ok u' => return (.ok u.plan, u')
  | .error e => return (.error e, failUser setting u e)

end CredentialEngine.Lifecycle
