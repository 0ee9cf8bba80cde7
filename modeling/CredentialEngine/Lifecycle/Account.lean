import CredentialEngine.Catalog
import CredentialEngine.Claims.Account
import CredentialEngine.Lifecycle.World

/-!
# The life of an account

An account is issued with new keys, issued again with the keys it has, observed where it is managed
elsewhere, and revoked. Nothing is stored before its claims are known to be sound.
-/
namespace CredentialEngine.Lifecycle

/-- The result of an operation on an account, for its labels and status. -/
structure AccountOutcome where
  accountId : String
  /-- The operator key that signed the claims. -/
  signerId : String
  /-- The account's signing key. -/
  signingKey : String
  claims : AccountView
  deriving DecidableEq

variable {σ κ : Type} [Storage σ] [Control κ]

def ofClaims {ω α : Type} : Except Claims.ClaimsError α → Action ω α
  | .ok a => pure a
  | .error e => Action.fail (.claims e)

/-- The claims of an account under its keys. -/
def claimsOf (resolver : Claims.Resolver) (a : Account) (keys : Keyring.AccountKeys) :
    Except Claims.ClaimsError Claims.AccountClaims :=
  Claims.buildAccount a.metadata.name keys.accountId a.spec
    (Claims.resolveImports a.metadata.space resolver a.spec.imports) [keys.signing.publicText]

/-- What is reported of claims that the operator has signed. -/
def signedOutcome (claims : Claims.AccountClaims) (operator : Key.Pair)
    (keys : Keyring.AccountKeys) : AccountOutcome where
  accountId := claims.subject
  signerId := operator.publicText
  signingKey := keys.signing.publicText
  claims := claims.view

def publish (setting : Setting) (token : String) : Action (World σ κ) Unit :=
  World.connected setting (Control.upload token)

def signAndPublish (setting : Setting) (operator : Key.Pair) (claims : Claims.AccountClaims) :
    Action (World σ κ) Unit := do
  let token ← ofClaims (claims.sign setting.now operator)
  publish setting token

/-- Issues a new account: draws its keys, stores them and publishes its claims. -/
def issueAccount (setting : Setting) (resolver : Claims.Resolver) (a : Account) :
    Action (World σ κ) AccountOutcome := do
  let operator ← World.onSecrets (Keyring.operatorKey setting.operatorSpace)
  let root ← World.drawKey setting .account
  let signing ← World.drawKey setting .account
  let keys : Keyring.AccountKeys := ⟨root, signing⟩
  let claims ← ofClaims (claimsOf resolver a keys)
  Action.within ("store keys for account " ++ a.metadata.name)
    (World.onSecrets (Keyring.storeAccountKeys a.metadata.space a.metadata.name keys))
  signAndPublish setting operator claims
  return signedOutcome claims operator keys

/-- The keys of an account that has an id, which must be that of the root key. -/
def existingKeys (a : Account) : Action (World σ κ) Keyring.AccountKeys := do
  match a.id? with
  | none => Action.fail (.precondition (.accountWithoutId a.metadata.name : Cause))
  | some expected =>
    let keys ← World.onSecrets
      (Keyring.accountKeys a.metadata.space a.metadata.name (some expected))
    if keys.accountId = expected then return keys
    else Action.fail (.keyMismatch a.metadata.name expected keys.accountId)

/-- Issues an account again with the keys it has. -/
def reissueAccount (setting : Setting) (resolver : Claims.Resolver) (a : Account) :
    Action (World σ κ) AccountOutcome := do
  let operator ← World.onSecrets (Keyring.operatorKey setting.operatorSpace)
  let keys ← existingKeys a
  let claims ← ofClaims (claimsOf resolver a keys)
  signAndPublish setting operator claims
  return signedOutcome claims operator keys

/-- The claims that the cluster has published for an account id. -/
def publishedClaims (setting : Setting) (accountId : String) :
    Action (World σ κ) (Option Claims.AccountClaims) := do
  let token ← World.connected setting (Control.lookup accountId)
  let token := Text.trim token
  if token.isEmpty then return none
  else return some (← ofClaims (Claims.decodeAccount token))

/-- Reports the published claims of an account that is managed elsewhere. -/
def observeAccount (setting : Setting) (a : Account) : Action (World σ κ) AccountOutcome := do
  let keys ← existingKeys a
  match ← publishedClaims setting keys.accountId with
  | none =>
    Action.fail (.precondition (.nothingPublished a.metadata.name keys.accountId : Cause))
  | some claims =>
    if claims.subject = keys.accountId then
      return {
        accountId := keys.accountId
        signerId := claims.issuer.getD ""
        signingKey := keys.signing.publicText
        claims := claims.view }
    else Action.fail (.keyMismatch a.metadata.name keys.accountId claims.subject)

/-- The claims of a request to delete an account. -/
def deletionClaims (operator : Key.Pair) (accountId : String) :
    Claims.ClaimSet Claims.DeletionBody where
  subject := operator.publicText
  body := { accounts := [accountId] }

/-- Revokes an account on the cluster and then deletes the records of its id. Failing to delete them
is no failure, and an account without an id needs nothing. -/
def revokeAccount (setting : Setting) (a : Account) : Action (World σ κ) Unit := do
  match a.id? with
  | none => return ()
  | some accountId =>
    let operator ← World.onSecrets (Keyring.operatorKey setting.operatorSpace)
    let token ← ofClaims (Claims.encode setting.now operator (deletionClaims operator accountId))
    Action.within ("revoke account " ++ a.metadata.name)
      (World.connected setting (Control.delete token))
    let _ ← Action.attempt (World.onSecrets
      (Storage.deleteSelected a.metadata.space (Keyring.labels [(Label.accountId, accountId)])))
    return ()

end CredentialEngine.Lifecycle
