import CredentialEngine.Claims.User
import CredentialEngine.Lifecycle.Account

/-!
# The life of a user

A user gets a new key pair at every issuance; token and seed go into one credential bundle, which is
kept as a secret of the user. Earlier pairs are superseded and never revoked.
-/
namespace CredentialEngine.Lifecycle

/-- The result of issuing a user, for its labels and status. -/
structure UserOutcome where
  userId : String
  accountId : String
  /-- The account's signing key that signed the user. -/
  signerId : String
  claims : UserView
  deriving DecidableEq

variable {σ κ : Type} [Storage σ]

def bundleLabels (userId accountId signerId : String) : Labels :=
  Keyring.labels [(Label.secretRole, Secret.Role.userBundle.text), (Label.userId, userId),
    (Label.userAccountId, accountId), (Label.userSignedBy, signerId)]

def bundleLocation (u : User) : Secret.Location :=
  ⟨u.metadata.space, u.bundleName⟩

def issueUser (setting : Setting) (resolver : Claims.Resolver) (u : User) :
    Action (World σ κ) UserOutcome := do
  let m := u.metadata
  let accountId ← Action.within ("account of user " ++ m.name)
    (Action.ofExcept (resolver.idOf m.space u.spec.accountName))
  let keys ← World.onSecrets (Keyring.accountKeys m.space u.spec.accountName (some accountId))
  let userKey ← World.drawKey setting .user
  let userId := userKey.publicText
  let signerId := keys.signing.publicText
  let claims ← ofClaims (Claims.buildUser m.name userId accountId u.spec)
  let token ← ofClaims (claims.sign setting.now keys.signing)
  let bundle : Key.Bundle := ⟨token, userKey.seedText?.getD ""⟩
  Action.within ("store credentials of user " ++ m.name)
    (World.onSecrets (Keyring.put (some (Owner.user m)) (bundleLocation u)
      (bundleLabels userId accountId signerId)
      (Dict.ofList [(Secret.bundleKey, bundle.format)])))
  return { userId, accountId, signerId, claims := claims.view u.spec.accountName }

/-- Deletes a user's bundle. The account may have no id or be gone, and an absent bundle counts as
deleted. -/
def withdrawUser (u : User) : Action (World σ κ) Unit :=
  World.onSecrets (Keyring.remove (bundleLocation u))

end CredentialEngine.Lifecycle
