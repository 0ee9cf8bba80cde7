import CredentialEngine.Proofs.Claims.Imports
import CredentialEngine.Proofs.Claims.User
import CredentialEngine.Proofs.Keyring.Lawful
import CredentialEngine.Proofs.Lifecycle.KeyStability

/-!
# Issued users

What is kept of an issued user agrees with itself: the labels of its bundle's record, the token and
the seed in the bundle, and the outcome that is reported all name one user, one account and one
signer, and the reported claims are those that the token carries.
-/
namespace CredentialEngine.Lifecycle

open Secret Keyring CredentialEngine.Action

/-- The managed record of a user's bundle, labelled with an outcome. -/
structure IsBundleRecord (u : User) (o : UserOutcome) (r : Record) : Prop where
  location : r.location = bundleLocation u
  managed : r.isManaged = true
  hasRole : r.labels.get? Label.secretRole = some Role.userBundle.text
  hasUser : r.labels.get? Label.userId = some o.userId
  hasAccount : r.labels.get? Label.userAccountId = some o.accountId
  hasSigner : r.labels.get? Label.userSignedBy = some o.signerId

/-- The token of a bundle carries the claims, and they agree with the seed beside it and with an
outcome. -/
structure Agrees (u : User) (o : UserOutcome) (b : Key.Bundle)
    (c : Claims.ClaimSet Claims.UserBody) : Prop where
  decodes : Claims.decode b.token = .ok c
  seed : ∃ pair, Key.Pair.ofSeedText b.seed = .ok pair ∧ pair.publicText = o.userId
  subject : c.subject = o.userId
  issuer : c.issuer = o.signerId
  account : c.body.issuerAccount = o.accountId
  view : o.claims = (⟨c.name, c.subject, c.body⟩ : Claims.UserClaims).view u.spec.accountName

/-- What has happened when a user has been issued with an outcome, where the storage showed a table
before: its record holds a bundle that agrees with the outcome, whose account is the one that the
directory has and whose signer is the account's signing key as it was loaded. -/
structure UserIssued {σ κ : Type} [Storage σ] [LawfulStorage σ] (catalog : Catalog) (u : User)
    (o : UserOutcome) (t : Table) (w w' : World σ κ) : Prop where
  stored : ∃ t' r text b c, Shows w'.secrets t' ∧ t'.find? (bundleLocation u) = some r ∧
    IsBundleRecord u o r ∧ r.value? bundleKey = some text ∧ Key.Bundle.parse text = .ok b ∧
    Agrees u o b c
  account : ∃ a, catalog.account? u.metadata.space u.spec.accountName = some a ∧
    a.metadata.labels.get? Label.accountId = some o.accountId
  signer : ∃ keys s,
    accountKeys u.metadata.space u.spec.accountName (some o.accountId) w.secrets = .ok keys s ∧
    Lawful.Loaded t u.metadata.space u.spec.accountName o.accountId keys ∧
    o.signerId = keys.signing.publicText

/-- The account's signing key accepts its signature of the claims of the user. -/
def SignerAccepts {σ κ : Type} [Storage σ] (setting : Setting) (resolver : Claims.Resolver)
    (u : User) (w : World σ κ) : Prop :=
  ∀ id keys s claims, resolver.idOf u.metadata.space u.spec.accountName = .ok id →
    accountKeys u.metadata.space u.spec.accountName (some id) w.secrets = .ok keys s →
    Claims.buildUser u.metadata.name
      (Key.Pair.ofSeed .user (setting.keySource w.drawn)).publicText id u.spec = .ok claims →
    Claims.Accepted setting.now keys.signing claims.claimSet

/-! ## Records and bundles -/

section Labels

variable (userId accountId signerId : String)

theorem get?_bundleLabels (k : String) :
    (bundleLabels userId accountId signerId).get? k =
      if k = Label.userSignedBy then some signerId
      else if k = Label.userAccountId then some accountId
      else if k = Label.userId then some userId
      else if k = Label.secretRole then some Role.userBundle.text else none := by
  change ((((Dict.empty.insert Label.secretRole Role.userBundle.text).insert Label.userId
    userId).insert Label.userAccountId accountId).insert Label.userSignedBy signerId).get? k = _
  rw [Dict.get?_insert, Dict.get?_insert, Dict.get?_insert, Dict.get?_insert, Dict.get?_empty]

end Labels

theorem isBundleRecord_of_written {u : User} {o : UserOutcome} {d : Dict String} {r : Record}
    (h : Lawful.Written (bundleLocation u) (bundleLabels o.userId o.accountId o.signerId) d r) :
    IsBundleRecord u o r where
  location := h.location
  managed := h.managed (get?_bundleLabels _ _ _ _)
  hasRole := h.labels _ _ (by decide) (get?_bundleLabels _ _ _ _)
  hasUser := h.labels _ _ (by decide) (get?_bundleLabels _ _ _ _)
  hasAccount := h.labels _ _ (by decide) (get?_bundleLabels _ _ _ _)
  hasSigner := h.labels _ _ (by decide) (get?_bundleLabels _ _ _ _)

/-- The token that a signer makes and the seed that it is made for are read back from a bundle and
agree with the outcome. -/
theorem agrees_of_signed {u : User} {seed : List UInt8} {id : String} {signer : Key.Pair}
    {claims : Claims.UserClaims} {now : Int} {token : String} (hl : seed.length = 32)
    (hsigner : ∃ role seed, signer = Key.Pair.ofSeed role seed)
    (hbuilt : Claims.buildUser u.metadata.name (Key.Pair.ofSeed .user seed).publicText id u.spec =
      .ok claims)
    (hv : Claims.Accepted now signer claims.claimSet) (hsign : claims.sign now signer = .ok token) :
    ∃ b c, Key.Bundle.parse
        (⟨token, (Key.Pair.ofSeed .user seed).seedText?.getD ""⟩ : Key.Bundle).format = .ok b ∧
      Agrees u {
        userId := (Key.Pair.ofSeed .user seed).publicText
        accountId := id
        signerId := signer.publicText
        claims := claims.view u.spec.accountName } b c := by
  obtain ⟨text, htext, hpayload, huser, hread⟩ := Key.Bundle.seedText?_user hl
  obtain ⟨role, signerSeed, rfl⟩ := hsigner
  obtain ⟨htoken, hdecode⟩ := Claims.decode_of_signUser hv hsign
  obtain ⟨-, hsubject, haccount⟩ := Claims.buildUser_ok hbuilt
  rw [htext, Option.getD_some]
  exact ⟨_, _, Key.Bundle.parse_format htoken hpayload huser, {
    decodes := hdecode
    seed := ⟨_, hread, rfl⟩
    subject := hsubject
    issuer := rfl
    account := haccount
    view := rfl }⟩

/-! ## Issuance -/

/-- Where the account's keys are loaded and the claims are sound, issuing comes down to storing the
bundle. -/
theorem issueUser_eq {σ κ : Type} [Storage σ] {setting : Setting} {resolver : Claims.Resolver}
    {u : User} {w : World σ κ} {id token : String} {keys : AccountKeys} {s : σ}
    {claims : Claims.UserClaims}
    (hid : resolver.idOf u.metadata.space u.spec.accountName = .ok id)
    (hkeys : accountKeys u.metadata.space u.spec.accountName (some id) w.secrets = .ok keys s)
    (hbuilt : Claims.buildUser u.metadata.name
      (Key.Pair.ofSeed .user (setting.keySource w.drawn)).publicText id u.spec = .ok claims)
    (hsign : claims.sign setting.now keys.signing = .ok token) :
    issueUser setting resolver u w = (do
      within ("store credentials of user " ++ u.metadata.name) (World.onSecrets
        (put (some (Owner.user u.metadata)) (bundleLocation u)
          (bundleLabels (Key.Pair.ofSeed .user (setting.keySource w.drawn)).publicText id
            keys.signing.publicText)
          (Dict.ofList [(bundleKey, (⟨token, (Key.Pair.ofSeed .user
            (setting.keySource w.drawn)).seedText?.getD ""⟩ : Key.Bundle).format)])))
      return {
        userId := (Key.Pair.ofSeed .user (setting.keySource w.drawn)).publicText
        accountId := id
        signerId := keys.signing.publicText
        claims := claims.view u.spec.accountName } : Action (World σ κ) UserOutcome)
      { w with secrets := s, drawn := w.drawn + 1 } := by
  have hload : World.onSecrets (accountKeys u.metadata.space u.spec.accountName (some id)) w =
      .ok keys { w with secrets := s } := by
    rw [World.onSecrets, onPart, hkeys]
  unfold issueUser
  rw [hid]
  refine (bind_of_ok hload).trans ?_
  change EStateM.bind (ofClaims (Claims.buildUser _ _ _ _)) _
    ({ w with secrets := s, drawn := w.drawn + 1 } : World σ κ) = _
  rw [hbuilt]
  change EStateM.bind (ofClaims (claims.sign _ _)) _
    ({ w with secrets := s, drawn := w.drawn + 1 } : World σ κ) = _
  rw [hsign]
  rfl

/-- Issuing succeeds when, besides, the bundle can be stored. -/
theorem issueUser_of_parts {σ κ : Type} [Storage σ] {setting : Setting} {resolver : Claims.Resolver}
    {u : User} {w : World σ κ} {id token : String} {keys : AccountKeys} {s s' : σ}
    {claims : Claims.UserClaims}
    (hid : resolver.idOf u.metadata.space u.spec.accountName = .ok id)
    (hkeys : accountKeys u.metadata.space u.spec.accountName (some id) w.secrets = .ok keys s)
    (hbuilt : Claims.buildUser u.metadata.name
      (Key.Pair.ofSeed .user (setting.keySource w.drawn)).publicText id u.spec = .ok claims)
    (hsign : claims.sign setting.now keys.signing = .ok token)
    (hput : put (some (Owner.user u.metadata)) (bundleLocation u)
      (bundleLabels (Key.Pair.ofSeed .user (setting.keySource w.drawn)).publicText id
        keys.signing.publicText)
      (Dict.ofList [(bundleKey, (⟨token, (Key.Pair.ofSeed .user
        (setting.keySource w.drawn)).seedText?.getD ""⟩ : Key.Bundle).format)]) s = .ok () s') :
    issueUser setting resolver u w = .ok {
      userId := (Key.Pair.ofSeed .user (setting.keySource w.drawn)).publicText
      accountId := id
      signerId := keys.signing.publicText
      claims := claims.view u.spec.accountName } { w with secrets := s', drawn := w.drawn + 1 } := by
  have hstore : within ("store credentials of user " ++ u.metadata.name) (World.onSecrets
      (put (some (Owner.user u.metadata)) (bundleLocation u)
        (bundleLabels (Key.Pair.ofSeed .user (setting.keySource w.drawn)).publicText id
          keys.signing.publicText)
        (Dict.ofList [(bundleKey, (⟨token, (Key.Pair.ofSeed .user
          (setting.keySource w.drawn)).seedText?.getD ""⟩ : Key.Bundle).format)])))
      ({ w with secrets := s, drawn := w.drawn + 1 } : World σ κ) =
        .ok () { w with secrets := s', drawn := w.drawn + 1 } := by
    rw [within, World.onSecrets, onPart, hput]
  rw [issueUser_eq hid hkeys hbuilt hsign]
  refine (bind_of_ok hstore).trans ?_
  rfl

variable {σ κ : Type} [Storage σ] [LawfulStorage σ]

theorem idOf_standing {catalog : Catalog} {space name id : String}
    (h : catalog.standing.idOf space name = .ok id) :
    ∃ a, catalog.account? space name = some a ∧
      a.metadata.labels.get? Label.accountId = some id := by
  rw [Claims.Resolver.idOf] at h
  split at h
  · rename_i hs
    obtain ⟨a, ha, hid⟩ := Claims.standing_eq_issued.mp hs
    obtain rfl := Except.ok.inj h
    exact ⟨a, ha, hid.1⟩
  · contradiction
  · contradiction

/-- Whatever the storage and the directory, a user that is issued with success has a managed record
with its labels, whose bundle is read back: its token carries the reported claims, for the user
whose seed is beside it, in the account whose id the directory has, signed by the account's signing
key as it was loaded. Seeds have 32 bytes, and the curve is assumed to accept the signature. -/
theorem userIssued_of_issueUser (setting : Setting) (catalog : Catalog) (u : User)
    {w w' : World σ κ} {t : Table} {o : UserOutcome} (ht : Shows w.secrets t)
    (hl : (setting.keySource w.drawn).length = 32)
    (hv : SignerAccepts setting catalog.standing u w)
    (h : issueUser setting catalog.standing u w = .ok o w') : UserIssued catalog u o t w w' := by
  refine Ends.returned (Q := fun o w' => UserIssued catalog u o t w w') (E := fun _ => True) ?_ h
  -- the account's id and its keys
  refine ends_bind (ends_within (ends_ofExcept (fun id hid => ?_) trivial))
  refine ends_bind (World.ends_onSecrets ?_)
  have hload := Lawful.ends_accountKeys ht u.metadata.space u.spec.accountName id
  cases hkeys : accountKeys u.metadata.space u.spec.accountName (some id) w.secrets with
  | error e s => exact ends_error hkeys trivial
  | ok keys s =>
    obtain ⟨⟨t₁, hs, -⟩, hloaded⟩ := hload.returned hkeys
    -- the user's key, its claims and their token
    refine ends_ok hkeys (ends_bind (World.ends_drawKey ?_))
    refine ends_bind (ends_ofClaims (fun claims hbuilt => ?_) trivial)
    refine ends_bind (ends_ofClaims (fun token hsign => ?_) trivial)
    obtain ⟨record, -, hrecord⟩ := hloaded.signing
    obtain ⟨b, c, hparse, hagrees⟩ := agrees_of_signed hl
      (Lawful.exists_ofSeed_of_accountKeyOf hrecord) hbuilt (hv id keys s claims hid hkeys hbuilt)
      hsign
    -- the record that keeps both
    refine ends_bind (ends_within (World.ends_onSecrets ?_))
    refine (Lawful.ends_put hs _ _ _ _).mono (fun _ s' hput => ends_pure ?_) fun _ _ => trivial
    obtain ⟨r, hs', hwritten⟩ := hput
    have hfind : (t₁.put r).find? (bundleLocation u) = some r := by
      rw [Table.find?_put, hwritten.location, if_pos rfl]
    have hvalue : r.value? bundleKey =
        some (⟨token, (Key.Pair.ofSeed .user (setting.keySource w.drawn)).seedText?.getD ""⟩ :
          Key.Bundle).format := by
      rw [Record.value?, hwritten.data]
      rfl
    exact {
      stored := ⟨_, r, _, b, c, hs', hfind, isBundleRecord_of_written hwritten, hvalue, hparse,
        hagrees⟩
      account := idOf_standing hid
      signer := ⟨keys, s, hkeys, hloaded, rfl⟩ }

/-! ## A user of the shop -/

/-- The account of the shop once it has been issued. -/
def issuedOrders : Account where
  metadata := {
    name := "orders"
    space := "shop"
    labels := labels [(Label.accountId,
      "AA5WUJ54Z23KILLCUOUNAKTPBVZWKMQVO4O6EQ5GHLAERIMLLHNCS47C")] }

def ordersKeys : AccountKeys :=
  newKeys shopSetting.keySource 0

/-- A table with the two keys of the shop's account. -/
def ordersTable : Table :=
  (Table.put {} (keyRecord "shop" "orders" ordersKeys .accountRoot)).put
    (keyRecord "shop" "orders" ordersKeys .accountSigning)

/-- The world after the account was issued, which took two keys. -/
def ordersWorld : World Table Agreeing where
  secrets := ordersTable
  cluster := {}
  drawn := 2

def alice : User where
  metadata := { name := "alice", space := "shop" }
  spec := { accountName := "orders", natsLimits := some { subs := some 5 } }

def aliceClaims : Claims.UserClaims where
  name := "alice"
  subject := "UB2CFOMIOWMANDRSYRCIVFE23MUQ2D2OGW46AGYO4XY2DZQA7YTHJ3SN"
  body := {
    subs := 5
    issuerAccount := "AA5WUJ54Z23KILLCUOUNAKTPBVZWKMQVO4O6EQ5GHLAERIMLLHNCS47C"
    kind := "user"
    version := 2 }

theorem accountId_orders :
    ordersKeys.accountId = "AA5WUJ54Z23KILLCUOUNAKTPBVZWKMQVO4O6EQ5GHLAERIMLLHNCS47C" :=
  (Key.Pair.publicText_ofSeed .account (shopSetting.keySource 0)).trans (by decide +kernel)

theorem publicText_alice : (Key.Pair.ofSeed .user (shopSetting.keySource 2)).publicText =
    "UB2CFOMIOWMANDRSYRCIVFE23MUQ2D2OGW46AGYO4XY2DZQA7YTHJ3SN" :=
  (Key.Pair.publicText_ofSeed .user (shopSetting.keySource 2)).trans (by decide +kernel)

theorem publicText_ordersSigning : ordersKeys.signing.publicText =
    "ABGLLK7WVV47X5NLXTFPZQTJ3BONEZI62S4ILNMGT4SBV3PQUW5CTSFF" :=
  (Key.Pair.publicText_ofSeed .account (shopSetting.keySource 1)).trans (by decide +kernel)

theorem accepted_alice : Claims.Accepted 0 ordersKeys.signing aliceClaims.claimSet :=
  Claims.accepted_of_worked (by decide +kernel)

theorem publicText_signing_ne_orders : ordersKeys.signing.publicText ≠ ordersKeys.accountId := by
  rw [publicText_ordersSigning, accountId_orders]
  decide

theorem accountKeys_orders :
    accountKeys "shop" "orders" (some ordersKeys.accountId) ordersTable =
      .ok ordersKeys ordersTable := by
  have hsound : ordersKeys.Sound := sound_newKeys (fun _ => rfl) 0
  have hstored : storeAccountKeys "shop" "orders" ordersKeys {} = .ok () ordersTable :=
    storeAccountKeys_of_free fun _ _ => rfl
  exact accountKeys_of_stored hsound publicText_signing_ne_orders
    (fun r hr => absurd hr List.not_mem_nil) hstored

/-- A directory with the issued account. -/
def shopCatalog : Catalog :=
  Catalog.putAccount {} issuedOrders

theorem idOf_orders : shopCatalog.standing.idOf "shop" "orders" = .ok ordersKeys.accountId := by
  rw [accountId_orders]
  decide

theorem built_alice :
    Claims.buildUser "alice" (Key.Pair.ofSeed .user (shopSetting.keySource 2)).publicText
      ordersKeys.accountId alice.spec = .ok aliceClaims := by
  rw [publicText_alice, accountId_orders]
  rfl

theorem signerAccepts_alice :
    SignerAccepts shopSetting shopCatalog.standing alice ordersWorld := by
  intro id keys s claims hid hkeys hbuilt
  obtain rfl := Except.ok.inj (idOf_orders.symm.trans hid)
  have hload : accountKeys "shop" "orders" (some ordersKeys.accountId) ordersTable = .ok keys s :=
    hkeys
  rw [accountKeys_orders] at hload
  obtain ⟨rfl, -⟩ := EStateM.Result.ok.inj hload
  obtain rfl := Except.ok.inj (built_alice.symm.trans hbuilt)
  exact accepted_alice

theorem alice_issued :
    ∃ o w', issueUser shopSetting shopCatalog.standing alice ordersWorld = .ok o w' := by
  obtain ⟨token, hsign⟩ : ∃ token, aliceClaims.sign 0 ordersKeys.signing = .ok token := ⟨_, rfl⟩
  have hfree : ordersTable.find? (bundleLocation alice) = none := by
    have hapart : ∀ role, (keyRecord "shop" "orders" ordersKeys role).location ≠
        bundleLocation alice := fun role he =>
      keyName_ne_bundleName "orders" ordersKeys.accountId role alice (congrArg Location.name he)
    rw [ordersTable, Table.find?_put, if_neg (hapart _), Table.find?_put, if_neg (hapart _)]
    rfl
  exact ⟨_, _, issueUser_of_parts idOf_orders accountKeys_orders built_alice hsign
    (put_of_free hfree _ _ _)⟩

theorem userIssued_of_issueUser_alice :
    ∃ o w', issueUser shopSetting shopCatalog.standing alice ordersWorld = .ok o w' ∧
      UserIssued shopCatalog alice o ordersTable ordersWorld w' := by
  obtain ⟨o, w', h⟩ := alice_issued
  exact ⟨o, w', h, userIssued_of_issueUser shopSetting shopCatalog alice rfl rfl
    signerAccepts_alice h⟩

end CredentialEngine.Lifecycle
