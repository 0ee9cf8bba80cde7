import CredentialEngine.Proofs.Keyring.Sources
import CredentialEngine.Proofs.Lifecycle.Issuance

/-!
# Who signs a user

A user is signed with the signing key that is loaded for the id of its account. Nothing compares the
root key that is loaded beside it with that id, so the two agree just when the source of the root
key holds the key of the id: records without labels may hold the keys of another account. A user
that is not issued leaves its bundle as it was.
-/
namespace CredentialEngine.Lifecycle

open Secret Keyring CredentialEngine.Action

/-- The source of an account's root key holds the key of its id. -/
def RootHolds (t : Table) (space account id : String) : Prop :=
  ∃ r, source? t space account id .accountRoot = some r ∧ HoldsKey r id

/-- A table has the bundle of a user, with a token for the account of an outcome that the signing
key of a pair has signed. -/
structure SignedWith (setting : Setting) (u : User) (o : UserOutcome) (keys : AccountKeys)
    (t : Table) : Prop where
  signer : o.signerId = keys.signing.publicText
  bundle : ∃ r, ∃ claims : Claims.UserClaims, ∃ token seed, t.find? (bundleLocation u) = some r ∧
    claims.body.issuerAccount = o.accountId ∧ claims.sign setting.now keys.signing = .ok token ∧
    r.value? bundleKey = some (⟨token, seed⟩ : Key.Bundle).format

/-- The root key that was loaded is the key of an id just when its source holds that key. -/
theorem accountId_eq_iff {t : Table} {space account id : String} {keys : AccountKeys}
    (h : Lawful.Sourced t space account id keys) :
    keys.accountId = id ↔ RootHolds t space account id := by
  obtain ⟨r, hsource, hkey⟩ := h .accountRoot (by decide)
  constructor
  · intro hid
    exact ⟨r, hsource, (holdsKey_iff hkey).mpr hid⟩
  · rintro ⟨r', hsource', hholds⟩
    obtain rfl := Option.some.inj (hsource.symm.trans hsource')
    exact (holdsKey_iff hkey).mp hholds

theorem bundleLocation_ne_fixed (u : User) (space account : String) (role : Role) :
    bundleLocation u ≠ ⟨space, fixedName account role⟩ :=
  fun he => fixedName_ne_bundleName account role u (congrArg Location.name he).symm

variable {σ κ : Type} [Storage σ] [LawfulStorage σ]

/-- Whatever the storage and the directory, a user that is issued gets a bundle for the id of its
account that is signed with the signing key loaded for that id, and the root key loaded with it is
the key of the id just when the source of the root key holds it. A user that is not issued has what
it had before at the name of its bundle. -/
theorem signer_of_issueUser (setting : Setting) (resolver : Claims.Resolver) (u : User)
    {w : World σ κ} {t : Table} (ht : Shows w.secrets t) :
    Ends (issueUser setting resolver u)
      (fun o w' => ∃ t' keys s, Shows w'.secrets t' ∧
        accountKeys u.metadata.space u.spec.accountName (some o.accountId) w.secrets = .ok keys s ∧
        SignedWith setting u o keys t' ∧
        (keys.accountId = o.accountId ↔
          RootHolds t u.metadata.space u.spec.accountName o.accountId))
      (fun w' => ∃ t', Shows w'.secrets t' ∧
        t'.find? (bundleLocation u) = t.find? (bundleLocation u)) w := by
  refine ends_bind (ends_within (ends_ofExcept (fun id _ => ?_) ⟨t, ht, rfl⟩))
  refine ends_bind (World.ends_onSecrets ?_)
  have hload := Lawful.ends_accountKeys_sourced ht u.metadata.space u.spec.accountName id
  have hspared : ∀ s : σ, Lawful.Adopting u.metadata.space u.spec.accountName t s →
      ∃ t', Shows s t' ∧ t'.find? (bundleLocation u) = t.find? (bundleLocation u) := by
    rintro s ⟨t', hs, hadopted⟩
    exact ⟨t', hs, hadopted.apart _ fun role _ => bundleLocation_ne_fixed u _ _ role⟩
  cases hkeys : accountKeys u.metadata.space u.spec.accountName (some id) w.secrets with
  | error e s =>
    rw [Ends, hkeys] at hload
    exact ends_error hkeys (hspared s hload)
  | ok keys s =>
    obtain ⟨hadopting, hsourced⟩ := hload.returned hkeys
    obtain ⟨t₁, hs, hsame⟩ := hspared s hadopting
    refine ends_ok hkeys (ends_bind (World.ends_drawKey ?_))
    refine ends_bind (ends_ofClaims (fun claims hbuilt => ?_) ⟨t₁, hs, hsame⟩)
    refine ends_bind (ends_ofClaims (fun token hsign => ?_) ⟨t₁, hs, hsame⟩)
    refine ends_bind (ends_within (World.ends_onSecrets ?_))
    refine (Lawful.ends_put hs _ _ _ _).mono (fun _ s' hput => ends_pure ?_)
      fun _ hs => ⟨t₁, hs, hsame⟩
    obtain ⟨r, hs', hwritten⟩ := hput
    have hfind : (t₁.put r).find? (bundleLocation u) = some r := by
      rw [Table.find?_put, hwritten.location, if_pos rfl]
    have hvalue : r.value? bundleKey =
        some (⟨token, (Key.Pair.ofSeed .user (setting.keySource w.drawn)).seedText?.getD ""⟩ :
          Key.Bundle).format := by
      rw [Record.value?, hwritten.data]
      rfl
    exact ⟨_, keys, s, hs', hkeys,
      ⟨rfl, r, claims, token, _, hfind, (Claims.buildUser_ok hbuilt).2.2, hsign, hvalue⟩,
      accountId_eq_iff hsourced⟩

/-- The user of the shop is signed under the key of its account. -/
theorem signer_of_issueUser_alice :
    ∃ o w' keys s, issueUser shopSetting shopCatalog.standing alice ordersWorld = .ok o w' ∧
      accountKeys "shop" "orders" (some o.accountId) ordersTable = .ok keys s ∧
      SignedWith shopSetting alice o keys w'.secrets ∧
      (keys.accountId = o.accountId ↔ RootHolds ordersTable "shop" "orders" o.accountId) := by
  obtain ⟨o, w', h⟩ := alice_issued
  obtain ⟨t', keys, s, hshows, hkeys, hsigned, hiff⟩ := (signer_of_issueUser shopSetting
    shopCatalog.standing alice (w := ordersWorld) (t := ordersTable) rfl).returned h
  obtain rfl : w'.secrets = t' := hshows
  exact ⟨o, w', keys, s, h, hkeys, hsigned, hiff⟩

/-! ## A user under foreign keys -/

/-- The keys of an earlier account of the shop. -/
def earlierKeys : AccountKeys :=
  newKeys shopSetting.keySource 3

/-- The shop with the keys of the earlier account at the fixed names of the present one. -/
def succeededWorld : World Table Agreeing where
  secrets := withFixed {} "shop" "orders" earlierKeys
  cluster := {}
  drawn := 2

theorem accountId_earlier :
    earlierKeys.accountId = "ADZYCYTOIHTQE7VEGG76GAE6SS65EWTUNPXMI2EURVWDY7C5ZGSUXJZT" :=
  (Key.Pair.publicText_ofSeed .account (shopSetting.keySource 3)).trans (by decide +kernel)

theorem accountId_earlier_ne : earlierKeys.accountId ≠ ordersKeys.accountId := by
  rw [accountId_earlier, accountId_orders]
  decide

/-- A user is issued for the account of the directory and signed with a key of the earlier one. -/
theorem foreign_signer_of_issueUser :
    ∃ o w' keys s, issueUser shopSetting shopCatalog.standing alice succeededWorld = .ok o w' ∧
      accountKeys "shop" "orders" (some o.accountId) succeededWorld.secrets = .ok keys s ∧
      o.signerId = keys.signing.publicText ∧ keys.accountId ≠ o.accountId := by
  have hsound : earlierKeys.Sound := sound_newKeys (fun _ => rfl) 3
  obtain ⟨s, hkeys⟩ : ∃ s, accountKeys "shop" "orders" (some ordersKeys.accountId)
      succeededWorld.secrets = .ok earlierKeys s :=
    accountKeys_withFixed ordersKeys.accountId hsound nofun
  obtain ⟨token, hsign⟩ : ∃ token, aliceClaims.sign 0 earlierKeys.signing = .ok token := ⟨_, rfl⟩
  have hfree : s.find? (bundleLocation alice) = none := by
    obtain ⟨t', hs, hadopted⟩ := ((Lawful.ends_accountKeys_sourced
      (show Shows succeededWorld.secrets _ from rfl) "shop" "orders" _).returned hkeys).1
    obtain rfl : s = t' := hs
    rw [hadopted.apart _ fun role _ => bundleLocation_ne_fixed alice _ _ role]
    refine Table.find?_eq_none_iff.mpr fun r hr he => ?_
    rcases mem_withFixed hr with hr | ⟨role, -, rfl⟩
    · exact absurd hr List.not_mem_nil
    · exact bundleLocation_ne_fixed alice "shop" "orders" role he.symm
  exact ⟨_, _, earlierKeys, s, issueUser_of_parts (w := succeededWorld) idOf_orders hkeys
    built_alice hsign (put_of_free hfree _ _ _), hkeys, rfl, accountId_earlier_ne⟩

end CredentialEngine.Lifecycle
