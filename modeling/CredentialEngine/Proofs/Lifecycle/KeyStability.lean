import CredentialEngine.Proofs.Key.Curve
import CredentialEngine.Proofs.Keyring.Holding
import CredentialEngine.Proofs.Lifecycle.Steps

/-!
# Accounts keep their keys

The keys that an account gets when it is created are the ones that are loaded for its id after any
further reconciles, as long as the account of that id is not deleted.
-/
namespace CredentialEngine.Lifecycle

open Secret Keyring CredentialEngine.Action

variable {source : Nat → List UInt8} {space account : String} {keys : AccountKeys} {t : Table}
  {n n' : Nat} {x : Resource}

theorem sound_newKeys (hl : ∀ n, (source n).length = 32) (n : Nat) : (newKeys source n).Sound := by
  intro role hr
  rcases List.mem_cons.mp hr with rfl | hr
  · exact keyOfSeedFor_ofSeed .account (hl n) (by decide)
  · obtain rfl := List.mem_singleton.mp hr
    exact keyOfSeedFor_ofSeed .account (hl (n + 1)) (by decide)

/-- A reconcile that leaves an account alone: it deletes no account of the id, and where it creates
one there is nothing at the names of the new keys. -/
structure Allowed (source : Nat → List UInt8) (space id : String) (x : Resource) (t : Table)
    (n : Nat) : Prop where
  free : ∀ a, x = .account a → a.plan = .create → ∀ role ∈ keyRoles,
    t.find? (keyLocation a.metadata.space a.metadata.name (newKeys source n) role) = none
  kept : ∀ a, x = .account a → a.plan = .delete → a.metadata.space = space → a.id? ≠ some id

theorem accountId_bundleLabels (userId accountId signerId : String) :
    (bundleLabels userId accountId signerId).get? Label.accountId = none := by
  change ((((Dict.empty.insert Label.secretRole Role.userBundle.text).insert Label.userId
    userId).insert Label.userAccountId accountId).insert Label.userSignedBy signerId).get? _ = _
  rw [Dict.get?_insert_of_ne _ _ (by decide), Dict.get?_insert_of_ne _ _ (by decide),
    Dict.get?_insert_of_ne _ _ (by decide), Dict.get?_insert_of_ne _ _ (by decide)]
  rfl

theorem ne_of_drawn (hne : ∀ m, n ≤ m → m < n' → (accountPair source m).publicText ≠ keys.accountId)
    (hn : n + 2 ≤ n') {role : Role} (hr : role ∈ keyRoles) :
    ((newKeys source n).ofRole role).publicText ≠ keys.accountId := by
  rcases List.mem_cons.mp hr with rfl | hr
  · exact hne n (Nat.le_refl n) (by omega)
  · obtain rfl := List.mem_singleton.mp hr
    exact hne (n + 1) (by omega) (by omega)

theorem spares_account {a : Account} (hl : ∀ n, (source n).length = 32)
    (h : Keeps space account keys t) (ha : Allowed source space keys.accountId (.account a) t n)
    (hne : ∀ m, n ≤ m → m < n' → (accountPair source m).publicText ≠ keys.accountId) :
    Spares (scopeOf source t n n' (.account a)) space account keys := by
  constructor
  · intro loc l d hw role hr he
    obtain ⟨hp, -, role', hr', rfl, -⟩ := hw
    obtain ⟨r, hf, -⟩ := h.stored role hr
    have hfree := ha.free a rfl hp role' hr'
    rw [he, hf] at hfree
    contradiction
  · intro loc l d hw hid
    obtain ⟨-, hn, role, -, -, rfl, -⟩ := hw
    have hroot : Role.accountRoot ∈ keyRoles := by decide
    rw [id_keyLabels] at hid
    exact ne_of_drawn hne hn hroot (Option.some.inj hid)
  · intro loc l d hw r hd hk
    obtain ⟨-, hn, role, hr, -, -, rfl⟩ := hw
    exact ne_of_drawn hne hn hr (publicText_of_holdsKey (sound_newKeys hl n) hr hd hk)
  · intro loc l hr
    obtain ⟨-, id, -, hadopts⟩ := hr
    exact h.of_adopts hadopts
  · intro r hr hs hid
    obtain ⟨hp, hspace, id, hid', hlabel⟩ := hr
    obtain rfl : id = keys.accountId := Option.some.inj (hlabel.symm.trans hid)
    exact absurd hid' (ha.kept a rfl hp (hspace.symm.trans hs))

/-- What is done for a user touches its bundle, which is no key record, and adopted records. -/
theorem spares_user {u : User} (h : Keeps space account keys t) :
    Spares (scopeOf source t n n' (.user u)) space account keys := by
  have hbundle : ∀ role ∈ keyRoles, bundleLocation u ≠ keyLocation space account keys role :=
    fun role _ he => keyName_ne_bundleName account keys.accountId role u
      (congrArg Location.name he).symm
  constructor
  · intro loc l d hw
    obtain ⟨-, rfl, -⟩ := hw
    exact hbundle
  · intro loc l d hw hid
    obtain ⟨-, -, userId, accountId, signerId, text, rfl, -⟩ := hw
    rw [accountId_bundleLabels] at hid
    contradiction
  · intro loc l d hw r hd hk
    obtain ⟨-, -, userId, accountId, signerId, text, -, rfl⟩ := hw
    obtain ⟨seed, pair, hseed, -⟩ := hk
    rw [Record.value?, hd] at hseed
    contradiction
  · intro loc l hr
    obtain ⟨-, id, hadopts⟩ := hr
    exact h.of_adopts hadopts
  · intro r hr _ _
    rw [hr.2]
    exact hbundle

/-- An allowed reconcile spares the keys, if the keys that it draws are others. -/
theorem spares_scopeOf (hl : ∀ n, (source n).length = 32) (h : Keeps space account keys t)
    (ha : Allowed source space keys.accountId x t n)
    (hne : ∀ m, n ≤ m → m < n' → (accountPair source m).publicText ≠ keys.accountId) :
    Spares (scopeOf source t n n' x) space account keys := by
  cases x with
  | account a => exact spares_account hl h ha hne
  | user u => exact spares_user h

/-! ## Runs -/

variable {κ : Type} [Control κ]

/-- One turn of a run: a resource is reconciled, under any setting that draws keys from the same
source and any catalog, on clusters that may have changed in the meantime. -/
inductive Turn (source : Nat → List UInt8) (space id : String) :
    World Table (Fleet κ) → World Table (Fleet κ) → Prop
  | reconciled {w : World Table (Fleet κ)} {setting : Setting} (catalog : Catalog) {x : Resource}
    (fleet : Fleet κ) (hs : setting.keySource = source)
    (ha : Allowed source space id x w.secrets w.drawn) :
    Turn source space id w (leaves (reconcile setting catalog x { w with cluster := fleet }))

/-- Turns one after another. -/
abbrev Run (source : Nat → List UInt8) (space id : String) :
    World Table (Fleet κ) → World Table (Fleet κ) → Prop :=
  Relation.ReflTransGen (Turn source space id)

variable {w w' : World Table (Fleet κ)}

theorem leads_of_turn {id : String} (h : Turn source space id w w') :
    ∃ x, Allowed source space id x w.secrets w.drawn ∧
      Moves source x w.secrets w.drawn w'.secrets w'.drawn := by
  cases h with
  | reconciled catalog fleet hs ha =>
    rename_i setting x
    subst hs
    exact ⟨x, ha, leads_reconcile setting catalog x { w with cluster := fleet }⟩

theorem drawn_le_of_run {id : String} (h : Run source space id w w') : w.drawn ≤ w'.drawn := by
  induction h with
  | refl => exact Nat.le_refl _
  | tail _ hturn ih =>
    obtain ⟨x, -, hmoves⟩ := leads_of_turn hturn
    exact Nat.le_trans ih hmoves.drawn_le

/-- A run leaves keys in place that are none of those drawn in it. -/
theorem keeps_of_run (hl : ∀ n, (source n).length = 32)
    (hrun : Run source space keys.accountId w w') (h : Keeps space account keys w.secrets)
    (hne : ∀ m, w.drawn ≤ m → m < w'.drawn → (accountPair source m).publicText ≠ keys.accountId) :
    Keeps space account keys w'.secrets := by
  induction hrun with
  | refl => exact h
  | tail hbefore hturn ih =>
    obtain ⟨x, hallowed, hmoves⟩ := leads_of_turn hturn
    have hle := drawn_le_of_run hbefore
    have hkeeps := ih fun m hm hm' => hne m hm (Nat.lt_of_lt_of_le hm' hmoves.drawn_le)
    have hspares := spares_scopeOf hl hkeeps hallowed
      fun m hm hm' => hne m (Nat.le_trans hle hm) hm'
    exact keeps_of_steps hspares hkeeps hmoves.steps

/-! ## Created accounts -/

theorem id?_recordAccount (setting : Setting) (a : Account) (o : AccountOutcome) :
    (recordAccount setting a o).id? = (some o.accountId).filter fun v => !v.isEmpty := by
  change (((a.metadata.labels.insert Label.accountId o.accountId).insert Label.accountSignedBy
    o.signerId).get? Label.accountId).filter _ = _
  rw [Dict.get?_insert_of_ne _ _ (by decide), Dict.get?_insert_self]

/-- A creation with success stored the keys drawn by it, whose id it reports. -/
theorem issued_of_created {setting : Setting} {catalog : Catalog} {a a' : Account} {id : String}
    (hc : reconcileAccount setting catalog a w = .ok (.ok .create, a') w')
    (hid : a'.id? = some id) :
    ∃ o, Issued setting a o w.secrets w.drawn w'.secrets w'.drawn ∧
      id = (newKeys setting.keySource w.drawn).accountId ∧
      a'.status.signingKey = some (newKeys setting.keySource w.drawn).signing.publicText := by
  obtain ⟨-, hdone⟩ := (ends_reconcileAccount catalog w).returned hc
  obtain ⟨hp, happlied⟩ := hdone .create rfl
  obtain ⟨o, hissued, rfl⟩ := happlied.created hp.symm
  rw [id?_recordAccount, hissued.accountId] at hid
  refine ⟨o, hissued, ?_, congrArg some hissued.signingKey⟩
  exact (Option.some.inj (Option.filter_eq_some_iff.mp hid).1).symm

/-- An account that was issued again with success reports the id and the key that were loaded. -/
theorem reissued_of_updated {setting : Setting} {catalog : Catalog} {a a' : Account} {id : String}
    {keys : AccountKeys} {t : Table}
    (hu : reconcileAccount setting catalog a w = .ok (.ok .update, a') w') (hid : a.id? = some id)
    (hk : accountKeys a.metadata.space a.metadata.name (some id) w.secrets = .ok keys t) :
    a'.id? = (some keys.accountId).filter (fun v => !v.isEmpty) ∧
      a'.status.signingKey = some keys.signing.publicText := by
  obtain ⟨-, hdone⟩ := (ends_reconcileAccount catalog w).returned hu
  obtain ⟨hp, happlied⟩ := hdone .update rfl
  obtain ⟨o, hreissued, rfl⟩ := happlied.updated hp.symm
  obtain ⟨id', keys', hid', hk', hsame, hsigning⟩ := hreissued.loaded
  obtain rfl : id' = id := Option.some.inj (hid'.symm.trans hid)
  rw [hk] at hk'
  simp only [EStateM.Result.ok.injEq] at hk'
  obtain ⟨rfl, -⟩ := hk'
  rw [id?_recordAccount, hsame]
  exact ⟨rfl, congrArg some hsigning⟩

/-- After any run that does not delete the account, the keys of a created account are those drawn
when it was created, and issuing it again reports the same id and the same signing key. -/
theorem keys_of_created (setting : Setting) (catalog : Catalog) {a a' : Account} {id : String}
    {w₀ w₁ w₂ : World Table (Fleet κ)} (hl : ∀ n, (setting.keySource n).length = 32)
    (hcreate : reconcileAccount setting catalog a w₀ = .ok (.ok .create, a') w₁)
    (hid : a'.id? = some id)
    (hlabel : ∀ r ∈ w₀.secrets.records, r.space = a.metadata.space →
      r.labels.get? Label.accountId ≠ some id)
    (hseed : ∀ r ∈ w₀.secrets.records, r.space = a.metadata.space → ¬ HoldsKey r id)
    (hrun : Run setting.keySource a.metadata.space id w₁ w₂)
    (hdistinct : ∀ i j, w₀.drawn ≤ i → i < j → j < w₂.drawn →
      (accountPair setting.keySource i).publicText ≠ (accountPair setting.keySource j).publicText) :
    accountKeys a.metadata.space a.metadata.name (some id) w₂.secrets =
        .ok (newKeys setting.keySource w₀.drawn) w₂.secrets ∧
      ∀ (setting' : Setting) (catalog' : Catalog) (fleet : Fleet κ) (b b' : Account)
        (w₃ : World Table (Fleet κ)), b.metadata.space = a.metadata.space →
        b.metadata.name = a.metadata.name → b.id? = some id →
        reconcileAccount setting' catalog' b { w₂ with cluster := fleet } =
          .ok (.ok .update, b') w₃ →
        b'.id? = a'.id? ∧ b'.status.signingKey = a'.status.signingKey := by
  obtain ⟨o, hissued, rfl, hsigning⟩ := issued_of_created hcreate hid
  have hsound := sound_newKeys hl w₀.drawn
  have hdrawn : w₁.drawn = w₀.drawn + 2 := hissued.drawn
  have hle := drawn_le_of_run hrun
  have hafter : ∀ m, w₀.drawn < m → m < w₂.drawn →
      (accountPair setting.keySource m).publicText ≠
        (newKeys setting.keySource w₀.drawn).accountId :=
    fun m hm hm' he => hdistinct w₀.drawn m (Nat.le_refl _) hm hm' he.symm
  have hstored := keeps_storeAccountKeys hsound (hafter (w₀.drawn + 1) (by omega) (by omega))
    hlabel hseed hissued.stored
  have hkeeps := keeps_of_run hl hrun hstored fun m hm => hafter m (by omega)
  have hload := accountKeys_of_keeps hkeeps hsound
  refine ⟨hload, fun setting' catalog' fleet b b' w₃ hspace hname hidb hupdate => ?_⟩
  have hloadb : accountKeys b.metadata.space b.metadata.name
      (some (newKeys setting.keySource w₀.drawn).accountId) w₂.secrets =
        .ok (newKeys setting.keySource w₀.drawn) w₂.secrets := by
    rw [hspace, hname]
    exact hload
  obtain ⟨hidb', hsigningb⟩ := reissued_of_updated hupdate hidb hloadb
  rw [hidb', hsigningb, hsigning, hid]
  exact ⟨(Option.filter_eq_some_iff.mpr ⟨rfl, (Option.filter_eq_some_iff.mp hid).2⟩), rfl⟩

/-! ## Creations that succeed -/

/-- With the operator's key and sound claims at hand, and the new keys stored, only publishing is
left of issuing an account. -/
theorem issueAccount_of_stored {setting : Setting} {resolver : Claims.Resolver} {a : Account}
    {w : World Table κ} {operator : Key.Pair} {claims : Claims.AccountClaims} {t : Table}
    (hoperator : operatorKey setting.operatorSpace w.secrets = .ok operator w.secrets)
    (hclaims : claimsOf resolver a (newKeys setting.keySource w.drawn) = .ok claims)
    (hstore : storeAccountKeys a.metadata.space a.metadata.name
      (newKeys setting.keySource w.drawn) w.secrets = .ok () t) :
    issueAccount setting resolver a w = (do
      signAndPublish setting operator claims
      return signedOutcome claims operator (newKeys setting.keySource w.drawn))
      { w with secrets := t, drawn := w.drawn + 2 } := by
  obtain ⟨s, c, n⟩ := w
  have hfind : World.onSecrets (operatorKey setting.operatorSpace) (⟨s, c, n⟩ : World Table κ) =
      .ok operator ⟨s, c, n⟩ := by
    rw [World.onSecrets, onPart, hoperator]
  have hkeep : within ("store keys for account " ++ a.metadata.name) (World.onSecrets
      (storeAccountKeys a.metadata.space a.metadata.name (newKeys setting.keySource n)))
      (⟨s, c, n + 2⟩ : World Table κ) = .ok () ⟨t, c, n + 2⟩ := by
    rw [within, World.onSecrets, onPart, hstore]
  have hclaims' : ofClaims (claimsOf resolver a (newKeys setting.keySource n))
      (⟨s, c, n + 2⟩ : World Table κ) = .ok claims ⟨s, c, n + 2⟩ := by
    rw [hclaims]
    rfl
  unfold issueAccount
  refine (bind_of_ok hfind).trans ?_
  refine (bind_of_ok hclaims').trans ?_
  refine (bind_of_ok hkeep).trans ?_
  rfl

/-- Issuing succeeds when the operator's key is found, the claims are sound, the new names are free
and the cluster takes the token. -/
theorem issueAccount_of_parts {setting : Setting} {resolver : Claims.Resolver} {a : Account}
    {w w' : World Table κ} {operator : Key.Pair} {claims : Claims.AccountClaims} {t : Table}
    {token : String}
    (hoperator : operatorKey setting.operatorSpace w.secrets = .ok operator w.secrets)
    (hclaims : claimsOf resolver a (newKeys setting.keySource w.drawn) = .ok claims)
    (hstore : storeAccountKeys a.metadata.space a.metadata.name
      (newKeys setting.keySource w.drawn) w.secrets = .ok () t)
    (hsign : claims.sign setting.now operator = .ok token)
    (hpublish : publish setting token { w with secrets := t, drawn := w.drawn + 2 } = .ok () w') :
    issueAccount setting resolver a w =
      .ok (signedOutcome claims operator (newKeys setting.keySource w.drawn)) w' := by
  have hsend : signAndPublish setting operator claims
      { w with secrets := t, drawn := w.drawn + 2 } = .ok () w' := by
    unfold signAndPublish
    rw [hsign]
    exact hpublish
  rw [issueAccount_of_stored hoperator hclaims hstore]
  refine (bind_of_ok hsend).trans ?_
  rfl

/-- An account that names no cluster is created on the default one. -/
theorem reconcileAccount_of_issued {setting : Setting} {catalog : Catalog} {a : Account}
    {o : AccountOutcome} {w : World Table (Fleet κ)} {w' : World Table κ} (hp : a.plan = .create)
    (hr : a.spec.cluster = none)
    (hi : issueAccount setting catalog.standing a ⟨w.secrets, w.cluster.default, w.drawn⟩ =
      .ok o w') :
    reconcileAccount setting catalog a w = .ok (.ok .create, recordAccount setting a o)
      ⟨w'.secrets, w.cluster.set w'.cluster .default, w'.drawn⟩ := by
  rw [← hp]
  refine reconcileAccount_of_recorded hr ?_ hi
  unfold applyAccount
  rw [hp]

/-- Issuing again succeeds when the operator's key and the keys of the id are found, the claims are
sound and the cluster takes the token. -/
theorem reissueAccount_of_parts {setting : Setting} {resolver : Claims.Resolver} {a : Account}
    {w w' : World Table κ} {operator : Key.Pair} {claims : Claims.AccountClaims} {token : String}
    (hoperator : operatorKey setting.operatorSpace w.secrets = .ok operator w.secrets)
    (hid : a.id? = some keys.accountId)
    (hload : accountKeys a.metadata.space a.metadata.name (some keys.accountId) w.secrets =
      .ok keys w.secrets)
    (hclaims : claimsOf resolver a keys = .ok claims)
    (hsign : claims.sign setting.now operator = .ok token)
    (hpublish : publish setting token w = .ok () w') :
    reissueAccount setting resolver a w = .ok (signedOutcome claims operator keys) w' := by
  have hfind : World.onSecrets (operatorKey setting.operatorSpace) w = .ok operator w := by
    rw [World.onSecrets, onPart, hoperator]
  have hread : World.onSecrets (accountKeys a.metadata.space a.metadata.name
      (some keys.accountId)) w = .ok keys w := by
    rw [World.onSecrets, onPart, hload]
  have hkeys : existingKeys a w = .ok keys w := by
    unfold existingKeys
    rw [hid]
    refine (bind_of_ok hread).trans ?_
    rw [if_pos rfl]
    rfl
  have hclaims' : ofClaims (claimsOf resolver a keys) w = .ok claims w := by
    rw [hclaims]
    rfl
  have hsend : signAndPublish setting operator claims w = .ok () w' := by
    unfold signAndPublish
    rw [hsign]
    exact hpublish
  unfold reissueAccount
  refine (bind_of_ok hfind).trans ?_
  refine (bind_of_ok hkeys).trans ?_
  refine (bind_of_ok hclaims').trans ?_
  exact (bind_of_ok hsend).trans rfl

/-- An account that names no cluster is issued again on the default one. -/
theorem reconcileAccount_of_reissued {setting : Setting} {catalog : Catalog} {a : Account}
    {o : AccountOutcome} {w : World Table (Fleet κ)} {w' : World Table κ} (hp : a.plan = .update)
    (hr : a.spec.cluster = none)
    (hi : reissueAccount setting catalog.standing a ⟨w.secrets, w.cluster.default, w.drawn⟩ =
      .ok o w') :
    reconcileAccount setting catalog a w = .ok (.ok .update, recordAccount setting a o)
      ⟨w'.secrets, w.cluster.set w'.cluster .default, w'.drawn⟩ := by
  rw [← hp]
  refine reconcileAccount_of_recorded hr ?_ hi
  unfold applyAccount
  rw [hp]

/-! ## A shop -/

/-- A cluster that takes every request and keeps nothing. -/
structure Agreeing where

instance : Control Agreeing where
  connect _ _ := pure ()
  disconnect c := c
  upload _ := pure ()
  delete _ := pure ()
  lookup _ := pure ""

def shopSetting : Setting where
  operatorSpace := "nauth"
  now := 0
  keySource n := List.replicate 31 0 ++ [UInt8.ofNat n]

def shopOperator : Key.Pair :=
  Key.Pair.ofSeed .operator (List.replicate 32 0)

def operatorRecord : Record where
  space := "nauth"
  name := "operator"
  labels := labels [(Label.secretRole, Role.operatorSigning.text)]
  data := keyData shopOperator

/-- A world with nothing but the operator's key. -/
def shopWorld : World Table (Fleet Agreeing) where
  secrets := { records := [operatorRecord], distinct := List.nodup_singleton _ }
  cluster := { default := {} }

def orders : Account where
  metadata := { name := "orders", space := "shop" }

/-- An account of the shop of which nothing but the name is declared. -/
def plainAccount (name : String) : Account where
  metadata := { name, space := "shop" }

/-- The operator's key is the one record of its namespace. -/
def HoldsOperator (t : Table) : Prop :=
  ∀ r, r ∈ t.records ∧ r.space = "nauth" ↔ r = operatorRecord

theorem holdsOperator_shop : HoldsOperator shopWorld.secrets := by
  intro r
  rw [show shopWorld.secrets.records = [operatorRecord] from rfl, List.mem_singleton]
  exact and_iff_left_of_imp fun he => congrArg Record.space he

theorem HoldsOperator.put (h : HoldsOperator t) {r : Record} (hr : r.space ≠ "nauth") :
    HoldsOperator (t.put r) := by
  intro r'
  rw [← h r', Table.mem_put]
  constructor
  · rintro ⟨rfl | ⟨hm, -⟩, hspace⟩
    · exact absurd hspace hr
    · exact ⟨hm, hspace⟩
  · rintro ⟨hm, hspace⟩
    refine ⟨.inr ⟨hm, fun he => hr ?_⟩, hspace⟩
    exact (congrArg Location.space he).symm.trans hspace

theorem HoldsOperator.list (h : HoldsOperator t) :
    Storage.list "nauth" (labels [(Label.secretRole, Role.operatorSigning.text)]) t =
      .ok [operatorRecord] t := by
  change Table.list _ _ t = _
  rw [Table.list_eq, Table.selected_eq_singleton fun r => ?_]
  rw [← and_assoc, h r]
  refine and_iff_left_of_imp ?_
  rintro rfl
  decide

theorem operatorKey_of_list {σ : Type} [Storage σ] {s : σ}
    (h : Storage.list "nauth" (labels [(Label.secretRole, Role.operatorSigning.text)]) s =
      .ok [operatorRecord] s) : operatorKey "nauth" s = .ok shopOperator s :=
  operatorKey_of_single h (value?_keyData shopOperator)
    (keyOfSeedFor_ofSeed .operator rfl (by decide))

theorem HoldsOperator.operatorKey (h : HoldsOperator t) :
    operatorKey "nauth" t = .ok shopOperator t :=
  operatorKey_of_list h.list

theorem operatorKey_shop :
    operatorKey "nauth" shopWorld.secrets = .ok shopOperator shopWorld.secrets :=
  holdsOperator_shop.operatorKey

theorem space_of_mem_shop {r : Record} (h : r ∈ shopWorld.secrets.records) : r.space ≠ "shop" := by
  obtain rfl := List.mem_singleton.mp h
  decide

theorem free_in_shop (name : String) (keys : AccountKeys) (role : Role) :
    shopWorld.secrets.find? (keyLocation "shop" name keys role) = none :=
  Table.find?_eq_none_iff.mpr fun _ hr he => space_of_mem_shop hr (congrArg Location.space he)

/-- A table with the two keys that an account of the shop draws. -/
def withDrawn (t : Table) (name : String) (n : Nat) : Table :=
  (t.put (keyRecord "shop" name (newKeys shopSetting.keySource n) .accountRoot)).put
    (keyRecord "shop" name (newKeys shopSetting.keySource n) .accountSigning)

theorem HoldsOperator.withDrawn (h : HoldsOperator t) (name : String) (n : Nat) :
    HoldsOperator (withDrawn t name n) :=
  (h.put (show "shop" ≠ "nauth" by decide)).put (show "shop" ≠ "nauth" by decide)

/-- An account without anything special is created in the shop where its names are free. -/
theorem created_of_free (name : String) {w : World Table (Fleet Agreeing)}
    (hoperator : HoldsOperator w.secrets)
    (hfree : ∀ role ∈ keyRoles, w.secrets.find?
      (keyLocation "shop" name (newKeys shopSetting.keySource w.drawn) role) = none) :
    ∃ o c, reconcileAccount shopSetting {} (plainAccount name) w =
        .ok (.ok .create, recordAccount shopSetting (plainAccount name) o)
          ⟨withDrawn w.secrets name w.drawn, c, w.drawn + 2⟩ ∧
      (recordAccount shopSetting (plainAccount name) o).id? =
        some (newKeys shopSetting.keySource w.drawn).accountId := by
  obtain ⟨claims, hclaims⟩ : ∃ claims, claimsOf (Catalog.standing {}) (plainAccount name)
      (newKeys shopSetting.keySource w.drawn) = .ok claims := ⟨_, rfl⟩
  obtain ⟨token, hsign⟩ : ∃ token, claims.sign 0 shopOperator = .ok token := ⟨_, rfl⟩
  have hpublish : ∀ w : World Table Agreeing, publish shopSetting token w = .ok () w := fun _ => rfl
  have hissue := issueAccount_of_parts (w := ⟨w.secrets, w.cluster.default, w.drawn⟩)
    (a := plainAccount name) hoperator.operatorKey hclaims (storeAccountKeys_of_free hfree) hsign
    (hpublish _)
  refine ⟨_, _, reconcileAccount_of_issued rfl rfl hissue, ?_⟩
  rw [id?_recordAccount]
  have hid : (signedOutcome claims shopOperator (newKeys shopSetting.keySource w.drawn)).accountId =
      (newKeys shopSetting.keySource w.drawn).accountId := subject_claimsOf hclaims
  rw [hid]
  refine Option.filter_eq_some_iff.mpr ⟨rfl, ?_⟩
  rw [AccountKeys.accountId, Key.Pair.isEmpty_publicText]
  rfl

/-- The names of an account's keys are free where only another account has drawn keys. -/
theorem find?_withDrawn {name name' : String} {keys' : AccountKeys} {role' : Role} (n : Nat)
    (hfree : t.find? (keyLocation "shop" name' keys' role') = none)
    (hne : ∀ role ∈ keyRoles, fixedName name role ≠ fixedName name' role') :
    (withDrawn t name n).find? (keyLocation "shop" name' keys' role') = none := by
  have hapart : ∀ role ∈ keyRoles, (keyRecord "shop" name (newKeys shopSetting.keySource n)
      role).location ≠ keyLocation "shop" name' keys' role' := by
    intro role hrole he
    exact hne role hrole (keyName_eq_iff_fixedName.mp (congrArg Location.name he)).1
  rw [withDrawn, Table.find?_put, if_neg (hapart _ (by decide)), Table.find?_put,
    if_neg (hapart _ (by decide))]
  exact hfree

theorem leaves_reconcile_account {setting : Setting} {catalog : Catalog} {a : Account}
    {w w' : World Table (Fleet κ)} {p : Except Error AccountAction × Account}
    (h : reconcileAccount setting catalog a w = .ok p w') :
    leaves (reconcile setting catalog (.account a) w) = w' := by
  unfold reconcile
  exact congrArg leaves (bind_of_ok h)

/-- An account that was recorded as issued is issued again. -/
theorem updated_of_recorded {name : String} {o : AccountOutcome} {w : World Table (Fleet Agreeing)}
    {keys : AccountKeys} (hoperator : HoldsOperator w.secrets)
    (hid : (recordAccount shopSetting (plainAccount name) o).id? = some keys.accountId)
    (hload : accountKeys "shop" name (some keys.accountId) w.secrets = .ok keys w.secrets) :
    ∃ b' w', reconcileAccount shopSetting {} (recordAccount shopSetting (plainAccount name) o) w =
      .ok (.ok .update, b') w' := by
  generalize ha : recordAccount shopSetting (plainAccount name) o = a at hid ⊢
  have hplan : a.plan = .update := by
    rw [Account.plan, hid, ← ha]
    rfl
  obtain ⟨claims, hclaims⟩ : ∃ claims, claimsOf (Catalog.standing {}) a keys = .ok claims := by
    rw [← ha]
    exact ⟨_, rfl⟩
  obtain ⟨token, hsign⟩ : ∃ token, claims.sign 0 shopOperator = .ok token := ⟨_, rfl⟩
  have hpublish : ∀ w : World Table Agreeing, publish shopSetting token w = .ok () w := fun _ => rfl
  have hissue := reissueAccount_of_parts (w := ⟨w.secrets, w.cluster.default, w.drawn⟩)
    hoperator.operatorKey hid (by rw [← ha]; exact hload) hclaims hsign (hpublish _)
  exact ⟨_, _, reconcileAccount_of_reissued hplan (by rw [← ha]; rfl) hissue⟩

/-- The keys that the shop has drawn first are all different. -/
theorem drawn_apart {i j : Nat} (hij : i < j) (hj : j < 4) :
    (accountPair shopSetting.keySource i).publicText ≠
      (accountPair shopSetting.keySource j).publicText := by
  have hkeys : ∀ j < 4, ∀ i < j, Key.Curve.publicKey (shopSetting.keySource i) ≠
      Key.Curve.publicKey (shopSetting.keySource j) := by
    simp only [← Key.Curve.workedPublicKey_eq]
    decide +kernel
  exact fun he => hkeys j hj i hij (Key.Pair.publicKey_eq_of_publicText he)

/-- The new account still has its keys after another one has been created beside it, and keeps its
id and its signing key when it is issued again. -/
theorem keys_of_created_orders :
    ∃ (a' p' b' : Account) (id : String) (w₁ w₂ w₃ : World Table (Fleet Agreeing)),
      reconcileAccount shopSetting {} orders shopWorld = .ok (.ok .create, a') w₁ ∧
      a'.id? = some id ∧
      reconcileAccount shopSetting {} (plainAccount "parcels") w₁ = .ok (.ok .create, p') w₂ ∧
      accountKeys "shop" "orders" (some id) w₂.secrets =
        .ok (newKeys shopSetting.keySource 0) w₂.secrets ∧
      reconcileAccount shopSetting {} a' w₂ = .ok (.ok .update, b') w₃ ∧
      b'.id? = a'.id? ∧ b'.status.signingKey = a'.status.signingKey := by
  obtain ⟨o, c, hcreate, hid⟩ := created_of_free "orders" holdsOperator_shop
    fun role _ => free_in_shop "orders" _ role
  have hfree : ∀ role ∈ keyRoles, (withDrawn shopWorld.secrets "orders" 0).find?
      (keyLocation "shop" "parcels" (newKeys shopSetting.keySource 2) role) = none := by
    intro role hrole
    refine find?_withDrawn 0 (free_in_shop "parcels" _ role) ?_
    revert role
    decide
  obtain ⟨o', c', hbeside, -⟩ := created_of_free "parcels"
    (w := ⟨withDrawn shopWorld.secrets "orders" 0, c, 2⟩) (holdsOperator_shop.withDrawn "orders" 0)
    hfree
  have hturn : Turn shopSetting.keySource "shop" (newKeys shopSetting.keySource 0).accountId
      (⟨withDrawn shopWorld.secrets "orders" 0, c, 2⟩ : World Table (Fleet Agreeing))
      (leaves (reconcile shopSetting {} (.account (plainAccount "parcels"))
        ⟨withDrawn shopWorld.secrets "orders" 0, c, 2⟩)) := by
    refine .reconciled {} c rfl ⟨fun a ha _ => ?_, fun a ha hp => ?_⟩
    · obtain rfl := Resource.account.inj ha
      exact hfree
    · obtain rfl := Resource.account.inj ha
      exact absurd hp (by decide)
  rw [leaves_reconcile_account hbeside] at hturn
  obtain ⟨hload, hsame⟩ := keys_of_created shopSetting {} (fun n => by rfl) hcreate hid
    (fun r hr hs => absurd hs (space_of_mem_shop hr))
    (fun r hr hs => absurd hs (space_of_mem_shop hr)) (.single hturn)
    fun i j _ hij hj => drawn_apart hij hj
  obtain ⟨b', w₃, hupdate⟩ := updated_of_recorded
    ((holdsOperator_shop.withDrawn "orders" 0).withDrawn "parcels" 2) hid hload
  obtain ⟨hid', hsigning⟩ := hsame shopSetting {} c'
    (recordAccount shopSetting (plainAccount "orders") o) b' w₃ rfl rfl hid hupdate
  exact ⟨_, _, b', _, _, _, w₃, hcreate, hid, hbeside, hload, hupdate, hid', hsigning⟩

end CredentialEngine.Lifecycle
