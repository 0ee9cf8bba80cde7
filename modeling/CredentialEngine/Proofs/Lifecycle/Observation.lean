import CredentialEngine.Cluster.Scripted
import CredentialEngine.Proofs.Lifecycle.Identity

/-!
# Accounts that are only looked at

An account that is managed elsewhere is never acted upon. Its reconcile asks the cluster for the
published claims at most, takes records on at most, and draws no key; what it reports is what the
cluster published under the id of the keys at hand. Marked for deletion, it is let go at once.
-/
namespace CredentialEngine.Lifecycle

open Secret Keyring CredentialEngine.Action Cluster

theorem plan_of_observeOnly {a : Account} (h : a.isObserveOnly = true) :
    a.plan = if a.metadata.isDeleting then .release else .observe := by
  simp only [Account.plan, h, if_true]

variable {σ κ : Type} [Storage σ] [LawfulStorage σ] [Control κ] {setting : Setting}
  {catalog : Catalog} {a a' : Account} {t : Table}

/-! ## What is left alone -/

/-- No key was drawn, and the storage shows the records that it showed, with their data. -/
def Untouched (t : Table) (n : Nat) (s : σ) (n' : Nat) : Prop :=
  n' = n ∧ ∃ t', Shows s t' ∧ Lawful.SameData t t'

theorem untouched_of_adopting {space account : String} {s : σ} {n : Nat}
    (h : Lawful.Adopting space account t s) : Untouched t n s n := by
  obtain ⟨t', hs, hadopted⟩ := h
  exact ⟨rfl, t', hs, hadopted.sameData⟩

theorem ends_observeAccount_untouched {w : World σ κ} (ht : Shows w.secrets t) :
    Ends (observeAccount setting a) (fun _ w' => Untouched t w.drawn w'.secrets w'.drawn)
      (fun w' => Untouched t w.drawn w'.secrets w'.drawn) w := by
  refine ends_bind ((ends_existingKeys_loaded ht).mono ?_ ?_)
  · rintro keys _ ⟨s, rfl, hadopting, -⟩
    have huntouched : Untouched t w.drawn s w.drawn := untouched_of_adopting hadopting
    refine ends_bind (ends_publishedClaims (fun found c => ?_) fun _ => huntouched)
    cases found with
    | none => exact ends_fail huntouched
    | some claims =>
      by_cases he : claims.subject = keys.accountId
      · simp only [he, if_true]
        exact ends_pure huntouched
      · simp only [he, if_false]
        exact ends_fail huntouched
  · rintro _ ⟨s, rfl, hadopting⟩
    exact untouched_of_adopting hadopting

theorem ends_reconcileAccount_untouched (setting : Setting) (catalog : Catalog)
    (hobserve : a.isObserveOnly = true) {w : World σ (Fleet κ)} (ht : Shows w.secrets t) :
    Ends (reconcileAccount setting catalog a)
      (fun _ w' => Untouched t w.drawn w'.secrets w'.drawn)
      (fun w' => Untouched t w.drawn w'.secrets w'.drawn) w := by
  have hstay : Untouched t w.drawn w.secrets w.drawn := ⟨rfl, t, ht, fun _ => rfl⟩
  have happly : Ends (applyAccount setting catalog a)
      (fun _ w' => Untouched t w.drawn w'.secrets w'.drawn)
      (fun w' => Untouched t w.drawn w'.secrets w'.drawn) w := by
    unfold applyAccount
    rw [plan_of_observeOnly hobserve]
    cases a.metadata.isDeleting with
    | true => exact ends_pure hstay
    | false =>
      exact ends_routed (fun r => Fleet.ends_on (Q := fun _ => Untouched t w.drawn)
        (E := Untouched t w.drawn) (fun c => ends_observeAccount_untouched ht) hstay) hstay
  exact ends_bind (ends_attempt (happly.mono (fun _ _ h => ends_pure h)
    fun _ h => ⟨fun _ => ends_pure h, h⟩))

/-- A call that neither publishes nor revokes. -/
def Harmless (call : Call) : Prop :=
  ∀ token, call ≠ .upload token ∧ call ≠ .delete token

omit [LawfulStorage σ] in
theorem calls_reconcileAccount_harmless (hobserve : a.isObserveOnly = true)
    (w : World σ (Fleet (Recorded κ))) :
    Fleet.Calls Harmless (reconcileAccount setting catalog a) w := by
  have hplan : a.plan = .release ∨ a.plan = .observe := by
    rw [plan_of_observeOnly hobserve]
    cases a.metadata.isDeleting with
    | true => exact .inl rfl
    | false => exact .inr rfl
  have hroutine : World.Routine Harmless := ⟨fun _ _ => ⟨nofun, nofun⟩, fun _ => ⟨nofun, nofun⟩⟩
  have happly : Fleet.Calls Harmless (applyAccount setting catalog a) w := by
    refine calls_applyAccount hroutine (fun keys token hkeys _ => ?_)
      (fun _ _ => ⟨nofun, nofun⟩) fun hdelete _ token => ?_
    · rcases hplan with hp | hp <;> simp [hp] at hkeys
    · rcases hplan with hp | hp <;> simp [hp] at hdelete
  exact ends_bind (ends_attempt (happly.mono (fun _ _ h => ends_pure h)
    fun _ h => ⟨fun _ => ends_pure h, h⟩))

/-- What a reconcile leaves of a world in which the storage showed a table: all of it but the labels
of records, with no harm done on any cluster. -/
structure LookedAt (t : Table) (w w' : World σ (Fleet (Recorded κ))) : Prop where
  calls : w.cluster.Since Harmless w'.cluster
  drawn : w'.drawn = w.drawn
  records : ∃ t', Shows w'.secrets t' ∧ Lawful.SameData t t'

theorem lookedAt_of_reconcileAccount (setting : Setting) (catalog : Catalog)
    (hobserve : a.isObserveOnly = true) {w : World σ (Fleet (Recorded κ))}
    (ht : Shows w.secrets t) : LookedAt t w (leaves (reconcileAccount setting catalog a w)) := by
  obtain ⟨hdrawn, hrecords⟩ := (ends_reconcileAccount_untouched setting catalog hobserve ht).leaves
  exact ⟨(calls_reconcileAccount_harmless hobserve w).leaves, hdrawn, hrecords⟩

/-! ## What is reported -/

omit [LawfulStorage σ] in
/-- Claims that are found are those of the token that the cluster returned. -/
theorem ends_publishedClaims_read {id : String} {w : World σ κ} :
    Ends (publishedClaims setting id)
      (fun found? _ => ∀ claims, found? = some claims → ∃ opened token found,
        Control.connect (World.credentials w) setting.operatorSpace w.cluster = .ok () opened ∧
          Control.lookup id opened = .ok token found ∧
          Claims.decodeAccount (Text.trim token) = .ok claims) (fun _ => True) w := by
  refine ends_bind ((World.ends_connected (Q := fun _ _ => True) (E := fun _ => True)
    (fun _ _ => trivial) fun _ => trivial).andReturned.mono (fun token w₁ hr => ?_) fun _ _ => trivial)
  obtain ⟨opened, found, hconnect, hlookup, -⟩ := World.of_connected_ok hr.2
  cases hb : (Text.trim token).isEmpty with
  | true =>
    simp only [hb, if_true]
    exact ends_pure nofun
  | false =>
    simp only [hb, Bool.false_eq_true, if_false]
    generalize hread : Claims.decodeAccount (Text.trim token) = read
    refine ends_bind (ends_ofClaims (fun claims hdecode => ?_) trivial)
    refine ends_pure fun claims' hsome => ?_
    obtain rfl := Option.some.inj hsome
    exact ⟨opened, token, found, hconnect, hlookup, hread.trans hdecode⟩

/-- What an account reports of the claims in a token: their id is the one that the account is
labelled with, before and after, the public key of the root key in the storage, and the one that the
account's cluster was asked for when it returned the token. -/
structure Reports (setting : Setting) (a a' : Account) (t : Table)
    (w : World σ (Fleet (Recorded κ))) (id token : String) (claims : Claims.AccountClaims) :
    Prop where
  standing : idLabel a = some id
  reported : idLabel a' = some id
  root : ∃ r root, Lawful.Chosen t a.metadata.space a.metadata.name id .accountRoot r ∧
    accountKeyOf r = .ok root ∧ root.publicText = id
  returned : ∃ route c credentials opened found, w.cluster.routeOf a = .ok route ∧
    w.cluster.at? route = some c ∧
    Control.connect credentials setting.operatorSpace c = .ok () opened ∧
    Control.lookup id opened = .ok token found
  verified : Claims.decodeAccount (Text.trim token) = .ok claims
  subject : claims.subject = id
  claims : a'.status.claims = some claims.view

/-- What an observation returns is found in a token that was asked for under the id of the account's
keys. -/
theorem ends_observeAccount_read {w : World σ κ} (ht : Shows w.secrets t) :
    Ends (observeAccount setting a)
      (fun o _ => ∃ keys opened token found claims credentials, a.id? = some keys.accountId ∧
        Lawful.Loaded t a.metadata.space a.metadata.name keys.accountId keys ∧
        Control.connect credentials setting.operatorSpace w.cluster = .ok () opened ∧
        Control.lookup keys.accountId opened = .ok token found ∧
        Claims.decodeAccount (Text.trim token) = .ok claims ∧
        claims.subject = keys.accountId ∧
        o.accountId = keys.accountId ∧ o.claims = claims.view) (fun _ => True) w := by
  refine ends_bind ((ends_existingKeys_loaded ht).mono ?_ fun _ _ => trivial)
  rintro keys _ ⟨s, rfl, -, hloaded, hid, -⟩
  refine ends_bind (ends_publishedClaims_read.mono (fun found? w₁ hfound => ?_) fun _ _ => trivial)
  cases found? with
  | none => exact ends_fail trivial
  | some claims =>
    obtain ⟨opened, token, found, hconnect, hlookup, hdecode⟩ := hfound claims rfl
    by_cases he : claims.subject = keys.accountId
    · simp only [he, if_true]
      exact ends_pure ⟨keys, opened, token, found, claims, _, hid, hloaded, hconnect, hlookup,
        hdecode, he, rfl, rfl⟩
    · simp only [he, if_false]
      exact ends_fail trivial

theorem reports_of_reconcileAccount {act : AccountAction} {w w' : World σ (Fleet (Recorded κ))}
    (hobserve : a.isObserveOnly = true) (hkept : a.metadata.isDeleting = false)
    (ht : Shows w.secrets t)
    (h : reconcileAccount setting catalog a w = .ok (.ok act, a') w') :
    act = .observe ∧ ∃ id token claims, Reports setting a a' t w id token claims := by
  have hplan : a.plan = .observe := by
    rw [plan_of_observeOnly hobserve, hkept]
    rfl
  obtain ⟨rfl, happly⟩ := of_reconcileAccount_ok h
  refine ⟨hplan, ?_⟩
  unfold applyAccount at happly
  rw [hplan] at happly
  obtain ⟨route, w₁, hroute, hobserved⟩ := of_bind_ok happly
  obtain ⟨rfl, hroute⟩ := of_route_ok hroute
  obtain ⟨o, w₂, hbounded, hrecorded⟩ := of_bind_ok hobserved
  obtain ⟨rfl, -⟩ := EStateM.Result.ok.inj hrecorded
  obtain ⟨c, w₃, hat, hon⟩ := Fleet.of_on_ok (of_bounded_ok hbounded)
  obtain ⟨keys, opened, token, found, claims, credentials, hid, hloaded, hconnect, hlookup,
    hdecode, hsubject, haccount, hclaims⟩ :=
      (ends_observeAccount_read (w := ⟨w₁.secrets, c, w₁.drawn⟩) ht).returned hon
  obtain ⟨r, hchosen, hroot⟩ := hloaded.root
  exact ⟨keys.accountId, token, claims, {
    standing := (Account.id?_eq_some.mp hid).1
    reported := (idLabel_recordAccount o).trans (congrArg some haccount)
    root := ⟨r, keys.root, hchosen, hroot, rfl⟩
    returned := ⟨route, c, credentials, opened, found, hroute, hat, hconnect, hlookup⟩
    verified := hdecode
    subject := hsubject
    claims := congrArg some hclaims }⟩

/-- **An account that is only looked at is never acted upon**, whether it has an id or not and
whatever the storage, the directory and the clusters do. Its reconcile reports on it or, if it is
marked for deletion, lets go of it without touching anything. -/
theorem observed_of_reconcileAccount (setting : Setting) (catalog : Catalog) (a : Account)
    (hobserve : a.isObserveOnly = true) {w : World σ (Fleet (Recorded κ))} {t : Table}
    (ht : Shows w.secrets t) :
    LookedAt t w (leaves (reconcileAccount setting catalog a w)) ∧
      (a.metadata.isDeleting = false → ∀ act a' w',
        reconcileAccount setting catalog a w = .ok (.ok act, a') w' →
          act = .observe ∧ ∃ id token claims, Reports setting a a' t w id token claims) ∧
      (a.metadata.isDeleting = true →
        reconcileAccount setting catalog a w = .ok (.ok .release, a) w) := by
  refine ⟨lookedAt_of_reconcileAccount setting catalog hobserve ht, fun hkept act a' w' h =>
    reports_of_reconcileAccount hobserve hkept ht h, fun hdeleting => ?_⟩
  refine reconcileAccount_of_release setting catalog ?_ w
  rw [plan_of_observeOnly hobserve, hdeleting]
  rfl

/-! ## An account of the shop that is managed elsewhere -/

omit [LawfulStorage σ] in
/-- Observing succeeds where the keys are at hand and the cluster returns a token for them. -/
theorem observeAccount_of_parts {w w₁ : World σ κ} {keys : AccountKeys} {opened found : κ}
    {token : String} {claims : Claims.AccountClaims}
    (hkeys : existingKeys a w = .ok keys w₁)
    (hconnect : Control.connect (World.credentials w₁) setting.operatorSpace w₁.cluster =
      .ok () opened)
    (hlookup : Control.lookup keys.accountId opened = .ok token found)
    (hdecode : Claims.decodeAccount (Text.trim token) = .ok claims)
    (hfull : (Text.trim token).isEmpty = false) (hsubject : claims.subject = keys.accountId) :
    observeAccount setting a w = .ok ⟨keys.accountId, claims.issuer.getD "",
      keys.signing.publicText, claims.view⟩ { w₁ with cluster := Control.disconnect found } := by
  have hconnected := World.connected_of_ok hconnect hlookup
  have hpublished : publishedClaims setting keys.accountId w₁ =
      .ok (some claims) { w₁ with cluster := Control.disconnect found } := by
    refine (bind_of_ok hconnected).trans ?_
    simp only [hfull, hdecode]
    rfl
  refine (bind_of_ok hkeys).trans ?_
  refine (bind_of_ok hpublished).trans ?_
  simp only [hsubject, if_true]
  rfl

def watchedOrders : Account where
  metadata := {
    name := "orders"
    space := "shop"
    labels := labels [(Label.accountId,
        "AA5WUJ54Z23KILLCUOUNAKTPBVZWKMQVO4O6EQ5GHLAERIMLLHNCS47C"),
      (Label.policy, Label.observePolicy)] }

/-- The shop with its account's keys, and a cluster that has published a token for them. -/
def watchedShop (token : String) : World Table (Fleet (Recorded Scripted)) where
  secrets := labelledShop
  cluster := { default := { inner := ({} : Scripted).publish ordersKeys.accountId token } }
  drawn := 2

theorem existingKeys_watchedOrders {κ : Type} (c : κ) :
    existingKeys watchedOrders (⟨labelledShop, c, 2⟩ : World Table κ) =
      .ok ordersKeys ⟨labelledShop, c, 2⟩ := by
  have hid : watchedOrders.id? = some ordersKeys.accountId := by
    rw [accountId_orders]
    decide
  have hload : accountKeys "shop" "orders" (some ordersKeys.accountId) labelledShop =
      .ok ordersKeys labelledShop := by
    have hstored : storeAccountKeys "shop" "orders" ordersKeys shopWorld.secrets =
        .ok () labelledShop :=
      storeAccountKeys_of_free fun role _ => free_in_shop "orders" ordersKeys role
    exact accountKeys_of_stored (sound_newKeys (fun _ => rfl) 0) publicText_signing_ne_orders
      (fun r hr => space_of_mem_shop hr) hstored
  have hread : World.onSecrets (accountKeys watchedOrders.metadata.space watchedOrders.metadata.name
      (some ordersKeys.accountId)) (⟨labelledShop, c, 2⟩ : World Table κ) =
        .ok ordersKeys ⟨labelledShop, c, 2⟩ := by
    change onPart _ _ (accountKeys "shop" "orders" (some ordersKeys.accountId)) _ = _
    rw [onPart, hload]
  unfold existingKeys
  rw [hid]
  refine (bind_of_ok hread).trans ?_
  simp only [if_true]
  rfl

/-- A cluster with one token returns it. -/
theorem lookup_published (id token : String) (calls : List Call) :
    Control.lookup id (⟨calls, ({} : Scripted).publish id token⟩ : Recorded Scripted) =
      .ok token ⟨calls ++ [.lookup id], ({} : Scripted).publish id token⟩ := by
  have hget : (({} : Scripted).publish id token).published.get? id = some token :=
    Dict.get?_insert_self ..
  change EStateM.Result.ok (((({} : Scripted).publish id token).published.get? id).getD "") _ = _
  rw [hget]
  rfl

theorem watchedOrders_observed : ∃ token a' w',
    reconcileAccount shopSetting {} watchedOrders (watchedShop token) = .ok (.ok .observe, a') w' := by
  have hkind : ordersClaims.body.kind = Claims.accountKind := rfl
  obtain ⟨token, hsign, hdecode⟩ := Claims.decodeAccount_of_sign hkind accepted_orders
  obtain ⟨htrim, hfull⟩ := Claims.trim_of_sign hsign
  have hobserved : observeAccount shopSetting watchedOrders
      ⟨labelledShop, (watchedShop token).cluster.default, 2⟩ = _ :=
    observeAccount_of_parts (existingKeys_watchedOrders (watchedShop token).cluster.default) rfl
      (lookup_published ordersKeys.accountId token _) (htrim.symm ▸ hdecode) (htrim.symm ▸ hfull)
      accountId_orders.symm
  have hplan : watchedOrders.plan = .observe := by decide
  have happly : applyAccount shopSetting {} watchedOrders = (do
      let o ← bounded watchedOrders.metadata.key (Fleet.on (← route watchedOrders)
        (observeAccount shopSetting watchedOrders))
      return recordAccount shopSetting watchedOrders o :
        Action (World Table (Fleet (Recorded Scripted))) Account) := by
    unfold applyAccount
    rw [hplan]
  exact ⟨token, _, _, hplan ▸ reconcileAccount_of_recorded rfl happly hobserved⟩

theorem observed_of_reconcileAccount_orders : ∃ token a' w',
    reconcileAccount shopSetting {} watchedOrders (watchedShop token) = .ok (.ok .observe, a') w' ∧
      LookedAt labelledShop (watchedShop token) w' ∧
      ∃ id returned claims, Reports shopSetting watchedOrders a' labelledShop (watchedShop token) id
        returned claims := by
  obtain ⟨token, a', w', h⟩ := watchedOrders_observed
  obtain ⟨hleft, hreports, -⟩ := observed_of_reconcileAccount shopSetting {} watchedOrders (by decide)
    (w := watchedShop token) (t := labelledShop) rfl
  obtain ⟨-, id, token', claims, hreport⟩ := hreports rfl .observe a' w' h
  rw [h] at hleft
  exact ⟨token, a', w', h, hleft, id, token', claims, hreport⟩

end CredentialEngine.Lifecycle
