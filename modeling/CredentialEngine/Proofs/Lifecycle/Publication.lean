import CredentialEngine.Proofs.Claims.Account
import CredentialEngine.Proofs.Lifecycle.Issuance
import CredentialEngine.Proofs.Lifecycle.Uploads

/-!
# Published accounts

A reconcile of an account hands at most one token to one cluster. The token is signed with the one
operator key there is, names a root key as the subject and a signing key as the only one, and the
storage holds the seeds of both when the token is handed over. An account that is reconciled with
success is labelled as the token says.
-/
namespace CredentialEngine.Lifecycle

open Secret Keyring CredentialEngine.Action Cluster

/-! ## What stands behind a token -/

/-- A record of the account's namespace in the later of two tables holds a key. It is marked for the
role of the key, or was so in the earlier table. -/
def HeldFor (t t' : Table) (a : Account) (id : String) (role : Role) (pair : Key.Pair) : Prop :=
  ∃ r ∈ t'.records, r.space = a.metadata.space ∧ accountKeyOf r = .ok pair ∧
    ∃ r₀, (r₀ = r ∨ r₀ ∈ t.records ∧ r₀.location = r.location) ∧
      Lawful.IsFor a.metadata.name id role r₀

/-- What stands behind a token for an account, where the reconcile began with one table and hands
the token over with another. -/
structure Backed (setting : Setting) (a : Account) (t t' : Table) (token : String)
    (claims : Claims.AccountClaims) : Prop where
  decodes : Claims.decodeAccount token = .ok claims
  issuer : ∃ r operator, Lawful.OperatorHolds t setting.operatorSpace r operator ∧
    claims.issuer = some operator.publicText
  subject : ∃ root, HeldFor t t' a claims.subject .accountRoot root ∧
    claims.subject = root.publicText
  signingKeys : ∃ signing, HeldFor t t' a claims.subject .accountSigning signing ∧
    claims.body.signingKeys = [signing.publicText]
  standing : a.plan = .update → a.metadata.labels.get? Label.accountId = some claims.subject

variable {σ κ : Type} [Storage σ] [LawfulStorage σ] [Control κ]

/-- A cluster was handed one token, which was published last and from a world with these secrets. -/
structure Handed (setting : Setting) (a : Account) (t : Table) (s : σ) (c : Recorded κ)
    (token : String) (claims : Claims.AccountClaims) : Prop where
  uploads : c.uploads = [token]
  moment : ∃ w : World σ (Recorded κ), w.secrets = s ∧ w.cluster.uploads = [] ∧
    c = (leaves (publish setting token w)).cluster
  backed : ∃ t', Shows s t' ∧ Backed setting a t t' token claims

/-- A cluster was handed nothing, or one token that something stands behind. -/
def HandedAtMostOne (setting : Setting) (a : Account) (t : Table) (s : σ) (c : Recorded κ) : Prop :=
  c.uploads = [] ∨ ∃ token claims, Handed setting a t s c token claims

/-- An outcome tells what claims say. -/
structure Tells (o : AccountOutcome) (claims : Claims.AccountClaims) : Prop where
  accountId : o.accountId = claims.subject
  signerId : some o.signerId = claims.issuer
  signingKey : [o.signingKey] = claims.body.signingKeys
  claims : o.claims = claims.view

/-- An operation hands over at most one token. If it returns, it has handed one over, and its
outcome tells of it. -/
def Hands (setting : Setting) (a : Account) (t : Table)
    (act : Action (World σ (Recorded κ)) AccountOutcome) (w : World σ (Recorded κ)) : Prop :=
  Ends act
    (fun o w' => ∃ token claims, Handed setting a t w'.secrets w'.cluster token claims ∧
      Tells o claims)
    (fun w' => HandedAtMostOne setting a t w'.secrets w'.cluster) w

variable {setting : Setting} {resolver : Claims.Resolver} {a : Account} {t t' : Table}
  {keys : AccountKeys} {operator : Key.Pair} {claims : Claims.AccountClaims}

/-! ## Handing over -/

omit [LawfulStorage σ] in
theorem ends_publish {token : String} (w : World σ (Recorded κ)) :
    Ends (publish setting token)
      (fun _ w' => w'.secrets = w.secrets ∧ w'.cluster.uploads = w.cluster.uploads ++ [token])
      (fun w' => w'.secrets = w.secrets ∧ (w'.cluster.uploads = w.cluster.uploads ∨
        w'.cluster.uploads = w.cluster.uploads ++ [token])) w := by
  refine World.ends_connected_noted.mono (fun _ w' h => ?_) fun w' h => ?_
  · obtain ⟨hreaches, hrequested⟩ := h
    refine ⟨hrequested.secrets, hrequested.uploads_eq.trans ?_⟩
    rw [if_pos hreaches]
    rfl
  · refine ⟨h.secrets, ?_⟩
    rw [h.uploads_eq]
    split
    · exact .inr rfl
    · exact .inl (List.append_nil _)

/-- Claims as they are read from a token that the operator signed. -/
def issuedBy (claims : Claims.AccountClaims) (operator : Key.Pair) : Claims.AccountClaims :=
  { claims with issuer := some operator.publicText }

/-- Claims that were built carry the account's keys. -/
theorem claimsOf_ok (h : claimsOf resolver a keys = .ok claims) :
    claims.subject = keys.accountId ∧ claims.body.signingKeys = [keys.signing.publicText] ∧
      claims.body.kind = Claims.accountKind := by
  unfold claimsOf at h
  obtain ⟨hissues, hconflicts⟩ := Claims.clean_of_buildAccount h
  rw [Claims.buildAccount_of_clean _ _ _ _ hissues hconflicts] at h
  obtain rfl := Except.ok.inj h
  exact ⟨rfl, rfl, rfl⟩

/-- Signing the claims of an account with the operator's key and publishing the token hands over
that token, behind which the keys stand. -/
theorem hands_signed {r : Record} {w : World σ (Recorded κ)} (hs : Shows w.secrets t')
    (hw : w.cluster.uploads = [])
    (hoperator : Lawful.OperatorHolds t setting.operatorSpace r operator)
    (hclaims : claimsOf resolver a keys = .ok claims)
    (hv : Claims.Accepted setting.now operator claims.claimSet)
    (hroot : HeldFor t t' a keys.accountId .accountRoot keys.root)
    (hsigning : HeldFor t t' a keys.accountId .accountSigning keys.signing)
    (hstanding : a.plan = .update →
      a.metadata.labels.get? Label.accountId = some keys.accountId) :
    Hands setting a t (do
      signAndPublish setting operator claims
      return signedOutcome claims operator keys) w := by
  obtain ⟨hsubject, hkeys, hkind⟩ := claimsOf_ok hclaims
  obtain ⟨text, -, hseed⟩ := hoperator.holds
  obtain ⟨role, seed, rfl⟩ := Lawful.exists_ofSeed_of_keyOfSeedFor hseed
  obtain ⟨token, hsign, hdecode⟩ := Claims.decodeAccount_of_sign hkind hv
  generalize Key.Pair.ofSeed role seed = operator at hoperator hsign hdecode ⊢
  have hbacked : Backed setting a t t' token (issuedBy claims operator) := {
    decodes := hdecode
    issuer := ⟨r, operator, hoperator, rfl⟩
    subject := ⟨keys.root, hsubject ▸ hroot, hsubject⟩
    signingKeys := ⟨keys.signing, hsubject ▸ hsigning, hkeys⟩
    standing := fun hp => hsubject ▸ hstanding hp }
  have htells : Tells (signedOutcome claims operator keys) (issuedBy claims operator) :=
    ⟨rfl, rfl, hkeys.symm, rfl⟩
  have hhanded : ∀ w', w'.secrets = w.secrets → w'.cluster.uploads = w.cluster.uploads ++ [token] →
      w' = leaves (publish setting token w) →
        Handed setting a t w'.secrets w'.cluster token (issuedBy claims operator) := by
    rintro w' hsecrets huploads rfl
    rw [hw, List.nil_append] at huploads
    exact ⟨huploads, ⟨w, hsecrets.symm, hw, rfl⟩, t', hsecrets ▸ hs, hbacked⟩
  -- signing succeeds, and only the publishing is left to return or halt
  unfold signAndPublish
  rw [hsign]
  refine ends_bind ?_
  change Ends (publish setting token) _ _ w
  refine (ends_publish w).andLeaves.mono (fun _ w' h => ends_pure ?_) fun w' h => ?_
  · obtain ⟨⟨hsecrets, huploads⟩, hleaves⟩ := h
    exact ⟨token, _, hhanded w' hsecrets huploads hleaves, htells⟩
  · obtain ⟨⟨hsecrets, huploads⟩, hleaves⟩ := h
    exact huploads.imp (fun hu => hu.trans hw)
      fun hu => ⟨token, _, hhanded w' hsecrets hu hleaves⟩

/-! ## The operations on an account -/

omit [LawfulStorage σ] [Control κ] [Storage σ] in
/-- The record of a new key holds it. -/
theorem heldFor_of_keyRecord {role : Role} {r : Record} (hs : keys.Sound) (hr : role ∈ keyRoles)
    (hf : t'.find? (keyLocation a.metadata.space a.metadata.name keys role) = some r)
    (hk : IsKeyRecord keys role r) : HeldFor t t' a keys.accountId role (keys.ofRole role) := by
  obtain ⟨hm, hloc⟩ := Table.found hf
  exact ⟨r, hm, congrArg Location.space hloc, accountKeyOf_record hs hr hk, r, .inl rfl,
    .inl ⟨role?_of_label hk.hasRole, hk.hasId⟩⟩

/-- A record from which a key was loaded still holds it where the data were kept. -/
theorem heldFor_of_chosen {id : String} {role : Role} {r : Record} {pair : Key.Pair}
    (hretains : Lawful.Retains t t')
    (hc : Lawful.Chosen t a.metadata.space a.metadata.name id role r)
    (hk : accountKeyOf r = .ok pair) : HeldFor t t' a id role pair := by
  obtain ⟨r', hf, hd⟩ := hretains _ _ (Table.find?_eq_some_iff.mpr ⟨hc.mem, rfl⟩)
  obtain ⟨hm, hloc⟩ := Table.found hf
  refine ⟨r', hm, (congrArg Location.space hloc).trans hc.space_eq, ?_, r,
    .inr ⟨hc.mem, hloc.symm⟩, hc.isFor⟩
  exact (Lawful.accountKeyOf_congr hloc hd).trans hk

/-- The keys that a reconcile of an account works with: those that it draws, or those of its id. -/
inductive WorksWith (setting : Setting) (a : Account) (s : σ) (n : Nat) : AccountKeys → Prop
  | drawn (hp : a.plan = .create) : WorksWith setting a s n (newKeys setting.keySource n)
  | loaded {id : String} {keys : AccountKeys} {s' : σ} (hp : a.plan = .update)
    (hid : a.id? = some id)
    (hk : accountKeys a.metadata.space a.metadata.name (some id) s = .ok keys s') :
    WorksWith setting a s n keys

/-- The operator's key accepts its signature of the claims that a reconcile of an account makes. -/
def OperatorAccepts (setting : Setting) (resolver : Claims.Resolver) (a : Account) (s : σ)
    (n : Nat) : Prop :=
  ∀ operator s' keys claims, operatorKey setting.operatorSpace s = .ok operator s' →
    WorksWith setting a s' n keys → claimsOf resolver a keys = .ok claims →
    Claims.Accepted setting.now operator claims.claimSet

theorem hands_issueAccount (hp : a.plan = .create) (hl : ∀ n, (setting.keySource n).length = 32)
    {w : World σ (Recorded κ)} (ht : Shows w.secrets t) (hw : w.cluster.uploads = [])
    (hv : OperatorAccepts setting resolver a w.secrets w.drawn) :
    Hands setting a t (issueAccount setting resolver a) w := by
  have hsound := sound_newKeys hl w.drawn
  refine ends_bind (World.ends_onSecrets ?_)
  cases hop : operatorKey setting.operatorSpace w.secrets with
  | error e s => exact ends_error hop (.inl hw)
  | ok operator s =>
    obtain ⟨hs, r, hoperator⟩ := (Lawful.ends_operatorKey ht setting.operatorSpace).returned hop
    refine ends_ok hop (ends_bind (World.ends_drawKey (ends_bind (World.ends_drawKey ?_))))
    change Ends (ofClaims (claimsOf resolver a (newKeys setting.keySource w.drawn)) >>= _) _ _ _
    refine ends_bind (ends_ofClaims (fun claims hclaims => ?_) (.inl hw))
    refine ends_bind (ends_within (World.ends_onSecrets
      ((Lawful.ends_storeAccountKeys hs).mono (fun _ s' hstored => ?_) fun _ _ => .inl hw)))
    obtain ⟨t', hs', hstored⟩ := hstored
    have hheld : ∀ role ∈ keyRoles, HeldFor t t' a (newKeys setting.keySource w.drawn).accountId
        role ((newKeys setting.keySource w.drawn).ofRole role) := by
      intro role hr
      obtain ⟨record, hf, hk⟩ := hstored role hr
      exact heldFor_of_keyRecord hsound hr hf hk
    exact hands_signed hs' hw hoperator hclaims (hv operator s _ claims hop (.drawn hp) hclaims)
      (hheld .accountRoot (by decide)) (hheld .accountSigning (by decide))
      fun h => absurd (hp.symm.trans h) (by decide)

omit [Control κ] in
/-- The keys of an account that has an id are loaded, and are the ones of the id. Records at most
are taken on for them. -/
theorem ends_existingKeys_loaded {w : World σ κ} (ht : Shows w.secrets t) :
    Ends (existingKeys a)
      (fun keys w' => ∃ s, w' = { w with secrets := s } ∧
        Lawful.Adopting a.metadata.space a.metadata.name t s ∧
        Lawful.Loaded t a.metadata.space a.metadata.name keys.accountId keys ∧
        a.id? = some keys.accountId ∧
        accountKeys a.metadata.space a.metadata.name (some keys.accountId) w.secrets = .ok keys s)
      (fun w' => ∃ s, w' = { w with secrets := s } ∧
        Lawful.Adopting a.metadata.space a.metadata.name t s) w := by
  unfold existingKeys
  cases hid : a.id? with
  | none => exact ends_fail ⟨w.secrets, rfl, Lawful.adopting_of_shows ht⟩
  | some id =>
    have hload := Lawful.ends_accountKeys_sourced ht a.metadata.space a.metadata.name id
    refine ends_bind (World.ends_onSecrets (hload.andReturned.mono (fun keys s h => ?_)
      fun s h => ⟨s, rfl, h⟩))
    obtain ⟨⟨hadopting, hsourced⟩, hr⟩ := h
    by_cases he : keys.accountId = id
    · subst he
      simp only [if_true]
      exact ends_pure ⟨s, rfl, hadopting, hsourced.loaded, rfl, hr⟩
    · simp only [he, if_false]
      exact ends_fail ⟨s, rfl, hadopting⟩

theorem hands_reissueAccount (hp : a.plan = .update) {w : World σ (Recorded κ)}
    (ht : Shows w.secrets t) (hw : w.cluster.uploads = [])
    (hv : OperatorAccepts setting resolver a w.secrets w.drawn) :
    Hands setting a t (reissueAccount setting resolver a) w := by
  refine ends_bind (World.ends_onSecrets ?_)
  cases hop : operatorKey setting.operatorSpace w.secrets with
  | error e s => exact ends_error hop (.inl hw)
  | ok operator s =>
    obtain ⟨hs, r, hoperator⟩ := (Lawful.ends_operatorKey ht setting.operatorSpace).returned hop
    refine ends_ok hop (ends_bind ((ends_existingKeys_loaded hs).mono (fun keys w' h => ?_)
      fun w' h => ?_))
    · obtain ⟨s', rfl, hadopting, hloaded, hid, hload⟩ := h
      obtain ⟨t', hs', hretains⟩ := hadopting.keeping
      refine ends_bind (ends_ofClaims (fun claims hclaims => ?_) (.inl hw))
      obtain ⟨root, hroot, hrootKey⟩ := hloaded.root
      obtain ⟨signing, hsigning, hsigningKey⟩ := hloaded.signing
      exact hands_signed hs' hw hoperator hclaims
        (hv operator s keys claims hop (.loaded hp hid hload) hclaims)
        (heldFor_of_chosen hretains hroot hrootKey)
        (heldFor_of_chosen hretains hsigning hsigningKey)
        fun _ => (Account.id?_eq_some.mp hid).1
    · obtain ⟨s', rfl, -⟩ := h
      exact .inl hw

/-! ## Reconciles -/

/-- One token was handed to one cluster of a fleet. -/
structure Published (setting : Setting) (a : Account) (t : Table)
    (w : World σ (Fleet (Recorded κ))) (token : String) (claims : Claims.AccountClaims) : Prop where
  uploads : w.cluster.uploads = [token]
  handed : ∃ r c, w.cluster.at? r = some c ∧ Handed setting a t w.secrets c token claims

/-- The clusters of a fleet were handed nothing, or one token to one of them. -/
def PublishedAtMostOne (setting : Setting) (a : Account) (t : Table)
    (w : World σ (Fleet (Recorded κ))) : Prop :=
  w.cluster.uploads = [] ∨ ∃ token claims, Published setting a t w token claims

/-- The labels and the status of an account say what claims say. -/
structure Labelled (a : Account) (claims : Claims.AccountClaims) : Prop where
  accountId : a.metadata.labels.get? Label.accountId = some claims.subject
  signedBy : a.metadata.labels.get? Label.accountSignedBy = claims.issuer
  signingKey : a.status.signingKey.toList = claims.body.signingKeys
  claims : a.status.claims = some claims.view

/-- One token was handed out, and an account is labelled as it says. -/
def PublishedAs (setting : Setting) (a : Account) (t : Table) (a' : Account)
    (w : World σ (Fleet (Recorded κ))) : Prop :=
  ∃ token claims, Published setting a t w token claims ∧ Labelled a' claims

theorem PublishedAs.atMostOne {a' : Account} {w : World σ (Fleet (Recorded κ))}
    (h : PublishedAs setting a t a' w) : PublishedAtMostOne setting a t w := by
  obtain ⟨token, claims, hpublished, -⟩ := h
  exact .inr ⟨token, claims, hpublished⟩

theorem labelled_recordAccount {o : AccountOutcome} (h : Tells o claims) :
    Labelled (recordAccount setting a o) claims where
  accountId := by
    change ((a.metadata.labels.insert Label.accountId o.accountId).insert Label.accountSignedBy
      o.signerId).get? Label.accountId = _
    rw [Dict.get?_insert_of_ne _ _ (by decide), Dict.get?_insert_self, h.accountId]
  signedBy := by
    change ((a.metadata.labels.insert Label.accountId o.accountId).insert Label.accountSignedBy
      o.signerId).get? Label.accountSignedBy = _
    rw [Dict.get?_insert_self, h.signerId]
  signingKey := h.signingKey
  claims := congrArg some h.claims

/-- Runs an operation on the cluster of an account and records its outcome. -/
def issuedOn {κ : Type} (setting : Setting) (a : Account)
    (act : Action (World σ κ) AccountOutcome) : Action (World σ (Fleet κ)) Account := do
  let o ← bounded a.metadata.key (Fleet.on (← route a) act)
  return recordAccount setting a o

omit [Storage σ] [LawfulStorage σ] [Control κ] in
/-- What an operation hands to one cluster it hands to the fleet. -/
theorem ends_issuedOn {act : Action (World σ (Recorded κ)) AccountOutcome}
    {w : World σ (Fleet (Recorded κ))} (hw : w.cluster.uploads = [])
    {Q : AccountOutcome → σ → Recorded κ → Prop} {E : σ → Recorded κ → Prop}
    (h : ∀ c : Recorded κ, c.uploads = [] → Ends act (fun o w' => Q o w'.secrets w'.cluster)
      (fun w' => E w'.secrets w'.cluster) ⟨w.secrets, c, w.drawn⟩) :
    Ends (issuedOn setting a act)
      (fun a' w' => ∃ o r c, a' = recordAccount setting a o ∧ w'.cluster.at? r = some c ∧
        w'.cluster.uploads = c.uploads ∧ Q o w'.secrets c)
      (fun w' => w'.cluster.uploads = [] ∨ ∃ r c, w'.cluster.at? r = some c ∧
        w'.cluster.uploads = c.uploads ∧ E w'.secrets c) w := by
  refine ends_routed (fun r => (Fleet.ends_on_uploads hw h).mono (fun o w' h => ?_)
    fun w' h => ?_) (.inl hw)
  · obtain ⟨c, hat, huploads, hq⟩ := h
    exact ⟨o, r, c, rfl, hat, huploads, hq⟩
  · rcases h with rfl | ⟨c, hat, huploads, he⟩
    · exact .inl hw
    · exact .inr ⟨r, c, hat, huploads, he⟩

/-- An operation that hands at most one token to its cluster publishes at most one, and when it
returns the account is recorded with what the token says. -/
theorem ends_issuedOn_of_hands {act : Action (World σ (Recorded κ)) AccountOutcome}
    {w : World σ (Fleet (Recorded κ))} (hw : w.cluster.uploads = [])
    (h : ∀ c : Recorded κ, c.uploads = [] → Hands setting a t act ⟨w.secrets, c, w.drawn⟩) :
    Ends (issuedOn setting a act) (PublishedAs setting a t) (PublishedAtMostOne setting a t) w := by
  refine (ends_issuedOn hw (Q := fun o s c => ∃ token claims,
    Handed setting a t s c token claims ∧ Tells o claims) (E := HandedAtMostOne setting a t) h).mono
      (fun a' w' h => ?_) fun w' h => ?_
  · obtain ⟨o, r, c, rfl, hat, huploads, token, claims, hhanded, htells⟩ := h
    exact ⟨token, claims, ⟨huploads.trans hhanded.uploads, r, c, hat, hhanded⟩,
      labelled_recordAccount htells⟩
  · rcases h with h | ⟨r, c, hat, huploads, h | ⟨token, claims, hhanded⟩⟩
    · exact .inl h
    · exact .inl (huploads.trans h)
    · exact .inr ⟨token, claims, huploads.trans hhanded.uploads, r, c, hat, hhanded⟩

theorem ends_applyAccount_published (catalog : Catalog) {w : World σ (Fleet (Recorded κ))}
    (ht : Shows w.secrets t) (hw : w.cluster.uploads = [])
    (hl : ∀ n, (setting.keySource n).length = 32)
    (hv : OperatorAccepts setting catalog.standing a w.secrets w.drawn) :
    Ends (applyAccount setting catalog a)
      (fun a' w' => PublishedAtMostOne setting a t w' ∧
        (a.plan = .create ∨ a.plan = .update → PublishedAs setting a t a' w'))
      (PublishedAtMostOne setting a t) w := by
  unfold applyAccount
  cases hp : a.plan with
  | release => exact ends_pure ⟨.inl hw, by simp⟩
  | delete =>
    refine ends_bind (ends_route (fun r => ?_) (.inl hw))
    refine ends_bind (ends_ofExcept (fun _ _ => ?_) (.inl hw))
    refine ends_bind (ends_bounded ((Fleet.ends_on_uploads hw (Q := fun _ _ c => c.uploads = [])
      (E := fun _ c => c.uploads = []) fun c hc => revokeAccount_handsNothing hc).mono
        (fun _ w' h => ?_) fun w' h => ?_))
    · obtain ⟨c, -, huploads, h⟩ := h
      exact ends_pure ⟨.inl (huploads.trans h), by simp⟩
    · rcases h with rfl | ⟨c, -, huploads, h⟩
      · exact .inl hw
      · exact .inl (huploads.trans h)
  | create =>
    exact (ends_issuedOn_of_hands hw fun c hc => hands_issueAccount hp hl ht hc hv).mono
      (fun a' w' h => ⟨h.atMostOne, fun _ => h⟩) fun _ h => h
  | update =>
    exact (ends_issuedOn_of_hands hw fun c hc => hands_reissueAccount hp ht hc hv).mono
      (fun a' w' h => ⟨h.atMostOne, fun _ => h⟩) fun _ h => h
  | observe =>
    refine (ends_issuedOn hw (Q := fun _ _ c => c.uploads = []) (E := fun _ c => c.uploads = [])
      fun c hc => observeAccount_handsNothing hc).mono (fun a' w' h => ?_) fun w' h => ?_
    · obtain ⟨o, r, c, -, -, huploads, h⟩ := h
      exact ⟨.inl (huploads.trans h), by simp⟩
    · rcases h with h | ⟨r, c, -, huploads, h⟩
      · exact .inl h
      · exact .inl (huploads.trans h)

/-- Whatever the storage, the directory and the clusters, a reconcile of an account hands out at
most one token, and behind one that it hands out stand the operator's key as it was when the
reconcile began and the keys that the storage holds when the token is handed over. If it creates or
updates the account with success, it has handed one out, and the account is labelled as the token
says. Seeds have 32 bytes, and the curve is assumed to accept the operator's signature. -/
theorem published_of_reconcileAccount (setting : Setting) (catalog : Catalog) (a : Account)
    {w : World σ (Fleet (Recorded κ))} {t : Table} (ht : Shows w.secrets t)
    (hw : w.cluster.uploads = []) (hl : ∀ n, (setting.keySource n).length = 32)
    (hv : OperatorAccepts setting catalog.standing a w.secrets w.drawn) :
    Ends (reconcileAccount setting catalog a)
      (fun p w' => PublishedAtMostOne setting a t w' ∧
        ∀ act, p.1 = .ok act → act = .create ∨ act = .update → PublishedAs setting a t p.2 w')
      (PublishedAtMostOne setting a t) w := by
  refine ends_bind (ends_attempt ((ends_applyAccount_published catalog ht hw hl hv).mono
    (fun a' w' h => ends_pure ⟨h.1, ?_⟩) fun w' h => ⟨fun e => ends_pure ⟨h, nofun⟩, h⟩))
  intro act hact hp
  obtain rfl := Except.ok.inj hact
  exact h.2 hp

/-! ## An account of the shop -/

/-- The shop with a cluster that notes its calls. -/
def notedShop : World Table (Fleet (Recorded Agreeing)) where
  secrets := shopWorld.secrets
  cluster := { default := { inner := {} } }

def ordersClaims : Claims.AccountClaims where
  name := "orders"
  subject := "AA5WUJ54Z23KILLCUOUNAKTPBVZWKMQVO4O6EQ5GHLAERIMLLHNCS47C"
  issuer := none
  body := {
    limits := {}
    exports := []
    imports := []
    signingKeys := ["ABGLLK7WVV47X5NLXTFPZQTJ3BONEZI62S4ILNMGT4SBV3PQUW5CTSFF"]
    kind := "account"
    version := 2 }

theorem claimsOf_orders : claimsOf (Catalog.standing {}) orders ordersKeys = .ok ordersClaims := by
  rw [claimsOf, accountId_orders, publicText_ordersSigning]
  decide +kernel

theorem accepted_orders : Claims.Accepted 0 shopOperator ordersClaims.claimSet :=
  Claims.accepted_of_worked (by decide +kernel)

theorem operatorAccepts_orders :
    OperatorAccepts shopSetting (Catalog.standing {}) orders notedShop.secrets 0 := by
  intro operator s keys claims hoperator hkeys hclaims
  have hread : operatorKey "nauth" shopWorld.secrets = .ok operator s := hoperator
  rw [operatorKey_shop] at hread
  obtain ⟨rfl, -⟩ := EStateM.Result.ok.inj hread
  cases hkeys with
  | drawn =>
    have hsame : Except.ok ordersClaims = Except.ok claims := claimsOf_orders.symm.trans hclaims
    obtain rfl := Except.ok.inj hsame
    exact accepted_orders
  | loaded hp => exact absurd hp (by decide)

theorem orders_published : ∃ a' w', reconcileAccount shopSetting {} orders notedShop =
    .ok (.ok .create, a') w' := by
  obtain ⟨token, hsign⟩ : ∃ token, ordersClaims.sign 0 shopOperator = .ok token := ⟨_, rfl⟩
  obtain ⟨t, hstore⟩ : ∃ t,
      storeAccountKeys "shop" "orders" ordersKeys shopWorld.secrets = .ok () t :=
    ⟨_, storeAccountKeys_of_free fun role _ => free_in_shop "orders" ordersKeys role⟩
  obtain ⟨w₁, hpublish⟩ : ∃ w₁, publish shopSetting token
      (⟨t, notedShop.cluster.default, 2⟩ : World Table (Recorded Agreeing)) = .ok () w₁ := ⟨_, rfl⟩
  have hissue := issueAccount_of_parts (w := ⟨shopWorld.secrets, notedShop.cluster.default, 0⟩)
    (a := orders) operatorKey_shop claimsOf_orders hstore hsign hpublish
  exact ⟨_, _, reconcileAccount_of_issued (w := notedShop) (by decide) rfl hissue⟩

theorem published_of_reconcileAccount_orders :
    ∃ a' w', reconcileAccount shopSetting {} orders notedShop = .ok (.ok .create, a') w' ∧
      PublishedAs shopSetting orders shopWorld.secrets a' w' := by
  obtain ⟨a', w', h⟩ := orders_published
  have hends := published_of_reconcileAccount shopSetting {} orders (w := notedShop) rfl rfl
    (fun _ => rfl) operatorAccepts_orders
  exact ⟨a', w', h, (hends.returned h).2 .create rfl (.inl rfl)⟩

end CredentialEngine.Lifecycle
