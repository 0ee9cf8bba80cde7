import CredentialEngine.Lifecycle.Estate
import CredentialEngine.Proofs.Keyring.Steps
import CredentialEngine.Proofs.Lifecycle.World

/-!
# What a reconcile does to a table

A reconcile takes only the steps that its resource and plan allow: an account that is created writes
the records of its two new keys, an issued user writes its bundle, keys that are loaded may be
labelled, and a deletion removes what belongs to the resource.
-/
namespace CredentialEngine.Lifecycle

open Secret Keyring CredentialEngine.Action

/-- The key pair of an account that is drawn at a number. -/
def accountPair (source : Nat → List UInt8) (n : Nat) : Key.Pair :=
  Key.Pair.ofSeed .account (source n)

/-- The two keys of an account that are drawn from a number on. -/
def newKeys (source : Nat → List UInt8) (n : Nat) : AccountKeys :=
  ⟨accountPair source n, accountPair source (n + 1)⟩

/-- What reconciling a resource may do to a table, when it starts with the number `n` of drawn keys
and ends with `n'`. -/
def scopeOf (source : Nat → List UInt8) (t : Table) (n n' : Nat) : Resource → Scope
  | .account a => {
      writes loc l d := a.plan = .create ∧ n + 2 ≤ n' ∧ ∃ role ∈ keyRoles,
        loc = keyLocation a.metadata.space a.metadata.name (newKeys source n) role ∧
        l = keyLabels role (newKeys source n).accountId ∧
        d = keyData ((newKeys source n).ofRole role)
      relabels loc l := (a.plan = .update ∨ a.plan = .observe) ∧
        ∃ id, a.id? = some id ∧ Adopts t a.metadata.space a.metadata.name id loc l
      removes r := a.plan = .delete ∧ r.space = a.metadata.space ∧
        ∃ id, a.id? = some id ∧ r.labels.get? Label.accountId = some id }
  | .user u => {
      writes loc l d := u.plan = .issue ∧ loc = bundleLocation u ∧
        ∃ userId accountId signerId text, l = bundleLabels userId accountId signerId ∧
          d = Dict.ofList [(bundleKey, text)]
      relabels loc l := u.plan = .issue ∧
        ∃ id, Adopts t u.metadata.space u.spec.accountName id loc l
      removes r := u.plan = .delete ∧ r.location = bundleLocation u }

/-- A reconcile of a resource may lead from a table and a number of drawn keys to others. -/
structure Moves (source : Nat → List UInt8) (x : Resource) (t : Table) (n : Nat) (t' : Table)
    (n' : Nat) : Prop where
  drawn_le : n ≤ n'
  steps : Steps (scopeOf source t n n' x) t t'

theorem Moves.refl {source : Nat → List UInt8} {x : Resource} (t : Table) {n n' : Nat}
    (h : n ≤ n') : Moves source x t n t n' := ⟨h, .refl⟩

/-- A reconcile of a resource may lead from one world to another. -/
abbrev Leads {κ : Type} (setting : Setting) (x : Resource) (w w' : World Table κ) : Prop :=
  Moves setting.keySource x w.secrets w.drawn w'.secrets w'.drawn

variable {κ : Type} [Control κ] {setting : Setting} {a : Account} {u : User}

/-! ## Accounts -/

/-- What has happened when an account has been issued with new keys. -/
structure Issued (setting : Setting) (a : Account) (o : AccountOutcome) (t : Table) (n : Nat)
    (t' : Table) (n' : Nat) : Prop where
  stored : storeAccountKeys a.metadata.space a.metadata.name (newKeys setting.keySource n) t =
    .ok () t'
  accountId : o.accountId = (newKeys setting.keySource n).accountId
  signingKey : o.signingKey = (newKeys setting.keySource n).signing.publicText
  drawn : n' = n + 2

theorem moves_storeAccountKeys (setting : Setting) (hp : a.plan = .create) (t : Table) (n : Nat) :
    Moves setting.keySource (.account a) t n (leaves (storeAccountKeys a.metadata.space
      a.metadata.name (newKeys setting.keySource n) t)) (n + 2) := by
  refine ⟨by omega, (ends_storeAccountKeys fun role hr => ?_).leaves⟩
  exact ⟨hp, Nat.le_refl _, role, hr, rfl, rfl, rfl⟩

/-- The subject of claims that were built is the id of the keys. -/
theorem subject_claimsOf {resolver : Claims.Resolver} {keys : AccountKeys}
    {claims : Claims.AccountClaims} (h : claimsOf resolver a keys = .ok claims) :
    claims.subject = keys.accountId := by
  simp only [claimsOf, Claims.buildAccount] at h
  split at h
  · rw [← Except.ok.inj h]
  · contradiction

/-- Issuing a new account stores its keys or nothing, whatever else fails. -/
theorem ends_issueAccount {resolver : Claims.Resolver} (hp : a.plan = .create)
    (w : World Table κ) :
    Ends (issueAccount setting resolver a)
      (fun o w' => Leads setting (.account a) w w' ∧
        Issued setting a o w.secrets w.drawn w'.secrets w'.drawn)
      (Leads setting (.account a) w) w := by
  obtain ⟨t, c, n⟩ := w
  unfold issueAccount
  refine ends_bind (World.ends_onSecrets (ends_operatorKey.mono (fun operator t' ht => ?_)
    fun t' ht => ?_))
  · subst t'
    refine ends_bind (World.ends_drawKey (ends_bind (World.ends_drawKey ?_)))
    have hkeys : (⟨Key.Pair.ofSeed .account (setting.keySource n),
        Key.Pair.ofSeed .account (setting.keySource (n + 1))⟩ : AccountKeys) =
          newKeys setting.keySource n := rfl
    simp only [hkeys]
    have hdrawn : Moves setting.keySource (.account a) t n t (n + 2) := .refl t (by omega)
    refine ends_bind (ends_ofClaims (fun claims hc => ?_) hdrawn)
    have hmoves := moves_storeAccountKeys setting hp t n
    refine ends_bind (ends_within (World.ends_onSecrets ?_))
    cases hr : storeAccountKeys a.metadata.space a.metadata.name
      (newKeys setting.keySource n) t with
    | error e t' =>
      rw [hr] at hmoves
      exact ends_error hr hmoves
    | ok _ t' =>
      rw [hr] at hmoves
      refine ends_ok hr (ends_bind (ends_signAndPublish (fun c => ?_) fun c => hmoves))
      exact ends_pure ⟨hmoves, hr, subject_claimsOf hc, rfl, rfl⟩
  · subst t'
    exact .refl t (Nat.le_refl n)

omit [Control κ] in
/-- Loading the keys of an account that is issued again or observed may label its records. -/
theorem ends_existingKeys (hp : a.plan = .update ∨ a.plan = .observe) (w : World Table κ) :
    Ends (existingKeys a)
      (fun keys w' => Leads setting (.account a) w w' ∧
        ∃ id, a.id? = some id ∧ keys.accountId = id ∧
          accountKeys a.metadata.space a.metadata.name (some id) w.secrets = .ok keys w'.secrets)
      (Leads setting (.account a) w) w := by
  obtain ⟨t, c, n⟩ := w
  unfold existingKeys
  cases hid : a.id? with
  | none => exact .refl t (Nat.le_refl n)
  | some id =>
    have hsteps := ends_accountKeys (s := scopeOf setting.keySource t n n (.account a)) (t := t)
      fun loc l hl => ⟨hp, id, hid, hl⟩
    refine ends_bind (World.ends_onSecrets ?_)
    cases hr : accountKeys a.metadata.space a.metadata.name (some id) t with
    | error e t' =>
      have hleft := hsteps.leaves
      rw [hr] at hleft
      exact ends_error hr ⟨Nat.le_refl n, hleft⟩
    | ok keys t' =>
      have hmoves : Moves setting.keySource (.account a) t n t' n :=
        ⟨Nat.le_refl n, hsteps.returned hr⟩
      refine ends_ok hr ?_
      by_cases he : keys.accountId = id
      · simp only [he, if_true]
        exact ends_pure ⟨hmoves, id, rfl, he, hr⟩
      · simp only [he, if_false]
        exact ends_fail hmoves

/-- What has happened when an account has been issued again. -/
structure Reissued (a : Account) (o : AccountOutcome) (t t' : Table) : Prop where
  loaded : ∃ id keys, a.id? = some id ∧
    accountKeys a.metadata.space a.metadata.name (some id) t = .ok keys t' ∧
    o.accountId = keys.accountId ∧ o.signingKey = keys.signing.publicText

theorem ends_reissueAccount {resolver : Claims.Resolver} (hp : a.plan = .update)
    (w : World Table κ) :
    Ends (reissueAccount setting resolver a)
      (fun o w' => Leads setting (.account a) w w' ∧
        Reissued a o w.secrets w'.secrets) (Leads setting (.account a) w) w := by
  unfold reissueAccount
  refine ends_bind (World.ends_onSecrets (ends_operatorKey.mono (fun operator t' ht => ?_)
    fun t' ht => ?_))
  · subst ht
    refine ends_bind ((ends_existingKeys (.inl hp) w).mono (fun keys w' hk => ?_) fun _ h => h)
    obtain ⟨hmoves, id, hid, -, hkeys⟩ := hk
    refine ends_bind (ends_ofClaims (fun claims hc => ?_) hmoves)
    refine ends_bind (ends_signAndPublish (fun c => ?_) fun c => hmoves)
    exact ends_pure ⟨hmoves, ⟨id, keys, hid, hkeys, subject_claimsOf hc, rfl⟩⟩
  · subst ht
    exact .refl _ (Nat.le_refl _)

theorem ends_observeAccount (hp : a.plan = .observe) (w : World Table κ) :
    Ends (observeAccount setting a)
      (fun _ w' => Leads setting (.account a) w w') (Leads setting (.account a) w) w := by
  unfold observeAccount
  refine ends_bind ((ends_existingKeys (.inr hp) w).mono (fun keys w' hk => ?_) fun _ h => h)
  obtain ⟨hmoves, -⟩ := hk
  refine ends_bind (ends_publishedClaims (fun o c => ?_) fun c => hmoves)
  cases o with
  | none => exact ends_fail hmoves
  | some claims =>
    by_cases he : claims.subject = keys.accountId
    · simp only [he, if_true]
      exact ends_pure hmoves
    · simp only [he, if_false]
      exact ends_fail hmoves

/-- Revoking an account removes at most the records of its id. -/
theorem ends_revokeAccount (hp : a.plan = .delete) (w : World Table κ) :
    Ends (revokeAccount setting a)
      (fun _ w' => Leads setting (.account a) w w') (Leads setting (.account a) w) w := by
  obtain ⟨t, c, n⟩ := w
  have hstay : Moves setting.keySource (.account a) t n t n := .refl t (Nat.le_refl n)
  unfold revokeAccount
  cases hid : a.id? with
  | none => exact hstay
  | some id =>
    refine ends_bind (World.ends_onSecrets (ends_operatorKey.mono (fun operator t' ht => ?_)
      fun t' ht => ?_))
    · subst t'
      refine ends_bind (ends_ofClaims (fun token _ => ?_) hstay)
      refine ends_bind (ends_within (World.ends_connected (fun _ c => ?_) fun c => hstay))
      refine ends_bind (ends_attempt (World.ends_onSecrets ?_))
      have hsteps := ends_deleteSelected (s := scopeOf setting.keySource t n n (.account a))
        (t := t) a.metadata.space (labels [(Label.accountId, id)])
        fun r hs hl => ⟨hp, hs, id, hid, selectedBy_label.mp hl⟩
      refine hsteps.mono (fun _ t' ht => ends_pure ⟨Nat.le_refl n, ht⟩) fun t' ht => ?_
      exact ⟨fun e => ends_pure ⟨Nat.le_refl n, ht⟩, ⟨Nat.le_refl n, ht⟩⟩
    · subst t'
      exact hstay

/-! ## Users -/

omit [Control κ] in
/-- Issuing a user may label records of its account and writes the user's bundle. -/
theorem ends_issueUser {resolver : Claims.Resolver} (hp : u.plan = .issue) (w : World Table κ) :
    Ends (issueUser setting resolver u)
      (fun _ w' => Leads setting (.user u) w w') (Leads setting (.user u) w) w := by
  obtain ⟨t, c, n⟩ := w
  unfold issueUser
  refine ends_bind (ends_within (ends_ofExcept (fun id _ => ?_) (.refl t (Nat.le_refl n))))
  have hsteps : ∀ n', Ends (accountKeys u.metadata.space u.spec.accountName (some id))
      (fun _ t' => Steps (scopeOf setting.keySource t n n' (.user u)) t t')
      (fun t' => Steps (scopeOf setting.keySource t n n' (.user u)) t t') t :=
    fun n' => ends_accountKeys fun loc l hl => ⟨hp, id, hl⟩
  refine ends_bind (World.ends_onSecrets ?_)
  cases hr : accountKeys u.metadata.space u.spec.accountName (some id) t with
  | error e t' =>
    have hleft := (hsteps n).leaves
    rw [hr] at hleft
    exact ends_error hr ⟨Nat.le_refl n, hleft⟩
  | ok keys t' =>
    have hmoves : Moves setting.keySource (.user u) t n t' (n + 1) :=
      ⟨by omega, (hsteps (n + 1)).returned hr⟩
    refine ends_ok hr (ends_bind (World.ends_drawKey ?_))
    refine ends_bind (ends_ofClaims (fun claims _ => ?_) hmoves)
    refine ends_bind (ends_ofClaims (fun token _ => ?_) hmoves)
    refine ends_bind (ends_within (World.ends_onSecrets ?_))
    refine Ends.mono (ends_put (s := scopeOf setting.keySource t n (n + 1) (.user u)) _
      ⟨hp, rfl, _, _, _, _, rfl, rfl⟩) (fun _ t'' ht => ?_) fun t'' ht => ?_
    · exact ends_pure ⟨hmoves.drawn_le, hmoves.steps.trans ht⟩
    · exact ⟨hmoves.drawn_le, hmoves.steps.trans ht⟩

omit [Control κ] in
theorem ends_withdrawUser (hp : u.plan = .delete) (w : World Table κ) :
    Ends (withdrawUser u)
      (fun _ w' => Leads setting (.user u) w w') (Leads setting (.user u) w) w := by
  obtain ⟨t, c, n⟩ := w
  have hsteps := ends_remove (s := scopeOf setting.keySource t n n (.user u)) (t := t)
    (bundleLocation u) fun r hr => ⟨hp, hr⟩
  exact World.ends_onSecrets (hsteps.mono (fun _ t' ht => ⟨Nat.le_refl n, ht⟩)
    fun t' ht => ⟨Nat.le_refl n, ht⟩)

/-! ## Reconciles -/

/-- What is known of an account after its plan was carried out. -/
structure Applied (setting : Setting) (a a' : Account) (t : Table) (n : Nat) (t' : Table)
    (n' : Nat) : Prop where
  created : a.plan = .create →
    ∃ o, Issued setting a o t n t' n' ∧ a' = recordAccount setting a o
  updated : a.plan = .update → ∃ o, Reissued a o t t' ∧ a' = recordAccount setting a o

omit [Control κ] in
/-- What holds after an operation on one cluster holds when the account is recorded. -/
theorem ends_issued {act : Action (World Table κ) AccountOutcome} {key : String}
    {w : World Table (Fleet κ)} {Q : Account → Table → Nat → Prop} {E : Table → Nat → Prop}
    (h : ∀ c, Ends act (fun o w' => Q (recordAccount setting a o) w'.secrets w'.drawn)
      (fun w' => E w'.secrets w'.drawn) { secrets := w.secrets, cluster := c, drawn := w.drawn })
    (he : E w.secrets w.drawn) :
    Ends (do
      let o ← bounded key (Fleet.on (← route a) act)
      return recordAccount setting a o)
      (fun a' w' => Q a' w'.secrets w'.drawn) (fun w' => E w'.secrets w'.drawn) w :=
  ends_routed (fun _ => Fleet.ends_on h he) he

theorem ends_applyAccount (catalog : Catalog) (w : World Table (Fleet κ)) :
    Ends (applyAccount setting catalog a)
      (fun a' w' => Leads setting (.account a) w w' ∧
        Applied setting a a' w.secrets w.drawn w'.secrets w'.drawn)
      (Leads setting (.account a) w) w := by
  have hstay : Leads setting (.account a) w w := .refl _ (Nat.le_refl _)
  have hneither : ∀ {a' t' n'}, a.plan ≠ .create → a.plan ≠ .update →
      Applied setting a a' w.secrets w.drawn t' n' :=
    fun hc hu => ⟨fun h => absurd h hc, fun h => absurd h hu⟩
  unfold applyAccount
  cases hp : a.plan with
  | release => exact ends_pure ⟨hstay, hneither (by simp [hp]) (by simp [hp])⟩
  | delete =>
    refine ends_bind (ends_route (fun r => ?_) hstay)
    refine ends_bind (ends_ofExcept (fun _ _ => ?_) hstay)
    refine ends_bind (ends_bounded ?_)
    have hrevoke := Fleet.ends_on (r := r) (w := w)
      (Q := fun _ t' n' => Moves setting.keySource (.account a) w.secrets w.drawn t' n')
      (fun c => ends_revokeAccount hp { secrets := w.secrets, cluster := c, drawn := w.drawn })
      hstay
    exact hrevoke.mono
      (fun _ w' hm => ends_pure ⟨hm, hneither (by simp [hp]) (by simp [hp])⟩) fun w' hm => hm
  | create =>
    refine ends_issued (Q := fun a' t' n' =>
      Moves setting.keySource (.account a) w.secrets w.drawn t' n' ∧
        Applied setting a a' w.secrets w.drawn t' n') (fun c => ?_) hstay
    refine (ends_issueAccount hp _).mono (fun o w' ⟨hm, hi⟩ => ⟨hm, fun _ => ⟨o, hi, rfl⟩, ?_⟩)
      fun w' hm => hm
    exact fun h => absurd (hp.symm.trans h) (by decide)
  | update =>
    refine ends_issued (Q := fun a' t' n' =>
      Moves setting.keySource (.account a) w.secrets w.drawn t' n' ∧
        Applied setting a a' w.secrets w.drawn t' n') (fun c => ?_) hstay
    refine (ends_reissueAccount hp _).mono (fun o w' ⟨hm, hi⟩ => ⟨hm, ?_, fun _ => ⟨o, hi, rfl⟩⟩)
      fun w' hm => hm
    exact fun h => absurd (hp.symm.trans h) (by decide)
  | observe =>
    refine ends_issued (Q := fun a' t' n' =>
      Moves setting.keySource (.account a) w.secrets w.drawn t' n' ∧
        Applied setting a a' w.secrets w.drawn t' n') (fun c => ?_) hstay
    exact (ends_observeAccount hp _).mono
      (fun o w' hm => ⟨hm, hneither (by simp [hp]) (by simp [hp])⟩) fun w' hm => hm

/-- An account that was reconciled with success was brought to the state that its plan names. -/
theorem ends_reconcileAccount (catalog : Catalog) (w : World Table (Fleet κ)) :
    Ends (reconcileAccount setting catalog a)
      (fun p w' => Leads setting (.account a) w w' ∧
        ∀ act, p.1 = .ok act → act = a.plan ∧
          Applied setting a p.2 w.secrets w.drawn w'.secrets w'.drawn)
      (Leads setting (.account a) w) w := by
  refine ends_bind (ends_attempt ((ends_applyAccount catalog w).mono
    (fun a' w' ⟨hm, hd⟩ => ?_) fun w' hm => ⟨fun e => ?_, hm⟩))
  · exact ends_pure ⟨hm, fun act h => ⟨(Except.ok.inj h).symm, hd⟩⟩
  · exact ends_pure ⟨hm, fun act h => by contradiction⟩

omit [Control κ] in
theorem ends_applyUser (catalog : Catalog) (w : World Table (Fleet κ)) :
    Ends (applyUser setting catalog u)
      (fun _ w' => Leads setting (.user u) w w') (Leads setting (.user u) w) w := by
  have hstay : Leads setting (.user u) w w := .refl _ (Nat.le_refl _)
  unfold applyUser
  cases hp : u.plan with
  | delete =>
    have hwithdraw (r : Route) := Fleet.ends_on (r := r) (w := w)
      (Q := fun _ t' n' => Moves setting.keySource (.user u) w.secrets w.drawn t' n')
      (fun c => ends_withdrawUser hp { secrets := w.secrets, cluster := c, drawn := w.drawn })
      hstay
    have hafter (r : Route) : Ends (do
        bounded u.metadata.key (Fleet.on r (withdrawUser u))
        return u) (fun _ w' => Leads setting (.user u) w w') (Leads setting (.user u) w) w :=
      ends_bind (ends_bounded ((hwithdraw r).mono (fun _ _ hm => ends_pure hm) fun _ hm => hm))
    cases catalog.account? u.metadata.space u.spec.accountName with
    | none => exact ends_bind (ends_pure (hafter .default))
    | some a => exact ends_bind (ends_route hafter hstay)
  | issue =>
    cases catalog.account? u.metadata.space u.spec.accountName with
    | none => exact ends_fail hstay
    | some a =>
      have hissue (r : Route) : Ends (Fleet.on r (issueUser setting catalog.standing u))
          (fun _ w' => Leads setting (.user u) w w') (Leads setting (.user u) w) w :=
        Fleet.ends_on (Q := fun _ t' n' =>
          Moves setting.keySource (.user u) w.secrets w.drawn t' n') (fun c => ends_issueUser hp
            { secrets := w.secrets, cluster := c, drawn := w.drawn }) hstay
      exact ends_bind (ends_route (fun r => ends_bind (ends_bounded (hissue r))) hstay)

omit [Control κ] in
theorem ends_reconcileUser (catalog : Catalog) (w : World Table (Fleet κ)) :
    Ends (reconcileUser setting catalog u)
      (fun _ w' => Leads setting (.user u) w w') (Leads setting (.user u) w) w :=
  ends_bind (ends_attempt ((ends_applyUser catalog w).mono (fun _ _ hm => ends_pure hm)
    fun _ hm => ⟨fun _ => ends_pure hm, hm⟩))

/-- Whatever becomes of a reconcile, it takes only steps that its resource allows. -/
theorem leads_reconcile (setting : Setting) (catalog : Catalog) (x : Resource)
    (w : World Table (Fleet κ)) :
    Leads setting x w (leaves (reconcile setting catalog x w)) := by
  refine Ends.leaves (P := Leads setting x w) ?_
  cases x with
  | account a =>
    exact ends_bind ((ends_reconcileAccount catalog w).mono (fun p w' h => ends_pure h.1)
      fun w' hm => hm)
  | user u =>
    exact ends_bind ((ends_reconcileUser catalog w).mono (fun p w' hm => ends_pure hm)
      fun w' hm => hm)

end CredentialEngine.Lifecycle
