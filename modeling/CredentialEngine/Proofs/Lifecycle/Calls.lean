import CredentialEngine.Lifecycle.Estate
import CredentialEngine.Proofs.Lifecycle.World

/-!
# Calls on clusters

A cluster that notes its calls tells what was asked of it. A request is made on a fresh connection,
if there is one, and the connection is given back while anything answers. What an operation calls is
told by its requests: accounts are published, looked up or revoked, and users need no cluster.
-/
namespace CredentialEngine

open CredentialEngine.Action Cluster

namespace Cluster.Recorded

variable {κ α : Type} {P : Call → Prop} {c c' c'' : Recorded κ}

/-- Whether a connection is established. -/
def reaches [Control κ] (c : Recorded κ) (credentials : String → Except Error Key.Bundle)
    (space : String) : Bool :=
  match Control.connect credentials space c.inner with
  | .ok _ _ => true
  | .error _ _ => false

/-- Since an earlier state of the cluster only calls of a kind were made on it. -/
def Since (P : Call → Prop) (c c' : Recorded κ) : Prop :=
  ∃ made, c'.calls = c.calls ++ made ∧ ∀ call ∈ made, P call

theorem Since.refl (c : Recorded κ) : Since P c c :=
  ⟨[], (List.append_nil _).symm, nofun⟩

theorem Since.trans (h : Since P c c') (h' : Since P c' c'') : Since P c c'' := by
  obtain ⟨made, hcalls, hmade⟩ := h
  obtain ⟨made', hcalls', hmade'⟩ := h'
  refine ⟨made ++ made', by rw [hcalls', hcalls, List.append_assoc], fun call hc => ?_⟩
  exact (List.mem_append.mp hc).elim (hmade call) (hmade' call)

/-- A call is noted whatever becomes of it. -/
theorem ends_noted {call : Call} {act : Action κ α} :
    Ends (noted call act) (fun _ c' => c'.calls = c.calls ++ [call])
      (fun c' => c'.calls = c.calls ++ [call]) c :=
  ends_onPart (ends_any (fun _ _ => rfl) fun _ => rfl)

end Cluster.Recorded

/-! ## Requests -/

namespace World

variable {σ κ α : Type} [Storage σ] [Control κ] {setting : Setting} {call : Call}
  {act : Action κ α} {w w' : World σ (Recorded κ)}

/-- What a request has called: it connects, makes the call if that succeeds, and gives the
connection back unless nothing answers any more. Nothing but the cluster has changed. -/
structure Requested (setting : Setting) (call : Call) (w w' : World σ (Recorded κ)) : Prop where
  secrets : w'.secrets = w.secrets
  drawn : w'.drawn = w.drawn
  calls : ∃ closing, (closing = [] ∨ closing = [.disconnect]) ∧
    w'.cluster.calls = w.cluster.calls ++ .connect setting.operatorSpace ::
      ((if w.cluster.reaches (credentials w) setting.operatorSpace then [call] else []) ++ closing)

/-- A request is made if connecting succeeds, which it has if anything is returned. -/
theorem ends_connected_noted :
    Ends (connected setting (Recorded.noted call act))
      (fun _ w' => w.cluster.reaches (credentials w) setting.operatorSpace = true ∧
        Requested setting call w w') (Requested setting call w) w := by
  refine ends_connected_of (ends_bind ?_)
  change Ends (Recorded.noted (.connect setting.operatorSpace)
    (Control.connect (credentials w) setting.operatorSpace)) _ _ w.cluster
  unfold Ends
  rw [Recorded.noted, onPart]
  cases hc : Control.connect (credentials w) setting.operatorSpace w.cluster.inner with
  | error e i =>
    have hr : w.cluster.reaches (credentials w) setting.operatorSpace = false := by
      rw [Recorded.reaches, hc]
    refine ⟨⟨rfl, rfl, [.disconnect], .inr rfl, ?_⟩, ⟨rfl, rfl, [], .inl rfl, ?_⟩⟩
    · rw [hr]
      exact List.append_assoc _ _ _
    · rw [hr]
      rfl
  | ok _ i =>
    have hr : w.cluster.reaches (credentials w) setting.operatorSpace = true := by
      rw [Recorded.reaches, hc]
    have hopen : ∀ c' : Recorded κ, c'.calls = (w.cluster.calls ++
        [.connect setting.operatorSpace]) ++ [call] →
        Requested setting call w { w with cluster := c' } := by
      intro c' h
      refine ⟨rfl, rfl, [], .inl rfl, ?_⟩
      rw [hr, if_pos rfl, List.append_nil, h, List.append_assoc]
      rfl
    have hclosed : ∀ c' : Recorded κ, c'.calls = (w.cluster.calls ++
        [.connect setting.operatorSpace]) ++ [call] →
        Requested setting call w { w with cluster := Control.disconnect c' } := by
      intro c' h
      refine ⟨rfl, rfl, [.disconnect], .inr rfl, ?_⟩
      change c'.calls ++ [.disconnect] = _
      rw [hr, if_pos rfl, h, List.append_assoc, List.append_assoc]
      rfl
    exact Recorded.ends_noted.mono (fun _ c' h => ⟨hr, hclosed c' h⟩)
      fun c' h => ⟨hclosed c' h, hopen c' h⟩

/-- Calls that go with every request. -/
structure Routine (P : Call → Prop) : Prop where
  connect : ∀ space, P (.connect space)
  disconnect : P .disconnect

theorem Requested.since {P : Call → Prop} (h : Requested setting call w w') (hp : Routine P)
    (hcall : P call) : Recorded.Since P w.cluster w'.cluster := by
  obtain ⟨closing, hclosing, hcalls⟩ := h.calls
  refine ⟨_, hcalls, fun x hx => ?_⟩
  rcases List.mem_cons.mp hx with rfl | hx
  · exact hp.connect _
  · rcases List.mem_append.mp hx with hx | hx
    · split at hx
      · exact List.mem_singleton.mp hx ▸ hcall
      · exact absurd hx List.not_mem_nil
    · rcases hclosing with rfl | rfl
      · exact absurd hx List.not_mem_nil
      · exact List.mem_singleton.mp hx ▸ hp.disconnect

end World

/-! ## Operations -/

namespace Lifecycle

variable {σ κ α : Type} [Storage σ] [Control κ] {P : Call → Prop} {c : Recorded κ}
  {setting : Setting} {resolver : Claims.Resolver} {a : Account} {u : User}
  {w : World σ (Recorded κ)}

/-- Where an operation ends, only calls of a kind have been made since an earlier state. -/
def Calls (P : Call → Prop) (c : Recorded κ) (act : Action (World σ (Recorded κ)) α)
    (w : World σ (Recorded κ)) : Prop :=
  Ends act (fun _ w' => c.Since P w'.cluster) (fun w' => c.Since P w'.cluster) w

omit [Storage σ] [Control κ] in
/-- Work on the secrets makes no calls. -/
theorem calls_onSecrets {act : Action σ α} (hs : c.Since P w.cluster) :
    Calls P c (World.onSecrets act) w :=
  World.ends_onSecrets (ends_any (fun _ _ => hs) fun _ => hs)

theorem calls_connected (call : Call) {act : Action κ α} (hs : c.Since P w.cluster)
    (hp : World.Routine P) (hcall : P call) :
    Calls P c (World.connected setting (Recorded.noted call act)) w :=
  World.ends_connected_noted.mono (fun _ _ h => hs.trans (h.2.since hp hcall))
    fun _ h => hs.trans (h.since hp hcall)

theorem calls_signAndPublish {operator : Key.Pair} {claims : Claims.AccountClaims}
    (hs : c.Since P w.cluster) (hp : World.Routine P)
    (hupload : ∀ token, claims.sign setting.now operator = .ok token → P (.upload token)) :
    Calls P c (signAndPublish setting operator claims) w :=
  ends_bind (ends_ofClaims
    (fun token hsign => calls_connected (.upload token) hs hp (hupload token hsign)) hs)

/-- A token is signed from the claims of an account under its keys. -/
def SignedFrom (setting : Setting) (resolver : Claims.Resolver) (a : Account)
    (keys : Keyring.AccountKeys) (token : String) : Prop :=
  ∃ claims operator, claimsOf resolver a keys = .ok claims ∧
    claims.sign setting.now operator = .ok token

theorem calls_issueAccount (hs : c.Since P w.cluster) (hp : World.Routine P)
    (hupload : ∀ keys token, SignedFrom setting resolver a keys token → P (.upload token)) :
    Calls P c (issueAccount setting resolver a) w := by
  refine ends_bind ((calls_onSecrets hs).mono (fun operator w₁ h₁ => ?_) fun _ h => h)
  refine ends_bind (World.ends_drawKey (ends_bind (World.ends_drawKey ?_)))
  refine ends_bind (ends_ofClaims (fun claims hclaims => ?_) h₁)
  refine ends_bind (ends_within ((calls_onSecrets (w := { w₁ with drawn := w₁.drawn + 2 }) h₁).mono
    (fun _ w₂ h₂ => ?_) fun _ h => h))
  exact ends_bind ((calls_signAndPublish h₂ hp fun token hsign =>
    hupload _ token ⟨claims, operator, hclaims, hsign⟩).mono (fun _ _ h => ends_pure h) fun _ h => h)

/-- The keys behind what is published again are those of the account's id. -/
theorem calls_reissueAccount (hs : c.Since P w.cluster) (hp : World.Routine P)
    (hupload : ∀ keys token, a.id? = some keys.accountId →
      SignedFrom setting resolver a keys token → P (.upload token)) :
    Calls P c (reissueAccount setting resolver a) w := by
  refine ends_bind ((calls_onSecrets hs).mono (fun operator w₁ h₁ => ?_) fun _ h => h)
  refine ends_bind (ends_existingKeys_id.mono ?_ ?_)
  · rintro keys _ ⟨s, rfl, hid⟩
    refine ends_bind (ends_ofClaims (fun claims hclaims => ?_) h₁)
    exact ends_bind ((calls_signAndPublish (w := { w₁ with secrets := s }) h₁ hp fun token hsign =>
      hupload keys token hid ⟨claims, operator, hclaims, hsign⟩).mono
        (fun _ _ h => ends_pure h) fun _ h => h)
  · rintro _ ⟨s, rfl⟩
    exact h₁

theorem calls_publishedClaims {id : String} (hs : c.Since P w.cluster) (hp : World.Routine P)
    (hlookup : ∀ id, P (.lookup id)) : Calls P c (publishedClaims setting id) w := by
  refine ends_bind ((calls_connected (.lookup id) hs hp (hlookup id)).mono
    (fun token w' h => ?_) fun _ h => h)
  cases hb : (Text.trim token).isEmpty with
  | true =>
    simp only [hb, if_true]
    exact ends_pure h
  | false =>
    simp only [hb, Bool.false_eq_true, if_false]
    generalize Claims.decodeAccount (Text.trim token) = read
    exact ends_bind (ends_ofClaims (fun claims _ => ends_pure h) h)

theorem calls_observeAccount (hs : c.Since P w.cluster) (hp : World.Routine P)
    (hlookup : ∀ id, P (.lookup id)) : Calls P c (observeAccount setting a) w := by
  refine ends_bind (ends_existingKeys_id.mono ?_ ?_)
  · rintro keys _ ⟨s, rfl, -⟩
    refine ends_bind ((calls_publishedClaims (w := { w with secrets := s }) hs hp hlookup).mono
      (fun found w₂ h₂ => ?_) fun _ h => h)
    cases found with
    | none => exact ends_fail h₂
    | some claims =>
      by_cases he : claims.subject = keys.accountId
      · simp only [he, if_true]
        exact ends_pure h₂
      · simp only [he, if_false]
        exact ends_fail h₂
  · rintro _ ⟨s, rfl⟩
    exact hs

theorem calls_revokeAccount (hs : c.Since P w.cluster) (hp : World.Routine P)
    (hdelete : ∀ token, P (.delete token)) : Calls P c (revokeAccount setting a) w := by
  unfold revokeAccount
  cases a.id? with
  | none => exact ends_pure hs
  | some id =>
    refine ends_bind ((calls_onSecrets hs).mono (fun operator w₁ h₁ => ?_) fun _ h => h)
    refine ends_bind (ends_ofClaims (fun token _ => ?_) h₁)
    refine ends_bind (ends_within ((calls_connected (.delete token) h₁ hp
      (hdelete token)).mono (fun _ w₂ h₂ => ?_) fun _ h => h))
    refine ends_bind (ends_attempt ((calls_onSecrets h₂).mono (fun _ w₃ h₃ => ?_) fun w₃ h₃ => ?_))
    · exact ends_pure h₃
    · exact ⟨fun e => ends_pure h₃, h₃⟩

omit [Control κ] in
theorem calls_issueUser (hs : c.Since P w.cluster) : Calls P c (issueUser setting resolver u) w := by
  refine ends_bind (ends_within (ends_ofExcept (fun id _ => ?_) hs))
  refine ends_bind ((calls_onSecrets hs).mono (fun keys w₁ h₁ => ?_) fun _ h => h)
  refine ends_bind (World.ends_drawKey ?_)
  refine ends_bind (ends_ofClaims (fun claims _ => ?_) h₁)
  refine ends_bind (ends_ofClaims (fun token _ => ?_) h₁)
  refine ends_bind (ends_within ((calls_onSecrets (w := { w₁ with drawn := w₁.drawn + 1 }) h₁).mono
    (fun _ w₂ h₂ => ?_) fun _ h => h))
  exact ends_pure h₂

end Lifecycle

/-! ## Fleets -/

namespace Fleet

variable {σ κ α : Type} {P : Call → Prop}

/-- Since an earlier state of the fleet only calls of a kind were made on its clusters. -/
def Since (P : Call → Prop) (f f' : Fleet (Recorded κ)) : Prop :=
  ∀ r c', f'.at? r = some c' → ∃ c : Recorded κ, f.at? r = some c ∧ c.Since P c'

theorem Since.refl (f : Fleet (Recorded κ)) : Since P f f :=
  fun _ c' h => ⟨c', h, .refl c'⟩

theorem Since.trans {f f' f'' : Fleet (Recorded κ)} (h : Since P f f') (h' : Since P f' f'') :
    Since P f f'' := by
  intro r c'' hr
  obtain ⟨c', hr', hs'⟩ := h' r c'' hr
  obtain ⟨c, hr₀, hs⟩ := h r c' hr'
  exact ⟨c, hr₀, hs.trans hs'⟩

theorem Since.set {f : Fleet (Recorded κ)} {c c' : Recorded κ} {r : Route} (hc : f.at? r = some c)
    (h : c.Since P c') : Since P f (f.set c' r) := by
  intro r' c'' hr
  rw [at?_set] at hr
  split at hr
  · rename_i he
    subst he
    obtain rfl := Option.some.inj hr
    exact ⟨c, hc, h⟩
  · exact ⟨c'', hr, .refl c''⟩

/-- Between two states of a fleet a cluster was asked to delete an account. -/
def Submitted (f f' : Fleet (Recorded κ)) : Prop :=
  ∃ r c c' made token, f.at? r = some c ∧ f'.at? r = some c' ∧ c'.calls = c.calls ++ made ∧
    Call.delete token ∈ made

theorem not_submitted_of_since {f f' : Fleet (Recorded κ)}
    (h : Since (fun call => ∀ token, call ≠ .delete token) f f') : ¬ Submitted f f' := by
  rintro ⟨r, c, c', made, token, hc, hc', hcalls, hmem⟩
  obtain ⟨c₀, hc₀, made', hcalls', hmade⟩ := h r c' hc'
  obtain rfl := Option.some.inj (hc.symm.trans hc₀)
  obtain rfl := List.append_cancel_left (hcalls.symm.trans hcalls')
  exact hmade _ hmem token rfl

theorem since_of_not_submitted {f f' : Fleet (Recorded κ)} (h : Since (fun _ => True) f f')
    (hn : ¬ Submitted f f') : Since (fun call => ∀ token, call ≠ .delete token) f f' := by
  intro r c' hc'
  obtain ⟨c, hc, made, hcalls, -⟩ := h r c' hc'
  refine ⟨c, hc, made, hcalls, fun call hmem token he => ?_⟩
  exact hn ⟨r, c, c', made, token, hc, hc', hcalls, he ▸ hmem⟩

/-- Where an operation on a fleet ends, it has made only calls of a kind. -/
def Calls (P : Call → Prop) (act : Action (World σ (Fleet (Recorded κ))) α)
    (w : World σ (Fleet (Recorded κ))) : Prop :=
  Ends act (fun _ w' => Since P w.cluster w'.cluster) (fun w' => Since P w.cluster w'.cluster) w

/-- What an operation calls on its cluster is all that is called in the fleet. -/
theorem calls_on {r : Route} {act : Action (World σ (Recorded κ)) α}
    {w : World σ (Fleet (Recorded κ))}
    (h : ∀ c : Recorded κ, Lifecycle.Calls P c act ⟨w.secrets, c, w.drawn⟩) :
    Calls P (on r act) w := by
  unfold Calls Ends
  rw [on]
  cases hc : w.cluster.at? r with
  | none => exact .refl _
  | some c =>
    have hact := h c
    unfold Lifecycle.Calls Ends at hact
    simp only []
    cases hr : act ⟨w.secrets, c, w.drawn⟩ with
    | ok a w' =>
      rw [hr] at hact
      exact .set hc hact
    | error e w' =>
      rw [hr] at hact
      exact .set hc hact

end Fleet

/-! ## Reconciles -/

namespace Lifecycle

variable {σ κ : Type} [Storage σ] [Control κ] {P : Call → Prop} {setting : Setting}
  {catalog : Catalog} {w : World σ (Fleet (Recorded κ))}

omit [Storage σ] [Control κ] in
/-- What an operation calls on the cluster of an account is all that is called. -/
theorem calls_routed {α β : Type} (a : Account) {key : String}
    {act : Action (World σ (Recorded κ)) α} {k : α → β}
    (h : ∀ c : Recorded κ, Calls P c act ⟨w.secrets, c, w.drawn⟩) :
    Fleet.Calls P (do
      let o ← bounded key (Fleet.on (← route a) act)
      return k o) w :=
  ends_routed (fun _ => Fleet.calls_on h) (.refl _)

/-- Reconciling an account publishes it or looks it up, and revokes it only if that is its plan and
no user refers to it. Unless it is created, it is published with the keys of its id. -/
theorem calls_applyAccount {a : Account} (hp : World.Routine P)
    (hupload : ∀ keys token, a.plan = .create ∨ a.plan = .update ∧ a.id? = some keys.accountId →
      SignedFrom setting catalog.standing a keys token → P (.upload token))
    (hlookup : ∀ id, P (.lookup id))
    (hdelete : a.plan = .delete → guardDeletion catalog a = .ok () → ∀ token, P (.delete token)) :
    Fleet.Calls P (applyAccount setting catalog a) w := by
  unfold applyAccount
  cases hplan : a.plan with
  | release => exact ends_pure (.refl _)
  | delete =>
    refine ends_bind (ends_route (fun r => ?_) (.refl _))
    refine ends_bind (ends_ofExcept (fun _ hguard => ?_) (.refl _))
    refine ends_bind (ends_bounded ((Fleet.calls_on fun c => ?_).mono
      (fun _ _ hs => ends_pure hs) fun _ hs => hs))
    exact calls_revokeAccount (.refl c) hp (hdelete hplan hguard)
  | create =>
    exact calls_routed a fun c => calls_issueAccount (.refl c) hp fun keys token =>
      hupload keys token (.inl hplan)
  | update =>
    exact calls_routed a fun c => calls_reissueAccount (.refl c) hp fun keys token hid =>
      hupload keys token (.inr ⟨hplan, hid⟩)
  | observe => exact calls_routed a fun c => calls_observeAccount (.refl c) hp hlookup

omit [Control κ] in
/-- Reconciling a user calls nothing. -/
theorem calls_applyUser {u : User} : Fleet.Calls P (applyUser setting catalog u) w := by
  unfold applyUser
  cases u.plan with
  | delete =>
    have hafter : ∀ r, Fleet.Calls P (do
        bounded u.metadata.key (Fleet.on r (withdrawUser u))
        return u) w := by
      intro r
      refine ends_bind (ends_bounded ((Fleet.calls_on fun c => ?_).mono
        (fun _ _ hs => ends_pure hs) fun _ hs => hs))
      exact calls_onSecrets (.refl c)
    cases catalog.account? u.metadata.space u.spec.accountName with
    | none => exact ends_bind (ends_pure (hafter .default))
    | some a =>
      exact ends_bind (ends_route hafter (.refl _))
  | issue =>
    cases catalog.account? u.metadata.space u.spec.accountName with
    | none => exact ends_fail (.refl _)
    | some a => exact calls_routed a fun c => calls_issueUser (.refl c)

/-- Of the calls that delete an account a reconcile makes none, unless its resource is an account
that is to be deleted and has no users. -/
theorem calls_reconcile {x : Resource} (hp : World.Routine P) (hupload : ∀ token, P (.upload token))
    (hlookup : ∀ id, P (.lookup id))
    (hdelete : ∀ a, x = .account a → a.plan = .delete → guardDeletion catalog a = .ok () →
      ∀ token, P (.delete token)) : Fleet.Calls P (reconcile setting catalog x) w := by
  cases x with
  | account a =>
    have happly : Fleet.Calls P (reconcileAccount setting catalog a) w :=
      ends_bind (ends_attempt ((calls_applyAccount hp (fun _ token _ _ => hupload token) hlookup
        (hdelete a rfl)).mono
        (fun _ _ hs => ends_pure hs) fun _ hs => ⟨fun _ => ends_pure hs, hs⟩))
    exact ends_bind (happly.mono (fun _ _ hs => ends_pure hs) fun _ hs => hs)
  | user u =>
    have happly : Fleet.Calls P (reconcileUser setting catalog u) w :=
      ends_bind (ends_attempt (calls_applyUser.mono
        (fun _ _ hs => ends_pure hs) fun _ hs => ⟨fun _ => ends_pure hs, hs⟩))
    exact ends_bind (happly.mono (fun _ _ hs => ends_pure hs) fun _ hs => hs)

end Lifecycle

end CredentialEngine
