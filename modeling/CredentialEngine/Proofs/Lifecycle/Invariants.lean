import CredentialEngine.Cluster.Link
import CredentialEngine.Lifecycle.Estate
import CredentialEngine.Proofs.Lifecycle.World

/-!
# Invariants of reconciles

What every operation of a storage keeps true of the secrets, and every operation of a cluster of the
cluster, a reconcile keeps true of both. An operation on them may fail, stall or die; a reconcile
reports the first two, so it halts only where one of them dies.
-/
namespace CredentialEngine

open CredentialEngine.Action

/-- The operations of a cluster keep `P` true of it and halt only as `H` allows. -/
structure Control.Maintain (κ : Type) [Control κ] (H : Halt → Prop) (P : κ → Prop) : Prop where
  connect : ∀ credentials space, Maintains H P (Control.connect credentials space)
  disconnect : ∀ c, P c → P (Control.disconnect c)
  upload : ∀ token, Maintains H P (Control.upload token)
  delete : ∀ token, Maintains H P (Control.delete token)
  lookup : ∀ id, Maintains H P (Control.lookup id)

theorem Control.Maintain.trivial {κ : Type} [Control κ] :
    Control.Maintain κ (fun _ => True) fun _ => True :=
  ⟨fun _ _ => maintains_any _, fun _ _ => True.intro, fun _ => maintains_any _,
    fun _ => maintains_any _, fun _ => maintains_any _⟩

/-! ## Clusters that live -/

namespace Cluster

theorem Recorded.maintain {κ : Type} [Control κ] {H : Halt → Prop}
    (h : Control.Maintain κ H fun _ => True) : Control.Maintain (Recorded κ) H fun _ => True := by
  have hnoted : ∀ {α : Type} (call : Call) {act : Action κ α}, Maintains H (fun _ => True) act →
      Maintains H (fun _ => True) (noted call act) :=
    fun call _ h s _ => maintains_onPart h (fun _ _ => trivial) (fun _ _ _ _ => trivial)
      { s with calls := s.calls ++ [call] } trivial
  exact ⟨fun c space => hnoted _ (h.connect c space), fun _ _ => trivial,
    fun token => hnoted _ (h.upload token), fun token => hnoted _ (h.delete token),
    fun id => hnoted _ (h.lookup id)⟩

namespace Link

variable {τ : Type} [Transport τ]

theorem maintains_request (subject : String) (payload : List UInt8) :
    Maintains (· ≠ .crashed) (fun _ : Link τ => True) (request subject payload) := by
  refine maintains_true fun l e l' h => ?_
  simp only [request] at h
  split at h
  · split at h
    · contradiction
    · exact (EStateM.Result.error.inj h).1 ▸ nofun
    · exact (EStateM.Result.error.inj h).1 ▸ nofun
  · exact (EStateM.Result.error.inj h).1 ▸ nofun

/-- Nothing that is asked of a link dies. -/
theorem maintain : Control.Maintain (Link τ) (· ≠ .crashed) fun _ => True := by
  have hsubmit : ∀ subject token : String,
      Maintains (· ≠ .crashed) (fun _ : Link τ => True) (submit subject token) :=
    fun subject token => maintains_bind (maintains_request _ _) fun reply =>
      maintains_bind (maintains_ofExcept (fun _ => nofun) _) fun _ => maintains_pure _
  refine ⟨fun credentials space => ?_, fun _ _ => trivial, fun token => hsubmit _ token,
    fun token => hsubmit _ token, fun id => ?_⟩
  · refine maintains_true fun l e l' h => ?_
    change connect credentials space l = _ at h
    rw [connect] at h
    split at h
    · contradiction
    · simp only [] at h
      split at h
      · contradiction
      · exact (EStateM.Result.error.inj h).1 ▸ nofun
  · refine maintains_bind (maintains_request _ _) fun reply => ?_
    split
    · exact maintains_pure _
    · exact maintains_fail nofun

end Link

end Cluster

variable {σ κ : Type} {H : Halt → Prop} {P : σ → Prop} {Q : κ → Prop}

/-! ## The keyring -/

namespace Keyring

open Secret

variable [Storage σ]

theorem maintains_put (hs : Storage.Maintain σ H P) (hf : ∀ e, H (.failed e)) (owner : Option Owner)
    (loc : Location) (l : Labels) (d : Dict String) : Maintains H P (put owner loc l d : Action σ _) := by
  refine maintains_bind (maintains_attempt (hs.get loc) fun _ he _ => he) fun found => ?_
  cases found with
  | ok existing =>
    by_cases hm : existing.isManaged = true
    · simp only [hm, if_true]
      exact maintains_within hf (hs.update _)
    · simp only [hm]
      exact maintains_fail (hf _)
  | error e =>
    by_cases hn : e.isNotFound = true
    · simp only [hn, if_true]
      exact maintains_within hf (hs.create _)
    · simp only [hn]
      exact maintains_fail (hf _)

theorem maintains_remove (hs : Storage.Maintain σ H P) (hf : ∀ e, H (.failed e)) (loc : Location) :
    Maintains H P (remove loc : Action σ _) := by
  refine maintains_bind (maintains_attempt (hs.delete loc) fun _ he _ => he) fun outcome => ?_
  cases outcome with
  | ok _ => exact maintains_pure _
  | error e =>
    by_cases hn : e.isNotFound = true
    · simp only [hn, if_true]
      exact maintains_pure _
    · simp only [hn]
      exact maintains_fail (hf _)

theorem maintains_operatorKey (hs : Storage.Maintain σ H P) (hf : ∀ e, H (.failed e))
    (space : String) : Maintains H P (operatorKey space : Action σ _) := by
  have hsingle : Maintains H P (single space .operatorSigning : Action σ _) := by
    refine maintains_bind (hs.list _ _) fun records => ?_
    split
    · exact maintains_pure _
    · exact maintains_fail (hf _)
    · exact maintains_fail (hf _)
  refine maintains_bind hsingle fun r => ?_
  split
  · exact maintains_fail (hf _)
  · exact maintains_within hf (maintains_ofExcept hf _)

/-- A look-up reports what its storage does, even that it dies. -/
theorem maintains_lookUp (hs : Storage.Maintain σ H P) (loc : Location) :
    Maintains H P (lookUp loc : Action σ _) := by
  intro s hp
  have hget := hs.get loc s hp
  rw [lookUp]
  cases hr : (Storage.get loc s : EStateM.Result Halt σ Record) with
  | ok r s' =>
    rw [hr] at hget
    exact hget
  | error e s' =>
    rw [hr] at hget
    cases e with
    | failed e => exact hget.2
    | stalled => exact hget
    | crashed => exact hget.2

theorem maintains_adopt (hs : Storage.Maintain σ H P) (slot : Record × Bool) (role : Role)
    (id : Option String) : Maintains H P (adopt slot role id : Action σ _) := by
  unfold adopt annotate
  split
  · refine maintains_bind (maintains_attempt ?_ fun _ he _ => he) fun _ => maintains_pure _
    exact maintains_bind (hs.get _) fun r => hs.update _
  · exact maintains_pure _

theorem maintains_accountKeys (hs : Storage.Maintain σ H P) (hf : ∀ e, H (.failed e))
    (space account : String) (id : Option String) :
    Maintains H P (accountKeys space account id : Action σ _) := by
  have hlabelled : Maintains H P (labelledRecords space id : Action σ _) := by
    cases id with
    | none => exact maintains_pure _
    | some id => exact hs.list _ _
  have hcomplete : ∀ root signing,
      Maintains H P (completeRecords space account root signing : Action σ _) := by
    intro root signing
    refine maintains_bind (maintains_lookUp hs _) fun fixedRoot => ?_
    refine maintains_bind (maintains_lookUp hs _) fun fixedSigning => ?_
    split
    · refine maintains_bind (maintains_adopt hs _ _ _) fun _ => ?_
      exact maintains_bind (maintains_adopt hs _ _ _) fun _ => maintains_pure _
    · exact maintains_fail (hf _)
    · exact maintains_fail (hf _)
    · exact maintains_fail (hf _)
  refine maintains_bind hlabelled fun labelled => ?_
  refine maintains_bind (maintains_ofExcept hf _) fun slots => ?_
  have hread : ∀ root signing : Record, Maintains H P (do
      let root ← Action.ofExcept (accountKeyOf root)
      let signing ← Action.ofExcept (accountKeyOf signing)
      return (⟨root, signing⟩ : AccountKeys) : Action σ _) :=
    fun root signing => maintains_bind (maintains_ofExcept hf _) fun _ =>
      maintains_bind (maintains_ofExcept hf _) fun _ => maintains_pure _
  split
  · exact maintains_bind (maintains_pure _) fun records => hread records.1 records.2
  · exact maintains_bind (hcomplete _ _) fun records => hread records.1 records.2

theorem maintains_storeAccountKeys (hs : Storage.Maintain σ H P) (hf : ∀ e, H (.failed e))
    (space account : String) (keys : AccountKeys) :
    Maintains H P (storeAccountKeys space account keys : Action σ _) :=
  maintains_bind (maintains_put hs hf none _ _ _) fun _ => maintains_put hs hf none _ _ _

end Keyring

/-! ## Operations of one cluster -/

namespace World

/-- What is true of the secrets and of the cluster. -/
def Both (P : σ → Prop) (Q : κ → Prop) (w : World σ κ) : Prop :=
  P w.secrets ∧ Q w.cluster

variable {α : Type}

theorem maintains_onSecrets {act : Action σ α} (h : Maintains H P act) :
    Maintains H (Both P Q) (onSecrets act : Action (World σ κ) α) :=
  maintains_onPart h (fun _ hw => hw.1) fun _ _ hw hp => ⟨hp, hw.2⟩

theorem maintains_onCluster {act : Action κ α} (h : Maintains H Q act) :
    Maintains H (Both P Q) (onCluster act : Action (World σ κ) α) :=
  maintains_onPart h (fun _ hw => hw.2) fun _ _ hw hq => ⟨hw.1, hq⟩

theorem maintains_drawKey (setting : Setting) (role : Key.Role) :
    Maintains H (Both P Q) (drawKey setting role : Action (World σ κ) Key.Pair) :=
  fun _ hw => hw

theorem maintains_connected [Storage σ] [Control κ] (hc : Control.Maintain κ H Q)
    (hf : ∀ e, H (.failed e)) (setting : Setting) {request : Action κ α}
    (hr : Maintains H Q request) :
    Maintains H (Both P Q) (connected setting request : Action (World σ κ) α) := by
  refine maintains_bind (fun _ hw => hw) fun w => ?_
  refine maintains_bind (maintains_attempt (maintains_onCluster
    (maintains_bind (hc.connect _ _) fun _ => hr)) fun _ he _ => he) fun outcome => ?_
  -- the connection is given back in the state that the request has left
  intro w' hw'
  exact maintains_ofExcept hf outcome _ ⟨hw'.1, hc.disconnect _ hw'.2⟩

end World

namespace Lifecycle

variable {setting : Setting} {resolver : Claims.Resolver}

theorem maintains_ofClaims {ω α : Type} {R : ω → Prop} (hf : ∀ e, H (.failed e))
    (x : Except Claims.ClaimsError α) : Maintains H R (ofClaims x) := by
  cases x with
  | ok a => exact maintains_pure a
  | error e => exact maintains_fail (hf _)

section Operations

variable [Storage σ] [Control κ]

theorem maintains_signAndPublish (hc : Control.Maintain κ H Q) (hf : ∀ e, H (.failed e))
    (operator : Key.Pair) (claims : Claims.AccountClaims) :
    Maintains H (World.Both P Q)
      (signAndPublish setting operator claims : Action (World σ κ) Unit) :=
  maintains_bind (maintains_ofClaims hf _) fun token =>
    World.maintains_connected hc hf setting (hc.upload token)

theorem maintains_issueAccount (hs : Storage.Maintain σ H P) (hc : Control.Maintain κ H Q)
    (hf : ∀ e, H (.failed e)) (a : Account) :
    Maintains H (World.Both P Q) (issueAccount setting resolver a : Action (World σ κ) _) := by
  refine maintains_bind (World.maintains_onSecrets (Keyring.maintains_operatorKey hs hf _)) ?_
  intro operator
  refine maintains_bind (World.maintains_drawKey setting .account) fun root => ?_
  refine maintains_bind (World.maintains_drawKey setting .account) fun signing => ?_
  refine maintains_bind (maintains_ofClaims hf _) fun claims => ?_
  refine maintains_bind (maintains_within hf (World.maintains_onSecrets
    (Keyring.maintains_storeAccountKeys hs hf _ _ _))) fun _ => ?_
  exact maintains_bind (maintains_signAndPublish hc hf operator claims) fun _ => maintains_pure _

omit [Control κ] in
theorem maintains_existingKeys (hs : Storage.Maintain σ H P) (hf : ∀ e, H (.failed e))
    (a : Account) : Maintains H (World.Both P Q) (existingKeys a : Action (World σ κ) _) := by
  unfold existingKeys
  split
  · exact maintains_fail (hf _)
  · refine maintains_bind (World.maintains_onSecrets
      (Keyring.maintains_accountKeys hs hf _ _ _)) fun keys => ?_
    split
    · exact maintains_pure _
    · exact maintains_fail (hf _)

theorem maintains_reissueAccount (hs : Storage.Maintain σ H P) (hc : Control.Maintain κ H Q)
    (hf : ∀ e, H (.failed e)) (a : Account) :
    Maintains H (World.Both P Q) (reissueAccount setting resolver a : Action (World σ κ) _) := by
  refine maintains_bind (World.maintains_onSecrets (Keyring.maintains_operatorKey hs hf _)) ?_
  intro operator
  refine maintains_bind (maintains_existingKeys hs hf a) fun keys => ?_
  refine maintains_bind (maintains_ofClaims hf _) fun claims => ?_
  exact maintains_bind (maintains_signAndPublish hc hf operator claims) fun _ => maintains_pure _

theorem maintains_publishedClaims (hc : Control.Maintain κ H Q) (hf : ∀ e, H (.failed e))
    (id : String) :
    Maintains H (World.Both P Q) (publishedClaims setting id : Action (World σ κ) _) := by
  refine maintains_bind (World.maintains_connected hc hf setting (hc.lookup id)) fun token => ?_
  cases hb : (Text.trim token).isEmpty with
  | true =>
    simp only [hb, if_true]
    exact maintains_pure _
  | false =>
    simp only [hb, Bool.false_eq_true, if_false]
    generalize Claims.decodeAccount (Text.trim token) = read
    exact maintains_bind (maintains_ofClaims hf read) fun _ => maintains_pure _

theorem maintains_observeAccount (hs : Storage.Maintain σ H P) (hc : Control.Maintain κ H Q)
    (hf : ∀ e, H (.failed e)) (a : Account) :
    Maintains H (World.Both P Q) (observeAccount setting a : Action (World σ κ) _) := by
  refine maintains_bind (maintains_existingKeys hs hf a) fun keys => ?_
  refine maintains_bind (maintains_publishedClaims hc hf _) fun found => ?_
  cases found with
  | none => exact maintains_fail (hf _)
  | some claims =>
    simp only []
    split
    · exact maintains_pure _
    · exact maintains_fail (hf _)

theorem maintains_revokeAccount (hs : Storage.Maintain σ H P) (hc : Control.Maintain κ H Q)
    (hf : ∀ e, H (.failed e)) (a : Account) :
    Maintains H (World.Both P Q) (revokeAccount setting a : Action (World σ κ) Unit) := by
  unfold revokeAccount
  split
  · exact maintains_pure _
  · refine maintains_bind (World.maintains_onSecrets
      (Keyring.maintains_operatorKey hs hf _)) fun operator => ?_
    refine maintains_bind (maintains_ofClaims hf _) fun token => ?_
    refine maintains_bind (maintains_within hf
      (World.maintains_connected hc hf setting (hc.delete token))) fun _ => ?_
    exact maintains_bind (maintains_attempt (World.maintains_onSecrets (hs.deleteSelected _ _))
      fun _ he _ => he) fun _ => maintains_pure _

omit [Control κ] in
theorem maintains_issueUser (hs : Storage.Maintain σ H P) (hf : ∀ e, H (.failed e)) (u : User) :
    Maintains H (World.Both P Q) (issueUser setting resolver u : Action (World σ κ) _) := by
  refine maintains_bind (maintains_within hf (maintains_ofExcept hf _)) fun id => ?_
  refine maintains_bind (World.maintains_onSecrets
    (Keyring.maintains_accountKeys hs hf _ _ _)) fun keys => ?_
  refine maintains_bind (World.maintains_drawKey setting .user) fun userKey => ?_
  refine maintains_bind (maintains_ofClaims hf _) fun claims => ?_
  refine maintains_bind (maintains_ofClaims hf _) fun token => ?_
  exact maintains_bind (maintains_within hf (World.maintains_onSecrets
    (Keyring.maintains_put hs hf _ _ _ _))) fun _ => maintains_pure _

end Operations

end Lifecycle

/-! ## Reconciles -/

namespace Fleet

/-- What is true of every cluster of a fleet. -/
def Each (Q : κ → Prop) (f : Fleet κ) : Prop :=
  ∀ r c, f.at? r = some c → Q c

theorem Each.set {f : Fleet κ} (h : Each Q f) {c : κ} (hc : Q c) (r : Route) :
    Each Q (f.set c r) := by
  intro r' c' hr
  rw [at?_set] at hr
  split at hr
  · exact Option.some.inj hr ▸ hc
  · exact h r' c' hr

theorem maintains_on {α : Type} {act : Action (World σ κ) α} (h : Maintains H (World.Both P Q) act)
    (hf : ∀ e, H (.failed e)) (r : Route) : Maintains H (World.Both P (Each Q)) (on r act) := by
  intro w hw
  rw [on]
  cases hc : w.cluster.at? r with
  | none => exact ⟨hf _, hw⟩
  | some c =>
    have hact := h { secrets := w.secrets, cluster := c, drawn := w.drawn } ⟨hw.1, hw.2 r c hc⟩
    simp only []
    cases hr : act { secrets := w.secrets, cluster := c, drawn := w.drawn } with
    | ok a w' =>
      rw [hr] at hact
      exact ⟨hact.1, hw.2.set hact.2 r⟩
    | error e w' =>
      rw [hr] at hact
      exact ⟨hact.1, hact.2.1, hw.2.set hact.2.2 r⟩

end Fleet

namespace Lifecycle

variable {setting : Setting} {catalog : Catalog}

/-- Under a deadline nothing stalls. -/
theorem maintains_bounded {ω α : Type} {R : ω → Prop} {act : Action ω α} {key : String}
    (h : Maintains H R act) (hf : ∀ e, H (.failed e)) :
    Maintains (fun e => H e ∧ e ≠ .stalled) R (bounded key act) := by
  have hfailed : ∀ e, Halt.failed e ≠ .stalled := nofun
  have hcrashed : Halt.crashed ≠ .stalled := nofun
  intro s hp
  have hs := h s hp
  rw [bounded]
  cases hr : act s with
  | ok a s' =>
    rw [hr] at hs
    exact hs
  | error e s' =>
    rw [hr] at hs
    cases e with
    | failed e => exact ⟨⟨hs.1, hfailed e⟩, hs.2⟩
    | stalled => exact ⟨⟨hf _, hfailed _⟩, hs.2⟩
    | crashed => exact ⟨⟨hs.1, hcrashed⟩, hs.2⟩

theorem maintains_route {R : World σ (Fleet κ) → Prop} (hf : ∀ e, H (.failed e)) (a : Account) :
    Maintains H R (route a) :=
  maintains_bind (fun _ hw => hw) fun _ => maintains_ofExcept hf _

variable [Storage σ] [Control κ]

theorem maintains_applyAccount (hs : Storage.Maintain σ H P) (hc : Control.Maintain κ H Q)
    (hf : ∀ e, H (.failed e)) (a : Account) :
    Maintains (fun e => H e ∧ e ≠ .stalled) (World.Both P (Fleet.Each Q))
      (applyAccount setting catalog a) := by
  have hfail : ∀ e, H (.failed e) ∧ Halt.failed e ≠ .stalled := fun e => ⟨hf e, nofun⟩
  have hissued : ∀ {act : Action (World σ κ) AccountOutcome}, Maintains H (World.Both P Q) act →
      Maintains (fun e => H e ∧ e ≠ .stalled) (World.Both P (Fleet.Each Q)) (do
        let o ← bounded a.metadata.key (Fleet.on (← route a) act)
        return recordAccount setting a o) :=
    fun h => maintains_bind (maintains_route hfail a) fun r =>
      maintains_bind (maintains_bounded (Fleet.maintains_on h hf r) hf) fun _ => maintains_pure _
  unfold applyAccount
  cases a.plan with
  | release => exact maintains_pure _
  | delete =>
    refine maintains_bind (maintains_route hfail a) fun r => ?_
    refine maintains_bind (maintains_ofExcept hfail _) fun _ => ?_
    exact maintains_bind (maintains_bounded (Fleet.maintains_on
      (maintains_revokeAccount hs hc hf a) hf r) hf) fun _ => maintains_pure _
  | create => exact hissued (maintains_issueAccount hs hc hf a)
  | update => exact hissued (maintains_reissueAccount hs hc hf a)
  | observe => exact hissued (maintains_observeAccount hs hc hf a)

omit [Control κ] in
theorem maintains_applyUser (hs : Storage.Maintain σ H P) (hf : ∀ e, H (.failed e)) (u : User) :
    Maintains (fun e => H e ∧ e ≠ .stalled) (World.Both P (Fleet.Each Q))
      (applyUser setting catalog u) := by
  have hfail : ∀ e, H (.failed e) ∧ Halt.failed e ≠ .stalled := fun e => ⟨hf e, nofun⟩
  unfold applyUser
  cases u.plan with
  | delete =>
    have hafter : ∀ r, Maintains (fun e => H e ∧ e ≠ .stalled) (World.Both P (Fleet.Each Q)) (do
        bounded u.metadata.key (Fleet.on r (withdrawUser u : Action (World σ κ) Unit))
        return u) :=
      fun r => maintains_bind (maintains_bounded (Fleet.maintains_on
        (World.maintains_onSecrets (Keyring.maintains_remove hs hf _)) hf r) hf)
        fun _ => maintains_pure _
    cases catalog.account? u.metadata.space u.spec.accountName with
    | none => exact maintains_bind (maintains_pure _) hafter
    | some a => exact maintains_bind (maintains_route hfail a) hafter
  | issue =>
    cases catalog.account? u.metadata.space u.spec.accountName with
    | none => exact maintains_fail (hfail _)
    | some a =>
      refine maintains_bind (maintains_route hfail a) fun r => ?_
      exact maintains_bind (maintains_bounded (Fleet.maintains_on
        (maintains_issueUser hs hf u) hf r) hf) fun _ => maintains_pure _

/-- A reconcile keeps true what the operations of the storage and of the clusters keep true, and it
returns unless one of them dies. -/
theorem maintains_reconcile (hs : Storage.Maintain σ H P) (hc : Control.Maintain κ H Q)
    (hf : ∀ e, H (.failed e)) (x : Resource) :
    Maintains (fun e => H e ∧ e = .crashed) (World.Both P (Fleet.Each Q))
      (reconcile setting catalog x) := by
  have hdead : ∀ e, H e ∧ e ≠ .stalled → (∀ error, e ≠ .failed error) → H e ∧ e = .crashed := by
    intro e he hne
    cases e with
    | failed error => exact absurd rfl (hne error)
    | stalled => exact absurd rfl he.2
    | crashed => exact ⟨he.1, rfl⟩
  cases x with
  | account a =>
    have happly : Maintains (fun e => H e ∧ e = .crashed) (World.Both P (Fleet.Each Q))
        (reconcileAccount setting catalog a) := by
      refine maintains_bind (maintains_attempt (maintains_applyAccount hs hc hf a) hdead) ?_
      intro outcome
      cases outcome <;> exact maintains_pure _
    exact maintains_bind happly fun _ => maintains_pure _
  | user u =>
    have happly : Maintains (fun e => H e ∧ e = .crashed) (World.Both P (Fleet.Each Q))
        (reconcileUser setting catalog u : Action (World σ (Fleet κ)) _) := by
      refine maintains_bind (maintains_attempt (maintains_applyUser hs hf u) hdead) ?_
      intro outcome
      cases outcome <;> exact maintains_pure _
    exact maintains_bind happly fun _ => maintains_pure _

/-- A reconcile ends without a result only where an operation of the storage or of a cluster
dies. -/
theorem crashed_of_reconcile {x : Resource} {halt : Halt} {w w' : World σ (Fleet κ)}
    (h : reconcile setting catalog x w = .error halt w') : halt = .crashed :=
  ((maintains_reconcile .trivial .trivial (fun _ => trivial) x).of_error
    ⟨trivial, fun _ _ _ => trivial⟩ h).1.2

end Lifecycle

namespace Estate

variable [Storage σ] [Control κ]

theorem maintains_reconcile (hs : Storage.Maintain σ H P) (hc : Control.Maintain κ H Q)
    (hf : ∀ e, H (.failed e)) (setting : Setting) (x : Resource) :
    Maintains (fun e => H e ∧ e = .crashed)
      (fun e : Estate σ κ => World.Both P (Fleet.Each Q) e.world) (reconcile setting x) := by
  refine maintains_bind (fun _ he => he) fun e₀ => ?_
  refine maintains_bind (maintains_onPart (Lifecycle.maintains_reconcile hs hc hf x)
    (fun _ he => he) fun _ _ _ hw => hw) fun r => ?_
  exact maintains_bind (fun _ he => he) fun _ => maintains_pure r

end Estate

end CredentialEngine
