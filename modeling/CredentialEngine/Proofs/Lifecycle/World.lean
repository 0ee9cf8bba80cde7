import CredentialEngine.Lifecycle.Reconcile
import CredentialEngine.Proofs.Action
import CredentialEngine.Proofs.Dict

/-!
# Operations on parts of the world

Work on the secrets leaves the cluster alone and work on the cluster leaves the secrets alone. A
request on a fresh connection changes neither the secrets nor the number of keys drawn.
-/
namespace CredentialEngine

open CredentialEngine.Action

namespace World

variable {σ κ α : Type} {w : World σ κ} {Q : α → World σ κ → Prop} {E : World σ κ → Prop}

theorem ends_onSecrets {act : Action σ α}
    (h : Ends act (fun a t => Q a { w with secrets := t }) (fun t => E { w with secrets := t })
      w.secrets) : Ends (onSecrets act) Q E w :=
  ends_onPart h

theorem ends_drawKey {setting : Setting} {role : Key.Role} {Q : Key.Pair → World σ κ → Prop}
    (h : Q (Key.Pair.ofSeed role (setting.keySource w.drawn)) { w with drawn := w.drawn + 1 }) :
    Ends (drawKey setting role) Q E w := h

/-- A request on a fresh connection ends as connecting and the request do. The connection is given
back, unless nothing answers any more. -/
theorem ends_connected_of [Storage σ] [Control κ] {setting : Setting} {request : Action κ α}
    (h : Ends (Control.connect (credentials w) setting.operatorSpace >>= fun _ => request)
      (fun a c => Q a { w with cluster := Control.disconnect c })
      (fun c => E { w with cluster := Control.disconnect c } ∧ E { w with cluster := c })
      w.cluster) : Ends (connected setting request) Q E w := by
  refine ends_bind (ends_ok rfl (ends_bind (ends_attempt (ends_onPart (h.mono ?_ ?_)))))
  · exact fun _ _ hq => hq
  · exact fun _ he => ⟨fun _ => he.1, he.2⟩

theorem ends_connected [Storage σ] [Control κ] {setting : Setting} {request : Action κ α}
    (hq : ∀ a c, Q a { w with cluster := c }) (he : ∀ c, E { w with cluster := c }) :
    Ends (connected setting request) Q E w :=
  ends_connected_of (ends_any (fun a _ => hq a _) fun c => ⟨he _, he c⟩)

/-- What a request on a fresh connection returned, connecting and the request did. -/
theorem of_connected_ok [Storage σ] [Control κ] {setting : Setting} {request : Action κ α} {x : α}
    {w' : World σ κ} (h : connected setting request w = .ok x w') :
    ∃ opened closing, Control.connect (credentials w) setting.operatorSpace w.cluster =
        .ok () opened ∧ request opened = .ok x closing ∧
      w' = { w with cluster := Control.disconnect closing } := by
  have hends : Ends (connected setting request) (fun x w' => ∃ opened closing,
      Control.connect (credentials w) setting.operatorSpace w.cluster = .ok () opened ∧
        request opened = .ok x closing ∧ w' = { w with cluster := Control.disconnect closing })
      (fun _ => True) w := by
    refine ends_connected_of ((ends_any (Q := fun _ _ => True) (E := fun _ => True)
      (fun _ _ => trivial) fun _ => trivial).andReturned.mono (fun x closing hr => ?_)
      fun _ _ => ⟨trivial, trivial⟩)
    obtain ⟨⟨⟩, opened, hconnect, hrequest⟩ := of_bind_ok hr.2
    exact ⟨opened, closing, hconnect, hrequest, rfl⟩
  exact hends.returned h

theorem connected_of_ok [Storage σ] [Control κ] {setting : Setting} {request : Action κ α} {x : α}
    {opened closing : κ}
    (hconnect : Control.connect (credentials w) setting.operatorSpace w.cluster = .ok () opened)
    (hrequest : request opened = .ok x closing) :
    connected setting request w = .ok x { w with cluster := Control.disconnect closing } := by
  have hboth : (Control.connect (credentials w) setting.operatorSpace >>= fun _ => request)
      w.cluster = .ok x closing := by
    refine (bind_of_ok hconnect).trans ?_
    exact hrequest
  have hpart : Action.attempt (onCluster (Control.connect (credentials w) setting.operatorSpace >>=
      fun _ => request)) w = .ok (.ok x) { w with cluster := closing } :=
    attempt_ok (by rw [onCluster, onPart, hboth])
  refine (bind_of_ok hpart).trans ?_
  rfl

end World

namespace Fleet

variable {σ κ α : Type}

theorem at?_set (f : Fleet κ) (c : κ) (r r' : Route) :
    (f.set c r).at? r' = if r' = r then some c else f.at? r' := by
  cases r with
  | default => cases r' <;> rfl
  | named key =>
    cases r' with
    | default => rfl
    | named key' =>
      simp only [Route.named.injEq]
      exact Dict.get?_insert f.others key key' c

theorem at?_set_self (f : Fleet κ) (c : κ) (r : Route) : (f.set c r).at? r = some c := by
  rw [at?_set, if_pos rfl]

/-- What holds of secrets and keys after an operation of any one cluster holds in the fleet. -/
theorem ends_on {r : Route} {act : Action (World σ κ) α} {w : World σ (Fleet κ)}
    {Q : α → σ → Nat → Prop} {E : σ → Nat → Prop}
    (h : ∀ c, Ends act (fun a w' => Q a w'.secrets w'.drawn) (fun w' => E w'.secrets w'.drawn)
      { secrets := w.secrets, cluster := c, drawn := w.drawn })
    (he : E w.secrets w.drawn) :
    Ends (on r act) (fun a w' => Q a w'.secrets w'.drawn) (fun w' => E w'.secrets w'.drawn) w := by
  unfold Ends
  rw [on]
  cases hc : w.cluster.at? r with
  | none => exact he
  | some c =>
    have hact := h c
    unfold Ends at hact
    simp only []
    cases hr : act { secrets := w.secrets, cluster := c, drawn := w.drawn } with
    | ok a w' =>
      rw [hr] at hact
      exact hact
    | error e w' =>
      rw [hr] at hact
      exact hact

/-- What an operation of a fleet returned, it returned on its cluster. -/
theorem of_on_ok {r : Route} {act : Action (World σ κ) α} {w w' : World σ (Fleet κ)} {x : α}
    (h : on r act w = .ok x w') : ∃ c w₁, w.cluster.at? r = some c ∧
      act { secrets := w.secrets, cluster := c, drawn := w.drawn } = .ok x w₁ := by
  rw [on] at h
  cases hc : w.cluster.at? r with
  | none =>
    rw [hc] at h
    contradiction
  | some c =>
    simp only [hc] at h
    cases hr : act { secrets := w.secrets, cluster := c, drawn := w.drawn } with
    | error e w₁ =>
      rw [hr] at h
      contradiction
    | ok x₁ w₁ =>
      rw [hr] at h
      obtain ⟨rfl, -⟩ := EStateM.Result.ok.inj h
      exact ⟨c, w₁, rfl, hr⟩

end Fleet

namespace Lifecycle

variable {ω α : Type} {act : Action ω α} {Q : α → ω → Prop} {E : ω → Prop} {s : ω}

theorem ends_ofClaims {x : Except Claims.ClaimsError α} (h : ∀ a, x = .ok a → Q a s) (he : E s) :
    Ends (ofClaims x) Q E s := by
  cases x with
  | ok a => exact h a rfl
  | error e => exact he

theorem ends_bounded {key : String} (h : Ends act Q E s) : Ends (bounded key act) Q E s := by
  unfold Ends at h ⊢
  rw [bounded]
  cases hr : act s with
  | ok a s' =>
    rw [hr] at h
    exact h
  | error e s' =>
    rw [hr] at h
    cases e <;> exact h

theorem of_bounded_ok {key : String} {x : α} {s' : ω} (h : bounded key act s = .ok x s') :
    act s = .ok x s' := by
  rw [bounded] at h
  split at h
  · contradiction
  · exact h

/-! ## The cluster of an account -/

section Routes

variable {σ κ β : Type} {a : Account} {w : World σ (Fleet κ)} {E : World σ (Fleet κ) → Prop}

theorem ends_route {Q : Route → World σ (Fleet κ) → Prop} (hq : ∀ r, Q r w) (he : E w) :
    Ends (route a) Q E w :=
  ends_bind (ends_ok rfl (ends_ofExcept (fun r _ => hq r) he))

theorem of_route_ok {r : Route} {w' : World σ (Fleet κ)} (h : route a w = .ok r w') :
    w' = w ∧ w.cluster.routeOf a = .ok r := by
  change Action.ofExcept (w.cluster.routeOf a) w = .ok r w' at h
  cases hr : w.cluster.routeOf a with
  | error e =>
    rw [hr] at h
    contradiction
  | ok r' =>
    rw [hr] at h
    obtain ⟨rfl, rfl⟩ := EStateM.Result.ok.inj h
    exact ⟨rfl, rfl⟩

/-- An account that names no cluster belongs to the default one. -/
theorem route_default (h : a.spec.cluster = none) (w : World σ (Fleet κ)) :
    route a w = .ok .default w := by
  change ofExcept (w.cluster.routeOf a) w = _
  rw [Fleet.routeOf, h]
  rfl

/-- An operation on the cluster of an account ends as it does on the cluster that it is led to. -/
theorem ends_routed {key : String} {act : Action (World σ κ) α} {k : α → β}
    {Q : β → World σ (Fleet κ) → Prop}
    (h : ∀ r, Ends (Fleet.on r act) (fun o w' => Q (k o) w') E w) (he : E w) :
    Ends (do
      let o ← bounded key (Fleet.on (← route a) act)
      return k o) Q E w := by
  refine ends_bind (ends_route (fun r => ?_) he)
  exact ends_bind (ends_bounded ((h r).mono (fun _ _ hq => ends_pure hq) fun _ he => he))

end Routes

/-! ## Requests of accounts -/

variable {σ κ : Type} [Storage σ] [Control κ] {w : World σ κ}

omit [Control κ] in
/-- Loading the keys of an account touches nothing but the secrets, and the keys are those of its
id. -/
theorem ends_existingKeys_id {a : Account} :
    Ends (existingKeys a)
      (fun keys w' => ∃ s, w' = { w with secrets := s } ∧ a.id? = some keys.accountId)
      (fun w' => ∃ s, w' = { w with secrets := s }) w := by
  unfold existingKeys
  cases a.id? with
  | none => exact ends_fail ⟨w.secrets, rfl⟩
  | some id =>
    refine ends_bind (World.ends_onSecrets (ends_any (fun keys s => ?_) fun s => ⟨s, rfl⟩))
    by_cases he : keys.accountId = id
    · simp only [he, if_true]
      exact ends_pure ⟨s, rfl, by rw [he]⟩
    · simp only [he, if_false]
      exact ends_fail ⟨s, rfl⟩

theorem ends_signAndPublish {setting : Setting} {operator : Key.Pair}
    {claims : Claims.AccountClaims} {Q : Unit → World σ κ → Prop} {E : World σ κ → Prop}
    (hq : ∀ c, Q () { w with cluster := c }) (he : ∀ c, E { w with cluster := c }) :
    Ends (signAndPublish setting operator claims) Q E w :=
  ends_bind (ends_ofClaims (fun _ _ => World.ends_connected (fun _ => hq) he) (he w.cluster))

theorem ends_publishedClaims {setting : Setting} {id : String}
    {Q : Option Claims.AccountClaims → World σ κ → Prop} {E : World σ κ → Prop}
    (hq : ∀ o c, Q o { w with cluster := c }) (he : ∀ c, E { w with cluster := c }) :
    Ends (publishedClaims setting id) Q E w := by
  refine ends_bind (World.ends_connected (fun token c => ?_) he)
  cases hb : (Text.trim token).isEmpty with
  | true =>
    simp only [hb, if_true]
    exact ends_pure (hq none c)
  | false =>
    simp only [hb, Bool.false_eq_true, if_false]
    generalize Claims.decodeAccount (Text.trim token) = read
    refine ends_bind (ends_ofClaims (fun claims _ => ?_) (he c))
    exact ends_pure (hq (some claims) c)

/-! ## Reconciles of accounts -/

section Reconciles

variable {setting : Setting} {catalog : Catalog} {a a' : Account} {w w' : World σ (Fleet κ)}

/-- What is carried out without an error is what was planned. -/
theorem reconcileAccount_of_applied (h : applyAccount setting catalog a w = .ok a' w') :
    reconcileAccount setting catalog a w = .ok (.ok a.plan, a') w' := by
  refine (bind_of_ok (attempt_ok h)).trans ?_
  rfl

theorem of_reconcileAccount_ok {act : AccountAction}
    (h : reconcileAccount setting catalog a w = .ok (.ok act, a') w') :
    act = a.plan ∧ applyAccount setting catalog a w = .ok a' w' := by
  change EStateM.bind (attempt (applyAccount setting catalog a)) _ w = _ at h
  rw [EStateM.bind, attempt] at h
  cases hr : applyAccount setting catalog a w with
  | ok a₁ w₁ =>
    rw [hr] at h
    obtain ⟨hp, rfl⟩ := EStateM.Result.ok.inj h
    obtain ⟨hact, rfl⟩ := Prod.mk.inj hp
    exact ⟨(Except.ok.inj hact).symm, rfl⟩
  | error e w₁ =>
    rw [hr] at h
    cases e with
    | failed e =>
      obtain ⟨hp, -⟩ := EStateM.Result.ok.inj h
      have houtcome := (Prod.mk.inj hp).1
      contradiction
    | stalled => contradiction
    | crashed => contradiction

/-- Releasing an account changes nothing. -/
theorem reconcileAccount_of_release (setting : Setting) (catalog : Catalog) (hp : a.plan = .release)
    (w : World σ (Fleet κ)) :
    reconcileAccount setting catalog a w = .ok (.ok .release, a) w := by
  have happly : applyAccount setting catalog a w = .ok a w := by
    unfold applyAccount
    rw [hp]
    rfl
  rw [reconcileAccount_of_applied happly, hp]

omit [Storage σ] [Control κ] in
/-- What an operation returns on the default cluster it returns when it is led there. -/
theorem bounded_on_default {α : Type} {key : String} {act : Action (World σ κ) α} {x : α}
    {w' : World σ κ} (h : act ⟨w.secrets, w.cluster.default, w.drawn⟩ = .ok x w') :
    bounded key (Fleet.on .default act) w =
      .ok x ⟨w'.secrets, w.cluster.set w'.cluster .default, w'.drawn⟩ := by
  rw [bounded, Fleet.on]
  simp only [Fleet.at?, h]

/-- An account that names no cluster is recorded with what the operation of its plan returned on the
default one. -/
theorem reconcileAccount_of_recorded {act : Action (World σ κ) AccountOutcome} {o : AccountOutcome}
    {w' : World σ κ} (hr : a.spec.cluster = none)
    (hplan : applyAccount setting catalog a = (do
      let o ← bounded a.metadata.key (Fleet.on (← route a) act)
      return recordAccount setting a o))
    (hact : act ⟨w.secrets, w.cluster.default, w.drawn⟩ = .ok o w') :
    reconcileAccount setting catalog a w = .ok (.ok a.plan, recordAccount setting a o)
      ⟨w'.secrets, w.cluster.set w'.cluster .default, w'.drawn⟩ := by
  refine reconcileAccount_of_applied ?_
  rw [hplan]
  refine (bind_of_ok (route_default hr w)).trans ?_
  refine (bind_of_ok (bounded_on_default hact)).trans ?_
  rfl

/-- An account that names no cluster is deleted on the default one, once the guard has let it
pass. -/
theorem reconcileAccount_of_revoked {w' : World σ κ} (hp : a.plan = .delete)
    (hr : a.spec.cluster = none) (hguard : guardDeletion catalog a = .ok ())
    (hrevoke : revokeAccount setting a ⟨w.secrets, w.cluster.default, w.drawn⟩ = .ok () w') :
    reconcileAccount setting catalog a w =
      .ok (.ok .delete, a) ⟨w'.secrets, w.cluster.set w'.cluster .default, w'.drawn⟩ := by
  have hpass : ofExcept (guardDeletion catalog a) w = .ok () w := by
    rw [hguard]
    rfl
  have happly : applyAccount setting catalog a w =
      .ok a ⟨w'.secrets, w.cluster.set w'.cluster .default, w'.drawn⟩ := by
    unfold applyAccount
    rw [hp]
    refine (bind_of_ok (route_default hr w)).trans ?_
    refine (bind_of_ok hpass).trans ?_
    refine (bind_of_ok (bounded_on_default hrevoke)).trans ?_
    rfl
  rw [reconcileAccount_of_applied happly, hp]

end Reconciles

end Lifecycle

end CredentialEngine
