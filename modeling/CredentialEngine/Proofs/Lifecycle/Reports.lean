import CredentialEngine.Proofs.Lifecycle.Invariants
import Mathlib.Logic.Relation

/-!
# What a reconcile makes of its resource

A reconcile that fails writes its failure into the status of the resource and changes nothing else
of it, at whatever step it fails. One that succeeds leaves a resource that is gone or let go as it
is, and of any other it changes the status and the labels that name keys.
-/
namespace CredentialEngine

/-- Metadata that are the same but for the values of some labels. -/
structure Metadata.SameBut (keys : List String) (m m' : Metadata) : Prop where
  name : m'.name = m.name
  space : m'.space = m.space
  uid : m'.uid = m.uid
  deletion : m'.deletion = m.deletion
  labels : ∀ key ∉ keys, m'.labels.get? key = m.labels.get? key

namespace Lifecycle

open CredentialEngine.Action

theorem sameBut_refl (keys : List String) (m : Metadata) : m.SameBut keys m :=
  ⟨rfl, rfl, rfl, rfl, fun _ _ => rfl⟩

theorem sameBut_setLabel {keys : List String} {m m' : Metadata} (h : m.SameBut keys m')
    {key : String} (hkey : key ∈ keys) (value : String) :
    m.SameBut keys (m'.setLabel key value) where
  name := h.name
  space := h.space
  uid := h.uid
  deletion := h.deletion
  labels key' hout := by
    have hne : key' ≠ key := fun he => hout (he ▸ hkey)
    exact (Dict.get?_insert_of_ne m'.labels value hne).trans (h.labels key' hout)

/-! ## Accounts -/

/-- The labels of an account that name keys. -/
def accountKeyLabels : List String := [Label.accountId, Label.accountSignedBy]

/-- An account after a reconcile of it has failed: the failure is reported, all else is as it was.
-/
structure AccountFailed (setting : Setting) (a : Account) (e : Error) (a' : Account) : Prop where
  metadata : a'.metadata = a.metadata
  spec : a'.spec = a.spec
  claims : a'.status.claims = a.status.claims
  signingKey : a'.status.signingKey = a.status.signingKey
  ready : a'.status.ready = false
  message : a'.status.message = some e.message
  reconciledAt : a'.status.reconciledAt = some setting.timestamp

/-- An account that was brought to its declared state. -/
structure AccountReady (setting : Setting) (a a' : Account) : Prop where
  metadata : a.metadata.SameBut accountKeyLabels a'.metadata
  spec : a'.spec = a.spec
  ready : a'.status.ready = true
  message : a'.status.message = none
  reconciledAt : a'.status.reconciledAt = some setting.timestamp

/-- What carrying out an action without an error makes of an account. -/
structure AccountDone (setting : Setting) (a : Account) (act : AccountAction) (a' : Account) :
    Prop where
  planned : act = a.plan
  left : act = .delete ∨ act = .release → a' = a
  ready : act ≠ .delete → act ≠ .release → AccountReady setting a a'

/-- How a reconcile of an account ends: with an action that was carried out, with a failure that was
reported, or because something has died. -/
def AccountReported {ω : Type} (setting : Setting) (a : Account) :
    EStateM.Result Halt ω (Except Error AccountAction × Account) → Prop
  | .ok (.ok act, a') _ => AccountDone setting a act a'
  | .ok (.error e, a') _ => AccountFailed setting a e a'
  | .error halt _ => halt = .crashed

theorem accountFailed_failAccount (setting : Setting) (a : Account) (e : Error) :
    AccountFailed setting a e (failAccount setting a e) :=
  ⟨rfl, rfl, rfl, rfl, rfl, rfl, rfl⟩

theorem accountReady_recordAccount (setting : Setting) (a : Account) (o : AccountOutcome) :
    AccountReady setting a (recordAccount setting a o) where
  metadata := by
    refine sameBut_setLabel (sameBut_setLabel (sameBut_refl _ _) ?_ _) ?_ _
    · exact List.mem_cons_self
    · exact List.mem_cons_of_mem _ List.mem_cons_self
  spec := rfl
  ready := rfl
  message := rfl
  reconciledAt := rfl

/-! ## Users -/

/-- The labels of a user that name keys. -/
def userKeyLabels : List String := [Label.userId, Label.userAccountId, Label.userSignedBy]

/-- A user after a reconcile of it has failed. -/
structure UserFailed (setting : Setting) (u : User) (e : Error) (u' : User) : Prop where
  metadata : u'.metadata = u.metadata
  spec : u'.spec = u.spec
  claims : u'.status.claims = u.status.claims
  ready : u'.status.ready = false
  message : u'.status.message = some e.message
  reconciledAt : u'.status.reconciledAt = some setting.timestamp

/-- A user that was issued. -/
structure UserReady (setting : Setting) (u u' : User) : Prop where
  metadata : u.metadata.SameBut userKeyLabels u'.metadata
  spec : u'.spec = u.spec
  ready : u'.status.ready = true
  message : u'.status.message = none
  reconciledAt : u'.status.reconciledAt = some setting.timestamp

/-- What carrying out an action without an error makes of a user. -/
structure UserDone (setting : Setting) (u : User) (act : UserAction) (u' : User) : Prop where
  planned : act = u.plan
  left : act = .delete → u' = u
  ready : act ≠ .delete → UserReady setting u u'

/-- How a reconcile of a user ends. -/
def UserReported {ω : Type} (setting : Setting) (u : User) :
    EStateM.Result Halt ω (Except Error UserAction × User) → Prop
  | .ok (.ok act, u') _ => UserDone setting u act u'
  | .ok (.error e, u') _ => UserFailed setting u e u'
  | .error halt _ => halt = .crashed

theorem userFailed_failUser (setting : Setting) (u : User) (e : Error) :
    UserFailed setting u e (failUser setting u e) :=
  ⟨rfl, rfl, rfl, rfl, rfl, rfl⟩

theorem userReady_recordUser (setting : Setting) (u : User) (o : UserOutcome) :
    UserReady setting u (recordUser setting u o) where
  metadata := by
    refine sameBut_setLabel (sameBut_setLabel (sameBut_setLabel (sameBut_refl _ _) ?_ _) ?_ _) ?_ _
    · exact List.mem_cons_self
    · exact List.mem_cons_of_mem _ List.mem_cons_self
    · exact List.mem_cons_of_mem _ (List.mem_cons_of_mem _ List.mem_cons_self)
  spec := rfl
  ready := rfl
  message := rfl
  reconciledAt := rfl

/-! ## Reconciles -/

variable {σ κ : Type} [Storage σ] [Control κ] {setting : Setting} {catalog : Catalog}
  {a : Account} {u : User} {w : World σ (Fleet κ)}

/-- The labels and the status are set after the last step that can fail. -/
theorem ends_applyAccount_done :
    Ends (applyAccount setting catalog a) (fun a' _ => AccountDone setting a a.plan a')
      (fun _ => True) w := by
  have hrecorded : ∀ {done : AccountAction} {act : Action (World σ κ) AccountOutcome},
      a.plan = done → done ≠ .delete → done ≠ .release → Ends (do
        let o ← bounded a.metadata.key (Fleet.on (← route a) act)
        return recordAccount setting a o) (fun a' _ => AccountDone setting a done a')
        (fun _ => True) w := by
    intro done act hplan hdelete hrelease
    refine ends_routed (fun _ => ends_any (fun o _ => ⟨hplan.symm, ?_, ?_⟩) fun _ => trivial) trivial
    · exact fun hleft => hleft.elim (absurd · hdelete) (absurd · hrelease)
    · exact fun _ _ => accountReady_recordAccount setting a o
  unfold applyAccount
  cases hplan : a.plan with
  | release =>
    exact ends_pure ⟨hplan.symm, fun _ => rfl, fun _ hrelease => absurd rfl hrelease⟩
  | delete =>
    refine ends_bind (ends_route (fun r => ?_) trivial)
    refine ends_bind (ends_ofExcept (fun _ _ => ?_) trivial)
    refine ends_bind (ends_any (fun _ _ => ends_pure ?_) fun _ => trivial)
    exact ⟨hplan.symm, fun _ => rfl, fun hdelete _ => absurd rfl hdelete⟩
  | create => exact hrecorded hplan nofun nofun
  | update => exact hrecorded hplan nofun nofun
  | observe => exact hrecorded hplan nofun nofun

omit [Control κ] in
theorem ends_applyUser_done :
    Ends (applyUser setting catalog u) (fun u' _ => UserDone setting u u.plan u')
      (fun _ => True) w := by
  unfold applyUser
  cases hplan : u.plan with
  | delete =>
    have hafter : ∀ r w', Ends (do
        bounded u.metadata.key (Fleet.on r (withdrawUser u : Action (World σ κ) Unit))
        return u) (fun u' _ => UserDone setting u .delete u') (fun _ => True) w' := by
      intro r w'
      refine ends_bind (ends_any (fun _ _ => ends_pure ?_) fun _ => trivial)
      exact ⟨hplan.symm, fun _ => rfl, fun hdelete => absurd rfl hdelete⟩
    cases catalog.account? u.metadata.space u.spec.accountName with
    | none => exact ends_bind (ends_pure (hafter .default w))
    | some a => exact ends_bind (ends_any hafter fun _ => trivial)
  | issue =>
    cases catalog.account? u.metadata.space u.spec.accountName with
    | none => exact ends_fail trivial
    | some a =>
      refine ends_routed (fun _ => ends_any (fun o _ => ?_) fun _ => trivial) trivial
      exact ⟨hplan.symm, nofun, fun _ => userReady_recordUser setting u o⟩

theorem accountReported_reconcileAccount (setting : Setting) (catalog : Catalog)
    (w : World σ (Fleet κ)) (a : Account) :
    AccountReported setting a (reconcileAccount setting catalog a w) := by
  have hends : Ends (reconcileAccount setting catalog a)
      (fun p w' => AccountReported setting a (.ok p w')) (fun _ => True) w :=
    ends_bind (ends_attempt (ends_applyAccount_done.mono (fun _ _ h => ends_pure h)
      fun _ _ => ⟨fun e => ends_pure (accountFailed_failAccount setting a e), trivial⟩))
  cases hr : reconcileAccount setting catalog a w with
  | ok p w' => exact hends.returned hr
  | error halt w' =>
    have hwhole : reconcile setting catalog (.account a) w = .error halt w' := bind_of_error hr
    exact crashed_of_reconcile hwhole

theorem userReported_reconcileUser (setting : Setting) (catalog : Catalog)
    (w : World σ (Fleet κ)) (u : User) :
    UserReported setting u (reconcileUser setting catalog u w) := by
  have hends : Ends (reconcileUser setting catalog u)
      (fun p w' => UserReported setting u (.ok p w')) (fun _ => True) w :=
    ends_bind (ends_attempt (ends_applyUser_done.mono (fun _ _ h => ends_pure h)
      fun _ _ => ⟨fun e => ends_pure (userFailed_failUser setting u e), trivial⟩))
  cases hr : reconcileUser setting catalog u w with
  | ok p w' => exact hends.returned hr
  | error halt w' =>
    have hwhole : reconcile setting catalog (.user u) w = .error halt w' := bind_of_error hr
    exact crashed_of_reconcile hwhole

/-- **Whatever goes wrong at whatever step, a failed reconcile changes nothing of its resource but
the report of the failure.** An account that was deleted or released and a user that was deleted
with success are left as they are; any other success is reported in the status and in the labels
that name the keys, with the specification left alone. -/
theorem reported_of_reconcile (setting : Setting) (catalog : Catalog) (w : World σ (Fleet κ)) :
    (∀ a, AccountReported setting a (reconcileAccount setting catalog a w)) ∧
      ∀ u, UserReported setting u (reconcileUser setting catalog u w) :=
  ⟨accountReported_reconcileAccount setting catalog w, userReported_reconcileUser setting catalog w⟩

/-! ## Failing again and again -/

/-- Some reconcile of an account fails and leaves another in its place. -/
def AccountFails (σ κ : Type) [Storage σ] [Control κ] (a a' : Account) : Prop :=
  ∃ setting catalog e, ∃ w w' : World σ (Fleet κ),
    reconcileAccount setting catalog a w = .ok (.error e, a') w'

/-- However often the reconciles of an account fail, whatever happens in between, its plan and the
keys it reports are those it had. -/
theorem kept_of_failures {a a' : Account} (h : Relation.ReflTransGen (AccountFails σ κ) a a') :
    a'.plan = a.plan ∧ a'.metadata = a.metadata ∧ a'.spec = a.spec ∧
      a'.status.claims = a.status.claims ∧ a'.status.signingKey = a.status.signingKey := by
  induction h with
  | refl => exact ⟨rfl, rfl, rfl, rfl, rfl⟩
  | @tail b a' hfails hstep ih =>
    obtain ⟨hplan, hmetadata, hspec, hclaims, hsigning⟩ := ih
    obtain ⟨setting, catalog, e, w, w', hr⟩ := hstep
    have hreported := accountReported_reconcileAccount setting catalog w b
    rw [hr] at hreported
    have hfailed : AccountFailed setting b e a' := hreported
    have hsame : a'.plan = b.plan := by
      rw [Account.plan, Account.plan, Account.isObserveOnly, Account.isObserveOnly, Account.id?,
        Account.id?, hfailed.metadata]
    exact ⟨hsame.trans hplan, hfailed.metadata.trans hmetadata, hfailed.spec.trans hspec,
      hfailed.claims.trans hclaims, hfailed.signingKey.trans hsigning⟩

end Lifecycle

end CredentialEngine
