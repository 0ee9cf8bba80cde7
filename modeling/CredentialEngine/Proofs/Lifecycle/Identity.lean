import CredentialEngine.Proofs.Lifecycle.Publication
import CredentialEngine.Proofs.Lifecycle.Removal

/-!
# The id of an account

An account that carries an id keeps it through every reconcile. The id is never planned over with a
new one, keys that are loaded must be the keys of the id, and what is signed with them names it, so
nothing that others do to the storage or the clusters between two reconciles can change it.
-/
namespace CredentialEngine.Lifecycle

open CredentialEngine.Action Cluster

variable {σ κ : Type} [Storage σ] [Control κ] {setting : Setting} {resolver : Claims.Resolver}
  {catalog : Catalog} {a b : Account} {id : String}

/-! ## One reconcile -/

theorem plan_ne_create (hid : a.id? = some id) : a.plan ≠ .create := by
  unfold Account.plan
  simp only [hid, Option.isSome_some, if_true]
  split
  · split <;> nofun
  · split <;> nofun

/-- An operation draws no keys, and an outcome that it returns is that of the id. -/
def Stays (id : String) (act : Action (World σ κ) AccountOutcome) (w : World σ κ) : Prop :=
  Ends act (fun o w' => o.accountId = id ∧ w'.drawn = w.drawn) (fun w' => w'.drawn = w.drawn) w

theorem stays_reissueAccount (hid : a.id? = some id) (w : World σ κ) :
    Stays id (reissueAccount setting resolver a) w := by
  refine ends_bind (World.ends_onSecrets (ends_any (fun operator s => ?_) fun _ => rfl))
  refine ends_bind (ends_existingKeys_id.mono ?_ ?_)
  · rintro keys _ ⟨s', rfl, hkeys⟩
    have hsame : keys.accountId = id := Option.some.inj (hkeys.symm.trans hid)
    refine ends_bind (ends_ofClaims (fun claims hclaims => ?_) rfl)
    refine ends_bind (ends_signAndPublish (fun c => ?_) fun _ => rfl)
    exact ends_pure ⟨(claimsOf_ok hclaims).1.trans hsame, rfl⟩
  · rintro _ ⟨s', rfl⟩
    rfl

theorem stays_observeAccount (hid : a.id? = some id) (w : World σ κ) :
    Stays id (observeAccount setting a) w := by
  refine ends_bind (ends_existingKeys_id.mono ?_ ?_)
  · rintro keys _ ⟨s, rfl, hkeys⟩
    have hsame : keys.accountId = id := Option.some.inj (hkeys.symm.trans hid)
    refine ends_bind (ends_publishedClaims (fun found c => ?_) fun _ => rfl)
    cases found with
    | none => exact ends_fail rfl
    | some claims =>
      by_cases he : claims.subject = keys.accountId
      · simp only [he, if_true]
        exact ends_pure ⟨hsame, rfl⟩
      · simp only [he, if_false]
        exact ends_fail rfl
  · rintro _ ⟨s, rfl⟩
    rfl

theorem ends_revokeAccount_drawn (w : World σ κ) :
    Ends (revokeAccount setting a) (fun _ w' => w'.drawn = w.drawn)
      (fun w' => w'.drawn = w.drawn) w := by
  unfold revokeAccount
  cases a.id? with
  | none => exact ends_pure rfl
  | some id =>
    refine ends_bind (World.ends_onSecrets (ends_any (fun operator s => ?_) fun _ => rfl))
    refine ends_bind (ends_ofClaims (fun token _ => ?_) rfl)
    refine ends_bind (ends_within (World.ends_connected (fun _ c => ?_) fun _ => rfl))
    refine ends_bind (ends_attempt (World.ends_onSecrets (ends_any (fun _ _ => ?_) fun _ => ?_)))
    · exact ends_pure rfl
    · exact ⟨fun _ => ends_pure rfl, rfl⟩

/-- The label that an account carries its id in. -/
def idLabel (a : Account) : Option String :=
  a.metadata.labels.get? Label.accountId

theorem idLabel_recordAccount (o : AccountOutcome) :
    idLabel (recordAccount setting a o) = some o.accountId := by
  change ((a.metadata.labels.insert Label.accountId o.accountId).insert Label.accountSignedBy
    o.signerId).get? Label.accountId = _
  rw [Dict.get?_insert_of_ne _ _ (by decide), Dict.get?_insert_self]

omit [Storage σ] [Control κ] in
/-- An operation on the cluster of an account that stays with the id labels the account with it. -/
theorem ends_issuedOn_of_stays {act : Action (World σ κ) AccountOutcome}
    {w : World σ (Fleet κ)} (h : ∀ c, Stays id act ⟨w.secrets, c, w.drawn⟩) :
    Ends (issuedOn setting a act) (fun a' w' => idLabel a' = some id ∧ w'.drawn = w.drawn)
      (fun w' => w'.drawn = w.drawn) w := by
  refine ends_routed (fun r => (Fleet.ends_on (Q := fun o _ n => o.accountId = id ∧ n = w.drawn)
    (E := fun _ n => n = w.drawn) h rfl).mono (fun o w' ho => ?_) fun _ h => h) rfl
  exact ⟨(idLabel_recordAccount o).trans (congrArg some ho.1), ho.2⟩

theorem ends_applyAccount_stays (hid : a.id? = some id) (w : World σ (Fleet κ)) :
    Ends (applyAccount setting catalog a) (fun a' w' => idLabel a' = some id ∧ w'.drawn = w.drawn)
      (fun w' => w'.drawn = w.drawn) w := by
  have hlabel : idLabel a = some id := (Account.id?_eq_some.mp hid).1
  unfold applyAccount
  cases hp : a.plan with
  | create => exact absurd hp (plan_ne_create hid)
  | release => exact ends_pure ⟨hlabel, rfl⟩
  | delete =>
    refine ends_bind (ends_route (fun r => ?_) rfl)
    refine ends_bind (ends_ofExcept (fun _ _ => ?_) rfl)
    refine ends_bind (ends_bounded ((Fleet.ends_on (Q := fun _ _ n => n = w.drawn)
      (E := fun _ n => n = w.drawn) (fun c => ends_revokeAccount_drawn _) rfl).mono
        (fun _ w' hn => ends_pure ⟨hlabel, hn⟩) fun _ hn => hn))
  | update => exact ends_issuedOn_of_stays fun c => stays_reissueAccount hid _
  | observe => exact ends_issuedOn_of_stays fun c => stays_observeAccount hid _

theorem ends_reconcileAccount_stays (setting : Setting) (catalog : Catalog)
    (hid : a.id? = some id) (w : World σ (Fleet κ)) :
    Ends (reconcileAccount setting catalog a)
      (fun p w' => idLabel p.2 = some id ∧ w'.drawn = w.drawn)
      (fun w' => w'.drawn = w.drawn) w := by
  have hlabel : idLabel a = some id := (Account.id?_eq_some.mp hid).1
  refine ends_bind (ends_attempt ((ends_applyAccount_stays hid w).mono
    (fun a' w' h => ends_pure h) fun w' h => ⟨fun e => ends_pure ⟨hlabel, h⟩, h⟩))

/-- A token names an id: it was signed from claims whose subject is the id, and whoever reads claims
from it reads that subject. -/
structure Names (id token : String) : Prop where
  signed : ∃ (claims : Claims.AccountClaims) (now : Int) (operator : Key.Pair),
    claims.subject = id ∧ claims.sign now operator = .ok token
  read : ∀ claims, Claims.decodeAccount token = .ok claims → claims.subject = id

theorem names_of_signedFrom {keys : Keyring.AccountKeys} {token : String}
    (h : SignedFrom setting resolver a keys token) : Names keys.accountId token := by
  obtain ⟨claims, operator, hclaims, hsign⟩ := h
  have hsubject := (claimsOf_ok hclaims).1
  exact ⟨⟨claims, setting.now, operator, hsubject, hsign⟩, fun read hread =>
    (Claims.subject_of_decodeAccount hsign hread).trans hsubject⟩

/-- A call uploads no token but one that names an id. -/
def UploadsOnly (id : String) (call : Call) : Prop :=
  ∀ token, call = .upload token → Names id token

theorem calls_reconcileAccount_named (hid : a.id? = some id) (w : World σ (Fleet (Recorded κ))) :
    Fleet.Calls (UploadsOnly id) (reconcileAccount setting catalog a) w := by
  have hroutine : World.Routine (UploadsOnly id) := ⟨nofun, nofun⟩
  have hupload : ∀ keys token, a.plan = .create ∨ a.plan = .update ∧ a.id? = some keys.accountId →
      SignedFrom setting catalog.standing a keys token → UploadsOnly id (.upload token) := by
    intro keys token hkeys hsigned _ hsame
    obtain rfl := Call.upload.inj hsame
    obtain ⟨-, hkept⟩ := hkeys.resolve_left (plan_ne_create hid)
    obtain rfl : keys.accountId = id := Option.some.inj (hkept.symm.trans hid)
    exact names_of_signedFrom hsigned
  have happly : Fleet.Calls (UploadsOnly id) (applyAccount setting catalog a) w :=
    calls_applyAccount hroutine hupload (fun _ => nofun) fun _ _ _ => nofun
  exact ends_bind (ends_attempt (happly.mono (fun _ _ h => ends_pure h)
    fun _ h => ⟨fun _ => ends_pure h, h⟩))

/-! ## Any run of reconciles -/

/-- A reconcile of an account: what it is given and the world that it finds. -/
structure Visit (σ κ : Type) where
  setting : Setting
  catalog : Catalog
  account : Account
  world : World σ (Fleet (Recorded κ))

namespace Visit

def result (v : Visit σ κ) : EStateM.Result Halt (World σ (Fleet (Recorded κ)))
    (Except Error AccountAction × Account) :=
  reconcileAccount v.setting v.catalog v.account v.world

/-- The account afterwards; it is as it was if the reconcile never came to an end. -/
def after (v : Visit σ κ) : Account :=
  match v.result with
  | .ok (_, a) _ => a
  | .error _ _ => v.account

/-- The world afterwards. -/
def left (v : Visit σ κ) : World σ (Fleet (Recorded κ)) :=
  leaves v.result

/-- A reconcile leaves the id of its account alone: the label has the same value, no key is drawn
and no token that names another id is uploaded. -/
structure Keeps (v : Visit σ κ) (id : String) : Prop where
  label : idLabel v.after = some id
  drawn : v.left.drawn = v.world.drawn
  uploads : v.world.cluster.Since (UploadsOnly id) v.left.cluster

theorem keeps (v : Visit σ κ) (hlabel : idLabel v.account = some id) (hne : id ≠ "") :
    v.Keeps id := by
  have hid : v.account.id? = some id := Account.id?_eq_some.mpr ⟨hlabel, hne⟩
  have hstays := ends_reconcileAccount_stays v.setting v.catalog hid v.world
  refine ⟨?_, (hstays.mono (fun _ _ h => h.2) fun _ h => h).leaves,
    (calls_reconcileAccount_named hid v.world).leaves⟩
  unfold after
  cases hr : v.result with
  | ok p w' => exact (hstays.returned hr).1
  | error h w' => exact hlabel

end Visit

/-- Reconciles of one account, one after the other. Before each of them anything about the account
may be edited except the label of its id, and the storage, the clusters and whatever else is in the
world may have become anything. -/
inductive Visits : Account → List (Visit σ κ) → Account → Prop where
  | nil (a : Account) : Visits a [] a
  | cons {a : Account} {v : Visit σ κ} {vs : List (Visit σ κ)} {b : Account}
      (edited : idLabel v.account = idLabel a) (rest : Visits v.after vs b) : Visits a (v :: vs) b

/-- **The id of an account that carries one never changes**, whatever is done between its reconciles
to its specification, policy and deletion mark, to the storage and to the clusters. -/
theorem id_kept_of_visits {vs : List (Visit σ κ)} (hlabel : idLabel a = some id) (hne : id ≠ "")
    (run : Visits a vs b) : idLabel b = some id ∧ ∀ v ∈ vs, v.Keeps id := by
  induction run with
  | nil a => exact ⟨hlabel, fun _ hv => absurd hv List.not_mem_nil⟩
  | @cons a v vs b edited rest ih =>
    have hkeeps := v.keeps (edited.trans hlabel) hne
    obtain ⟨hlast, hall⟩ := ih hkeeps.label
    refine ⟨hlast, fun v' hv' => ?_⟩
    rcases List.mem_cons.mp hv' with rfl | hv'
    · exact hkeeps
    · exact hall v' hv'

/-! ## An account of the shop -/

/-- The shop's account is reconciled with its keys at hand. -/
def issuedVisit : Visit Secret.Table Agreeing where
  setting := shopSetting
  catalog := {}
  account := issuedOrders
  world := ⟨labelledShop, { default := { inner := {} } }, 2⟩

/-- Then it is marked for deletion, observed only from now on, and its keys have been taken away. -/
def markedVisit : Visit Secret.Table Agreeing where
  setting := shopSetting
  catalog := {}
  account := { issuedVisit.after with metadata := { issuedVisit.after.metadata with
    labels := issuedVisit.after.metadata.labels.insert Label.policy Label.observePolicy
    deletion := some ⟨0, 0⟩ } }
  world := { issuedVisit.left with secrets := shopWorld.secrets }

theorem visits_issuedOrders :
    Visits issuedOrders [issuedVisit, markedVisit] markedVisit.after := by
  have edited : idLabel markedVisit.account = idLabel issuedVisit.after :=
    Dict.get?_insert_of_ne _ _ (by decide)
  exact .cons rfl (.cons edited (.nil _))

theorem id_kept_of_visits_orders :
    Visits issuedOrders [issuedVisit, markedVisit] markedVisit.after ∧
      idLabel markedVisit.after = some ordersKeys.accountId ∧
      ∀ v ∈ [issuedVisit, markedVisit], v.Keeps ordersKeys.accountId := by
  obtain ⟨hlabel, hne⟩ := Account.id?_eq_some.mp id?_issuedOrders
  exact ⟨visits_issuedOrders, id_kept_of_visits hlabel hne visits_issuedOrders⟩

end CredentialEngine.Lifecycle
