import CredentialEngine.Lifecycle.Manifests
import CredentialEngine.Proofs.Lifecycle.Calls
import Mathlib.Tactic.ByContra

/-!
# Runs of manifests

A run of the manifests of a directory goes from turn to turn. In its turn a manifest keeps the
identity of its resource and files what has become of it, and whatever is asked of clusters in a run
is asked in one of its turns.
-/
namespace CredentialEngine

open CredentialEngine.Action Cluster

/-! ## What a reconcile keeps of its resource -/

namespace Lifecycle

/-- The name, the namespace and the mark of deletion have not changed. -/
structure SameMetadata (m m' : Metadata) : Prop where
  space : m'.space = m.space
  name : m'.name = m.name
  deletion : m'.deletion = m.deletion

theorem SameMetadata.refl (m : Metadata) : SameMetadata m m := ⟨rfl, rfl, rfl⟩

theorem SameMetadata.isDeleting {m m' : Metadata} (h : SameMetadata m m') :
    m'.isDeleting = m.isDeleting := by
  rw [Metadata.isDeleting, Metadata.isDeleting, h.deletion]

/-- A resource is the same but for its labels and its status. -/
def SameResource : Resource → Resource → Prop
  | .account a, .account a' => SameMetadata a.metadata a'.metadata
  | .user u, .user u' =>
    SameMetadata u.metadata u'.metadata ∧ u'.spec.accountName = u.spec.accountName
  | _, _ => False

theorem SameResource.metadata {x x' : Resource} (h : SameResource x x') :
    SameMetadata x.metadata x'.metadata := by
  cases x with
  | account a =>
    cases x' with
    | account a' => exact h
    | user u' => exact h.elim
  | user u =>
    cases x' with
    | account a' => exact h.elim
    | user u' => exact h.1

theorem SameResource.user {u : User} {x' : Resource} (h : SameResource (.user u) x') :
    ∃ u', x' = .user u' ∧ SameMetadata u.metadata u'.metadata ∧
      u'.spec.accountName = u.spec.accountName := by
  cases x' with
  | account a' => exact h.elim
  | user u' => exact ⟨u', rfl, h⟩

variable {σ κ : Type} [Storage σ] [Control κ] {setting : Setting} {catalog : Catalog}
  {w : World σ (Fleet κ)}

/-- An account keeps its identity, and if it was deleted then the guard has let it pass. -/
theorem ends_applyAccount_same {a : Account} :
    Ends (applyAccount setting catalog a)
      (fun a' _ => SameMetadata a.metadata a'.metadata ∧
        (a.plan = .delete → guardDeletion catalog a = .ok ())) (fun _ => True) w := by
  have hrecorded : ∀ {act : Action (World σ κ) AccountOutcome}
      {Q : Account → World σ (Fleet κ) → Prop}, (∀ o w', Q (recordAccount setting a o) w') →
      Ends (do
        let o ← bounded a.metadata.key (Fleet.on (← route a) act)
        return recordAccount setting a o) Q (fun _ => True) w :=
    fun h => ends_routed (fun _ => ends_any h fun _ => trivial) trivial
  unfold applyAccount
  cases hplan : a.plan with
  | release => exact ends_pure ⟨.refl _, nofun⟩
  | delete =>
    refine ends_bind (ends_route (fun r => ?_) trivial)
    refine ends_bind (ends_ofExcept (fun _ hguard => ?_) trivial)
    exact ends_bind (ends_any (fun _ _ => ends_pure ⟨.refl _, fun _ => hguard⟩) fun _ => trivial)
  | create => exact hrecorded fun o w' => ⟨⟨rfl, rfl, rfl⟩, nofun⟩
  | update => exact hrecorded fun o w' => ⟨⟨rfl, rfl, rfl⟩, nofun⟩
  | observe => exact hrecorded fun o w' => ⟨⟨rfl, rfl, rfl⟩, nofun⟩

omit [Control κ] in
theorem ends_applyUser_same {u : User} :
    Ends (applyUser setting catalog u)
      (fun u' _ => SameMetadata u.metadata u'.metadata ∧
        u'.spec.accountName = u.spec.accountName) (fun _ => True) w := by
  unfold applyUser
  cases u.plan with
  | delete =>
    have hafter : ∀ r w', Ends (do
        bounded u.metadata.key (Fleet.on r (withdrawUser u : Action (World σ κ) Unit))
        return u) (fun u' _ => SameMetadata u.metadata u'.metadata ∧
          u'.spec.accountName = u.spec.accountName) (fun _ => True) w' :=
      fun r w' => ends_bind (ends_any (fun _ _ => ends_pure ⟨.refl _, rfl⟩) fun _ => trivial)
    cases catalog.account? u.metadata.space u.spec.accountName with
    | none => exact ends_bind (ends_pure (hafter .default w))
    | some a => exact ends_bind (ends_any (fun r w' => hafter r w') fun _ => trivial)
  | issue =>
    cases catalog.account? u.metadata.space u.spec.accountName with
    | none => exact ends_fail trivial
    | some a =>
      refine ends_bind (ends_any (fun r w' => ?_) fun _ => trivial)
      exact ends_bind (ends_any (fun o w'' => ends_pure ⟨⟨rfl, rfl, rfl⟩, rfl⟩) fun _ => trivial)

/-- A reconciled resource keeps its identity. An account that was deleted with success had no users
in the catalog. -/
theorem ends_reconcile_same (x : Resource) :
    Ends (reconcile setting catalog x)
      (fun r _ => SameResource x r.resource ∧ ∀ a, x = .account a → a.plan = .delete →
        r.failure? = none → guardDeletion catalog a = .ok ()) (fun _ => True) w := by
  cases x with
  | account a =>
    have happly : Ends (reconcileAccount setting catalog a)
        (fun p _ => SameMetadata a.metadata p.2.metadata ∧
          ∀ act, p.1 = .ok act → a.plan = .delete → guardDeletion catalog a = .ok ())
        (fun _ => True) w :=
      ends_bind (ends_attempt (ends_applyAccount_same.mono
        (fun a' _ h => ends_pure ⟨h.1, fun _ _ => h.2⟩)
        fun _ _ => ⟨fun e => ends_pure ⟨⟨rfl, rfl, rfl⟩, nofun⟩, trivial⟩))
    refine ends_bind (happly.mono (fun p _ h => ends_pure ⟨h.1, ?_⟩) fun _ h => h)
    intro a' ha hplan hok
    obtain rfl := Resource.account.inj ha
    obtain ⟨outcome, a'⟩ := p
    cases outcome with
    | ok act => exact h.2 act rfl hplan
    | error e => contradiction
  | user u =>
    have happly : Ends (reconcileUser setting catalog u)
        (fun p _ => SameMetadata u.metadata p.2.metadata ∧
          p.2.spec.accountName = u.spec.accountName) (fun _ => True) w :=
      ends_bind (ends_attempt (ends_applyUser_same.mono (fun u' _ h => ends_pure h)
        fun _ _ => ⟨fun e => ends_pure ⟨⟨rfl, rfl, rfl⟩, rfl⟩, trivial⟩))
    refine ends_bind (happly.mono (fun p _ h => ends_pure ⟨h, fun a ha => ?_⟩) fun _ h => h)
    contradiction

end Lifecycle

/-! ## Turns -/

namespace Estate

section Turns

variable {σ κ : Type} [Storage σ] [Filed σ] [Control κ]

/-- An estate with manifests declared in it. -/
def declared (ms : List Manifest) (e : Estate σ κ) : Estate σ κ :=
  { e with catalog := ms.foldl (fun c m => c.put m.resource) e.catalog }

/-- A run of the manifests of a directory comes to the turn of one of them, when those before it in
order have been run. -/
structure Turn (setting : Setting) (d : Directory) (defaults : Manifest.Defaults) (e : Estate σ κ)
    (ms before : List Manifest) (m : Manifest) (e' : Estate σ κ) : Prop where
  loaded : Manifest.loadAll e.files d defaults = .ok ms
  order : ∃ after, Manifest.inOrder ms = before ++ m :: after
  reached : ∃ n, runManifests setting before (declared ms e) = .ok n e'

variable {setting : Setting} {e e' : Estate σ κ} {m : Manifest} {ms : List Manifest}

omit [Storage σ] [Control κ] in
theorem ends_changeFiles {f : FileTree → Except FileFault FileTree} :
    Ends (changeFiles f) (fun _ e' => e'.catalog = e.catalog ∧ e'.world.cluster = e.world.cluster)
      (fun e' => e'.catalog = e.catalog ∧ e'.world.cluster = e.world.cluster) e := by
  unfold Ends
  rw [changeFiles]
  cases f e.files with
  | ok t => exact ⟨rfl, rfl⟩
  | error fault => exact ⟨rfl, rfl⟩

omit [Filed σ] in
/-- What became of a resource is filed, and it is the same resource. An account that was deleted
with success had no users in the catalog. -/
theorem ends_reconcile (x : Resource) :
    Ends (reconcile setting x)
      (fun r e' => e'.catalog = r.file e.catalog ∧ Lifecycle.SameResource x r.resource ∧
        ∀ a, x = .account a → a.plan = .delete → r.failure? = none →
          Lifecycle.guardDeletion e.catalog a = .ok ()) (fun _ => True) e := by
  refine ends_bind (ends_ok rfl (ends_bind (ends_onPart ?_)))
  refine (Lifecycle.ends_reconcile_same x).mono (fun r w' h => ?_) fun _ _ => trivial
  exact ends_bind (ends_ok rfl (ends_pure ⟨rfl, h⟩))

/-- A manifest that was run has filed what became of its resource, which is the same resource. -/
theorem ends_runManifest :
    Ends (runManifest setting m)
      (fun r e' => e'.catalog = r.file e.catalog ∧ Lifecycle.SameResource m.resource r.resource)
      (fun _ => True) e := by
  refine ends_bind ((ends_reconcile m.resource).mono (fun r e₁ h => ?_) fun _ _ => trivial)
  refine ends_bind (ends_changeFiles.mono (fun _ e' h' => ends_pure ?_) fun _ _ => trivial)
  exact ⟨h'.1.trans h.1, h.2.1⟩

omit [Filed σ] in
/-- What became of an account in the world is filed in the catalog. -/
theorem reconcile_of_account {a a' : Account} {act : AccountAction}
    {w' : World σ (Fleet κ)}
    (h : Lifecycle.reconcileAccount setting e.catalog a e.world = .ok (.ok act, a') w') :
    reconcile setting (.account a) e =
      .ok ⟨.account a', none⟩
        { e with world := w', catalog := (⟨.account a', none⟩ : Reconciled).file e.catalog } := by
  have hresource : Lifecycle.reconcile setting e.catalog (.account a) e.world =
      .ok ⟨.account a', none⟩ w' := (bind_of_ok h).trans rfl
  have hworld : onWorld (Lifecycle.reconcile setting e.catalog (.account a)) e =
      .ok ⟨.account a', none⟩ { e with world := w' } := by
    rw [onWorld, onPart, hresource]
  exact (bind_of_ok hworld).trans rfl

/-- A manifest that is run leaves the clusters as the reconcile of its resource did. -/
theorem cluster_leaves_runManifest {r : Reconciled} {e₁ : Estate σ κ}
    (h : reconcile setting m.resource e = .ok r e₁) :
    (leaves (runManifest setting m e)).world.cluster = e₁.world.cluster := by
  refine Ends.leaves (P := fun e' : Estate σ κ => e'.world.cluster = e₁.world.cluster) ?_
  refine ends_bind (ends_ok h (ends_bind ?_))
  exact ends_changeFiles.mono (fun _ _ h' => ends_pure h'.2) fun _ h' => h'.2

theorem runManifests_cons {r : Reconciled} {n : Nat} {e₁ : Estate σ κ}
    (hm : runManifest setting m e = .ok r e₁) (hms : runManifests setting ms e₁ = .ok n e') :
    ∃ n', runManifests setting (m :: ms) e = .ok n' e' := by
  refine ⟨if r.failure?.isSome then n + 1 else n, ?_⟩
  refine (bind_of_ok hm).trans ?_
  refine (bind_of_ok hms).trans ?_
  rfl

theorem of_runManifests_cons {n : Nat} (h : runManifests setting (m :: ms) e = .ok n e') :
    ∃ r e₁ n', runManifest setting m e = .ok r e₁ ∧ runManifests setting ms e₁ = .ok n' e' := by
  obtain ⟨r, e₁, hm, h⟩ := of_bind_ok h
  obtain ⟨n', e₂, hms, h⟩ := of_bind_ok h
  obtain ⟨-, rfl⟩ := EStateM.Result.ok.inj h
  exact ⟨r, e₁, n', hm, hms⟩

theorem runDirectory_of_loaded {d : Directory} {defaults : Manifest.Defaults}
    (h : Manifest.loadAll e.files d defaults = .ok ms) :
    runDirectory setting d defaults e =
      runManifests setting (Manifest.inOrder ms) (declared ms e) := by
  unfold runDirectory
  change EStateM.bind (Action.ofExcept (Manifest.loadAll e.files d defaults)) _ e = _
  rw [h]
  rfl

end Turns

/-! ## Calls in a run -/

section Calls

variable {σ κ : Type} [Storage σ] [Filed σ] [Control κ] {P : Call → Prop} {setting : Setting}
  {e : Estate σ (Recorded κ)} {m : Manifest}

/-- Where an operation on an estate ends, it has made only calls of a kind. -/
def Calls {α : Type} (P : Call → Prop) (act : Action (Estate σ (Recorded κ)) α)
    (e : Estate σ (Recorded κ)) : Prop :=
  Ends act (fun _ e' => Fleet.Since P e.world.cluster e'.world.cluster)
    (fun e' => Fleet.Since P e.world.cluster e'.world.cluster) e

omit [Storage σ] [Filed σ] [Control κ] in
theorem Calls.leaves {α : Type} {act : Action (Estate σ (Recorded κ)) α} (h : Calls P act e) :
    Fleet.Since P e.world.cluster (Action.leaves (act e)).world.cluster :=
  Ends.leaves (P := fun e' : Estate σ (Recorded κ) =>
    Fleet.Since P e.world.cluster e'.world.cluster) h

theorem calls_runManifest (hp : World.Routine P) (hupload : ∀ token, P (.upload token))
    (hlookup : ∀ id, P (.lookup id))
    (hdelete : ∀ a, m.resource = .account a → a.plan = .delete →
      Lifecycle.guardDeletion e.catalog a = .ok () → ∀ token, P (.delete token)) :
    Calls P (runManifest setting m) e := by
  refine ends_bind (ends_bind (ends_ok rfl (ends_bind (ends_onPart ?_))))
  refine (Lifecycle.calls_reconcile hp hupload hlookup hdelete).mono (fun r w' hs => ?_)
    fun _ hs => hs
  refine ends_bind (ends_ok rfl (ends_pure ?_))
  refine ends_bind (ends_changeFiles.mono (fun _ e' h => ends_pure ?_) fun e' h => ?_)
  · rw [h.2]
    exact hs
  · rw [h.2]
    exact hs

theorem calls_runManifest_any (m : Manifest) : Calls (fun _ => True) (runManifest setting m) e :=
  calls_runManifest ⟨fun _ => trivial, trivial⟩ (fun _ => trivial) (fun _ => trivial)
    fun _ _ _ _ _ => trivial

theorem calls_runManifests (ms : List Manifest) :
    Calls (fun _ => True) (runManifests setting ms) e := by
  induction ms generalizing e with
  | nil => exact ends_pure (.refl _)
  | cons m ms ih =>
    refine ends_bind ((calls_runManifest_any m).mono (fun r e₁ hs => ?_) fun _ hs => hs)
    exact ends_bind ((ih (e := e₁)).mono (fun _ _ hs' => ends_pure (hs.trans hs'))
      fun _ hs' => hs.trans hs')

/-- In its turn a manifest has a cluster asked to delete an account. -/
def Submits (setting : Setting) (m : Manifest) (e : Estate σ (Recorded κ)) : Prop :=
  Fleet.Submitted e.world.cluster (leaves (runManifest setting m e)).world.cluster

/-- What is asked of clusters in a run of manifests is asked in the turn of one of them. -/
theorem exists_submits {ms : List Manifest}
    (h : Fleet.Submitted e.world.cluster (leaves (runManifests setting ms e)).world.cluster) :
    ∃ before m after n e', ms = before ++ m :: after ∧
      runManifests setting before e = .ok n e' ∧ Submits setting m e' := by
  induction ms generalizing e with
  | nil => exact absurd h (Fleet.not_submitted_of_since (.refl _))
  | cons m ms ih =>
    by_cases hm : Submits setting m e
    · exact ⟨[], m, ms, 0, e, rfl, rfl, hm⟩
    · have hsince := Fleet.since_of_not_submitted (calls_runManifest_any m).leaves hm
      change Fleet.Submitted _ (leaves (EStateM.bind (runManifest setting m) _ e)).world.cluster at h
      rw [EStateM.bind] at h
      cases hrun : runManifest setting m e with
      | error halt e₁ =>
        rw [hrun] at h hsince
        exact absurd h (Fleet.not_submitted_of_since hsince)
      | ok r e₁ =>
        rw [hrun] at h hsince
        have hfinal : leaves ((do
            let failures ← runManifests setting ms
            return if r.failure?.isSome then failures + 1 else failures) e₁) =
              leaves (runManifests setting ms e₁) := by
          change leaves (EStateM.bind (runManifests setting ms) _ e₁) = _
          rw [EStateM.bind]
          cases runManifests setting ms e₁ <;> rfl
        rw [hfinal] at h
        have hlater : Fleet.Submitted e₁.world.cluster
            (leaves (runManifests setting ms e₁)).world.cluster := by
          by_contra hn
          have hsince' := Fleet.since_of_not_submitted (calls_runManifests ms).leaves hn
          exact Fleet.not_submitted_of_since (hsince.trans hsince') h
        obtain ⟨before, m', after, n, e', rfl, hbefore, hsubmits⟩ := ih hlater
        obtain ⟨n', hbefore'⟩ := runManifests_cons hrun hbefore
        exact ⟨m :: before, m', after, n', e', rfl, hbefore', hsubmits⟩

end Calls

end Estate

end CredentialEngine
