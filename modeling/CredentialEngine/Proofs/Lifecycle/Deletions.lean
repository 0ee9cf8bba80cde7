import CredentialEngine.Proofs.Catalog
import CredentialEngine.Proofs.Lifecycle.KeyStability
import CredentialEngine.Proofs.Lifecycle.Runs
import CredentialEngine.Proofs.Manifest

/-!
# Accounts are deleted after their users

A run of the manifests of a directory asks a cluster to delete an account, or takes the manifest of
an account away that is not only observed, when every user of the account has been deleted earlier
in the run. The guard sees the catalog, so the argument is that the catalog lists every user that
has been declared until the user's own turn has deleted it.
-/
namespace CredentialEngine

open CredentialEngine.Action Cluster

/-- An account whose deletion the guard lets pass has no user that is listed. -/
theorem Catalog.not_lists_of_guard {c : Catalog} {a : Account} {u : User}
    (h : Lifecycle.guardDeletion c a = .ok ()) (hspace : u.metadata.space = a.metadata.space)
    (haccount : u.spec.accountName = a.metadata.name) : ¬ c.Lists u := by
  rintro ⟨u', hget, hspace', haccount'⟩
  have hmem : u' ∈ c.usersOf a.metadata.space a.metadata.name := by
    refine List.mem_filter.mpr ⟨List.mem_map.mpr ⟨_, Dict.mem_entries_of_get? hget, rfl⟩, ?_⟩
    rw [hspace', haccount', hspace, haccount, beq_self_eq_true, beq_self_eq_true]
    rfl
  rw [Lifecycle.guardDeletion] at h
  split at h
  · rename_i hnone
    rw [hnone] at hmem
    exact List.not_mem_nil hmem
  · contradiction

namespace Estate

/-! ## Users that are gone -/

section Users

variable {σ κ : Type} [Storage σ] [Filed σ] [Control κ]

/-- Among manifests that were run, one was reconciled with success and is gone. -/
def GoneAmong (setting : Setting) (e : Estate σ κ) (before : List Manifest) (m : Manifest) : Prop :=
  ∃ b₁ b₂ n e₂ r e₃, before = b₁ ++ m :: b₂ ∧ runManifests setting b₁ e = .ok n e₂ ∧
    runManifest setting m e₂ = .ok r e₃ ∧ r.isGone = true

variable {setting : Setting} {e e' : Estate σ κ} {m : Manifest} {ms : List Manifest}

/-- A run of another manifest leaves a user listed, and so does one of the user's own unless the
user is gone afterwards. -/
theorem lists_of_runManifest (hdistinct : Manifest.Distinct ms) (hm : m ∈ ms) {m' : Manifest}
    (hm' : m' ∈ ms) {u : User} (hu : m.resource = .user u) {r : Reconciled}
    (h : runManifest setting m' e = .ok r e') (hlists : e.catalog.Lists u)
    (hstays : m' = m → r.isGone = false) : e'.catalog.Lists u := by
  obtain ⟨hcatalog, hsame⟩ := ends_runManifest.returned h
  rw [hcatalog]
  by_cases he : m' = m
  · subst he
    rw [hu] at hsame
    obtain ⟨u', hu', hmeta, haccount⟩ := hsame.user
    rw [Reconciled.file, hstays rfl, hu']
    exact Catalog.lists_putUser hmeta.space hmeta.name haccount
  · refine hlists.file fun u' hu' => ?_
    -- the resource of another manifest has another key, before its reconcile and after it
    cases hr : m'.resource with
    | account a =>
      rw [hr, hu'] at hsame
      exact hsame.elim
    | user u₀ =>
      rw [hr] at hsame
      obtain ⟨u₁, hu₁, hmeta, -⟩ := hsame.user
      obtain rfl := Resource.user.inj (hu'.symm.trans hu₁)
      rw [Metadata.key, hmeta.space, hmeta.name]
      exact hdistinct.key_ne hm hm' he hu hr

/-- A user that is listed when manifests are run is listed afterwards, unless its own manifest was
among them and the user is gone. -/
theorem lists_or_gone (hdistinct : Manifest.Distinct ms) (hm : m ∈ ms) {u : User}
    (hu : m.resource = .user u) {before : List Manifest} (hbefore : ∀ m' ∈ before, m' ∈ ms)
    {n : Nat} (h : runManifests setting before e = .ok n e') (hlists : e.catalog.Lists u) :
    e'.catalog.Lists u ∨ GoneAmong setting e before m := by
  induction before generalizing e n with
  | nil =>
    obtain ⟨-, rfl⟩ := EStateM.Result.ok.inj h
    exact .inl hlists
  | cons m' before ih =>
    obtain ⟨r, e₁, n', hrun, hrest⟩ := of_runManifests_cons h
    by_cases hgone : m' = m ∧ r.isGone = true
    · obtain ⟨rfl, hgone⟩ := hgone
      exact .inr ⟨[], before, 0, e, r, e₁, rfl, rfl, hrun, hgone⟩
    · have hstays : m' = m → r.isGone = false :=
        fun he => Bool.eq_false_iff.mpr fun hg => hgone ⟨he, hg⟩
      have hlists' := lists_of_runManifest hdistinct hm (hbefore m' List.mem_cons_self) hu hrun
        hlists hstays
      rcases ih (fun x hx => hbefore x (List.mem_cons_of_mem _ hx)) hrest hlists' with
        hl | ⟨b₁, b₂, k, e₂, r', e₃, rfl, hb, hrun', hg⟩
      · exact .inl hl
      · obtain ⟨k', hb'⟩ := runManifests_cons hrun hb
        exact .inr ⟨m' :: b₁, b₂, k', e₂, r', e₃, rfl, hb', hrun', hg⟩

end Users

/-! ## The guard -/

section Guard

variable {σ κ : Type} [Storage σ] [Filed σ] [Control κ] {setting : Setting}
  {e : Estate σ (Recorded κ)} {m : Manifest}

/-- In its turn the manifest of an account that is not only observed is taken away. -/
def TakesAway (setting : Setting) (m : Manifest) (e : Estate σ (Recorded κ)) : Prop :=
  ∃ a r e', m.resource = .account a ∧ a.isObserveOnly = false ∧
    reconcile setting m.resource e = .ok r e' ∧ r.isGone = true

/-- Who asks a cluster to delete an account has passed the guard. -/
theorem guard_of_submits (h : Submits setting m e) :
    ∃ a, m.resource = .account a ∧ Lifecycle.guardDeletion e.catalog a = .ok () := by
  by_contra hnone
  have hcalls : Calls (fun call => ∀ token, call ≠ .delete token) (runManifest setting m) e := by
    refine calls_runManifest ⟨fun _ => nofun, nofun⟩ (fun _ => nofun) (fun _ => nofun) ?_
    intro a ha _ hguard
    exact absurd ⟨a, ha, hguard⟩ hnone
  exact Fleet.not_submitted_of_since hcalls.leaves h

omit [Filed σ] in
/-- An account that is not only observed is gone after its turn only if it has passed the guard. -/
theorem guard_of_takesAway (h : TakesAway setting m e) :
    ∃ a, m.resource = .account a ∧ Lifecycle.guardDeletion e.catalog a = .ok () := by
  obtain ⟨a, r, e', ha, hobserve, hrun, hgone⟩ := h
  refine ⟨a, ha, ?_⟩
  obtain ⟨-, hsame, hguard⟩ := (ends_reconcile m.resource).returned hrun
  rw [Reconciled.isGone, Bool.and_eq_true, Option.isNone_iff_eq_none] at hgone
  obtain ⟨hok, hdeleting⟩ := hgone
  have hplan : a.plan = .delete := by
    have hmark : a.metadata.isDeleting = true := by
      rw [Metadata.isDeleting, hsame.metadata.deletion, ha] at hdeleting
      exact hdeleting
    rw [Account.plan, hmark, hobserve]
    rfl
  exact hguard a ha hplan hok

end Guard

/-! ## Whole runs -/

section Directories

variable {σ κ : Type} [Storage σ] [Filed σ] [Control κ]

/-- Earlier in a run a user that is marked for deletion had its turn, was deleted with success and
is gone. -/
structure DeletedBefore (setting : Setting) (d : Directory) (defaults : Manifest.Defaults)
    (e : Estate σ κ) (ms before : List Manifest) (m : Manifest) (u : User) : Prop where
  marked : u.metadata.isDeleting = true
  earlier : ∃ b₁ b₂ e₁ r e₂, before = b₁ ++ m :: b₂ ∧ Turn setting d defaults e ms b₁ m e₁ ∧
    runManifest setting m e₁ = .ok r e₂ ∧ r.isGone = true

variable {setting : Setting} {d : Directory} {defaults : Manifest.Defaults}
  {ms before : List Manifest} {m m' : Manifest}

/-- A user that is gone among those run before a turn was deleted before it. -/
theorem deletedBefore_of_gone {e e' : Estate σ κ} (hturn : Turn setting d defaults e ms before m e')
    {u : User} (hu : m'.resource = .user u)
    (h : GoneAmong setting (declared ms e) before m') :
    DeletedBefore setting d defaults e ms before m' u := by
  obtain ⟨b₁, b₂, n, e₁, r, e₂, rfl, hreached, hrun, hgone⟩ := h
  obtain ⟨after, horder⟩ := hturn.order
  constructor
  · have hsame := (ends_runManifest.returned hrun).2.metadata
    rw [Reconciled.isGone, Bool.and_eq_true] at hgone
    have hmark := hgone.2
    rw [Metadata.isDeleting, hsame.deletion, hu] at hmark
    exact hmark
  · refine ⟨b₁, b₂, e₁, r, e₂, rfl, ⟨hturn.loaded, ⟨b₂ ++ m :: after, ?_⟩, n, hreached⟩, hrun,
      hgone⟩
    rw [horder, List.append_assoc, List.cons_append]

/-- When the guard lets an account pass in its turn, all its users have been deleted before. -/
theorem deletedBefore_of_guard {e e' : Estate σ κ} (hdistinct : Manifest.Distinct ms)
    (hturn : Turn setting d defaults e ms before m e') {a : Account}
    (hguard : Lifecycle.guardDeletion e'.catalog a = .ok ()) (hm' : m' ∈ ms) {u : User}
    (hu : m'.resource = .user u) (hspace : u.metadata.space = a.metadata.space)
    (haccount : u.spec.accountName = a.metadata.name) :
    DeletedBefore setting d defaults e ms before m' u := by
  obtain ⟨after, horder⟩ := hturn.order
  obtain ⟨n, hreached⟩ := hturn.reached
  have hbefore : ∀ x ∈ before, x ∈ ms := by
    intro x hx
    refine Manifest.mem_inOrder ?_
    rw [horder]
    exact List.mem_append_left _ hx
  have hlists : (declared ms e).catalog.Lists u :=
    Catalog.lists_foldl_put hdistinct e.catalog hm' hu
  rcases lists_or_gone hdistinct hm' hu hbefore hreached hlists with hlisted | hgone
  · exact absurd hlisted (Catalog.not_lists_of_guard hguard hspace haccount)
  · exact deletedBefore_of_gone hturn hu hgone

/-- Whatever the storage, the clusters and the manifests of a directory, as long as no two of one
kind have the same key: what a run asks of clusters it asks in turns of its manifests, and where one
has a cluster asked to delete an account, or is taken away for an account that is not only observed,
it is the manifest of an account all of whose declared users have been deleted earlier. -/
theorem deleted_after_users (setting : Setting) (d : Directory) (defaults : Manifest.Defaults)
    (e : Estate σ (Recorded κ))
    (hdistinct : ∀ ms, Manifest.loadAll e.files d defaults = .ok ms → Manifest.Distinct ms) :
    (Fleet.Submitted e.world.cluster (leaves (runDirectory setting d defaults e)).world.cluster →
      ∃ ms before m e', Turn setting d defaults e ms before m e' ∧ Submits setting m e') ∧
    ∀ ms before m e', Turn setting d defaults e ms before m e' →
      Submits setting m e' ∨ TakesAway setting m e' →
        ∃ a, m.resource = .account a ∧ ∀ m' ∈ ms, ∀ u, m'.resource = .user u →
          u.metadata.space = a.metadata.space → u.spec.accountName = a.metadata.name →
            DeletedBefore setting d defaults e ms before m' u := by
  constructor
  · intro h
    cases hload : Manifest.loadAll e.files d defaults with
    | error error =>
      have hstays : leaves (runDirectory setting d defaults e) = e := by
        unfold runDirectory
        change leaves (EStateM.bind (Action.ofExcept (Manifest.loadAll e.files d defaults)) _ e) = _
        rw [hload]
        rfl
      rw [hstays] at h
      exact absurd h (Fleet.not_submitted_of_since (.refl _))
    | ok ms =>
      rw [runDirectory_of_loaded hload] at h
      obtain ⟨before, m, after, n, e', horder, hreached, hsubmits⟩ := exists_submits
        (e := declared ms e) h
      exact ⟨ms, before, m, e', ⟨hload, ⟨after, horder⟩, n, hreached⟩, hsubmits⟩
  · intro ms before m e' hturn hdeletes
    have hguard : ∃ a, m.resource = .account a ∧
        Lifecycle.guardDeletion e'.catalog a = .ok () := by
      rcases hdeletes with hsubmits | htakes
      · exact guard_of_submits hsubmits
      · exact guard_of_takesAway htakes
    obtain ⟨a, ha, hpassed⟩ := hguard
    refine ⟨a, ha, fun m' hm' u hu hspace haccount => ?_⟩
    exact deletedBefore_of_guard (hdistinct ms hturn.loaded) hturn hpassed hm' hu hspace haccount

end Directories

/-! ## A shop that closes -/

section Closing

open Lifecycle Secret

/-- The files of a shop whose account and user are marked for deletion. -/
def closingFiles : FileTree where
  nodes := [
    (["shop"], .dir),
    (["shop", "alice.yaml"], .file (Key.textBytes ("kind: User\nmetadata:\n  name: alice\n" ++
      "  deletionTimestamp: 1970-01-01T00:00:00Z\nspec:\n  accountName: orders\n"))
      FileTree.ordinaryMode),
    (["shop", "orders.yaml"], .file (Key.textBytes ("kind: Account\nmetadata:\n" ++
      "  name: orders\n  deletionTimestamp: 1970-01-01T00:00:00Z\n")) FileTree.ordinaryMode)]

def closingDirectory : Directory := ⟨"shop", ["shop"]⟩

def closingDefaults : Manifest.Defaults := ⟨"shop", fun _ => "1"⟩

def leavingUser : User where
  metadata := { name := "alice", space := "shop", uid := "1", deletion := some ⟨0, 0⟩ }
  spec := { accountName := "orders" }

def closedAccount : Account where
  metadata := { name := "orders", space := "shop", uid := "1", deletion := some ⟨0, 0⟩ }

def leavingManifest : Manifest := ⟨["shop", "alice.yaml"], .user leavingUser⟩

def closedManifest : Manifest := ⟨["shop", "orders.yaml"], .account closedAccount⟩

def closingShop : Estate (Beside Table) (Recorded Agreeing) where
  world := {
    secrets := { secrets := {}, files := closingFiles }
    cluster := { default := { inner := {} } } }

theorem load_leaving :
    Manifest.load closingFiles closingDirectory closingDefaults 0 "alice.yaml" =
      .ok leavingManifest := by
  decide +kernel

theorem load_closed :
    Manifest.load closingFiles closingDirectory closingDefaults 1 "orders.yaml" =
      .ok closedManifest := by
  decide +kernel

/-- What is loaded is known, so its keys tell whether all that is loaded is distinct. -/
theorem distinct_of_loaded {t : FileTree} {d : Directory} {defaults : Manifest.Defaults}
    {ms ms' : List Manifest} (hload : Manifest.loadAll t d defaults = .ok ms)
    (hkeys : (ms.map Manifest.identity).Nodup) (hload' : Manifest.loadAll t d defaults = .ok ms') :
    Manifest.Distinct ms' := by
  obtain rfl := Except.ok.inj (hload.symm.trans hload')
  exact hkeys

theorem loadAll_closing : Manifest.loadAll closingShop.files closingDirectory closingDefaults =
    .ok [leavingManifest, closedManifest] :=
  Manifest.loadAll_of_two rfl (by decide) rfl rfl load_leaving load_closed

/-! ## An account that has an id -/

/-- The same shop, where the account has been issued. -/
def issuedFiles : FileTree where
  nodes := closingFiles.nodes.take 2 ++ [
    (["shop", "orders.yaml"], .file (Key.textBytes ("kind: Account\nmetadata:\n" ++
      "  name: orders\n  deletionTimestamp: 1970-01-01T00:00:00Z\n" ++
      "  labels:\n    account.nauth.io/id: AORDERS\n")) FileTree.ordinaryMode)]

def revokedAccount : Account where
  metadata := { closedAccount.metadata with
    labels := Keyring.labels [(Label.accountId, "AORDERS")] }

def revokedManifest : Manifest := ⟨["shop", "orders.yaml"], .account revokedAccount⟩

/-- Now the operator's key is at hand, for a request to delete the account has to be signed. -/
def issuedShop : Estate (Beside Table) (Recorded Agreeing) where
  world := {
    secrets := { secrets := shopWorld.secrets, files := issuedFiles }
    cluster := { default := { inner := {} } } }

theorem loadAll_issued : Manifest.loadAll issuedShop.files closingDirectory closingDefaults =
    .ok [leavingManifest, revokedManifest] := by
  have hload : Manifest.load issuedFiles closingDirectory closingDefaults 0 "alice.yaml" =
      .ok leavingManifest := by
    decide +kernel
  have hload' : Manifest.load issuedFiles closingDirectory closingDefaults 1 "orders.yaml" =
      .ok revokedManifest := by
    decide +kernel
  exact Manifest.loadAll_of_two rfl (by decide) rfl rfl hload hload'

/-- With the operator's key at hand, the cluster is asked to delete the account. -/
theorem revokeAccount_revoked {w : World (Beside Table) (Recorded Agreeing)}
    (h : HoldsOperator w.secrets.secrets) :
    ∃ token w', revokeAccount shopSetting revokedAccount w = .ok () w' ∧
      w'.cluster.calls = w.cluster.calls ++ [.connect "nauth", .delete token, .disconnect] := by
  have hlist : Storage.list "nauth"
      (Keyring.labels [(Label.secretRole, Role.operatorSigning.text)]) w.secrets =
        .ok [operatorRecord] w.secrets := by
    change onPart Beside.secrets (fun s b => { b with secrets := s })
      (Storage.list _ _ : Action Table _) _ = _
    rw [onPart, h.list]
  have hread : World.onSecrets (Keyring.operatorKey "nauth") w = .ok shopOperator w := by
    rw [World.onSecrets, onPart, operatorKey_of_list hlist]
  have hid : revokedAccount.id? = some "AORDERS" := by decide
  obtain ⟨token, htoken⟩ : ∃ token, Claims.encode 0 shopOperator
      (deletionClaims shopOperator "AORDERS") = .ok token := ⟨_, rfl⟩
  have hsigned : ofClaims (Claims.encode 0 shopOperator (deletionClaims shopOperator "AORDERS")) w =
      .ok token w := by
    rw [htoken]
    rfl
  have hrevoke : ∃ w', revokeAccount shopSetting revokedAccount w = .ok () w' ∧
      w'.cluster.calls =
        ((w.cluster.calls ++ [.connect "nauth"]) ++ [.delete token]) ++ [.disconnect] := by
    unfold revokeAccount
    rw [hid]
    exact ⟨_, (bind_of_ok hread).trans ((bind_of_ok hsigned).trans rfl), rfl⟩
  obtain ⟨w', hrevoke, hcalls⟩ := hrevoke
  refine ⟨token, w', hrevoke, ?_⟩
  rw [hcalls]
  simp only [List.append_assoc, List.cons_append, List.nil_append]

/-- In its turn the manifest of the account has the cluster asked to delete it, and is taken
away. -/
theorem submits_revoked {e : Estate (Beside Table) (Recorded Agreeing)}
    (hs : HoldsOperator e.world.secrets.secrets)
    (hguard : guardDeletion e.catalog revokedAccount = .ok ()) :
    Submits shopSetting revokedManifest e ∧ TakesAway shopSetting revokedManifest e := by
  obtain ⟨token, w', hrevoke, hcalls⟩ := revokeAccount_revoked
    (w := ⟨e.world.secrets, e.world.cluster.default, e.world.drawn⟩) hs
  have hrun := reconcile_of_account (e := e)
    (reconcileAccount_of_revoked (by decide) rfl hguard hrevoke)
  refine ⟨⟨.default, e.world.cluster.default, w'.cluster, _, token, rfl, ?_, hcalls, by simp⟩,
    revokedAccount, _, _, rfl, by decide, hrun, rfl⟩
  rw [cluster_leaves_runManifest hrun]
  rfl

/-- When the shop closes, its user is deleted before the manifest of its account is taken away, and
before the cluster is asked to delete the account, if that has an id. -/
theorem deleted_after_users_closing :
    (∃ e', Turn shopSetting closingDirectory closingDefaults closingShop
        [leavingManifest, closedManifest] [leavingManifest] closedManifest e' ∧
      TakesAway shopSetting closedManifest e' ∧
      DeletedBefore shopSetting closingDirectory closingDefaults closingShop
        [leavingManifest, closedManifest] [leavingManifest] leavingManifest leavingUser) ∧
    ∃ e', Turn shopSetting closingDirectory closingDefaults issuedShop
        [leavingManifest, revokedManifest] [leavingManifest] revokedManifest e' ∧
      Submits shopSetting revokedManifest e' ∧ TakesAway shopSetting revokedManifest e' ∧
      DeletedBefore shopSetting closingDirectory closingDefaults issuedShop
        [leavingManifest, revokedManifest] [leavingManifest] leavingManifest leavingUser := by
  constructor
  · obtain ⟨e', hturn, htakes⟩ : ∃ e', Turn shopSetting closingDirectory closingDefaults closingShop
        [leavingManifest, closedManifest] [leavingManifest] closedManifest e' ∧
          TakesAway shopSetting closedManifest e' :=
      ⟨_, ⟨loadAll_closing, ⟨[], rfl⟩, _, rfl⟩, closedAccount, _, _, rfl, by decide, rfl, rfl⟩
    obtain ⟨a, ha, hdeleted⟩ := (deleted_after_users shopSetting closingDirectory closingDefaults
      closingShop fun _ => distinct_of_loaded loadAll_closing (by decide)).2 _ _ _ e' hturn
        (.inr htakes)
    obtain rfl := Resource.account.inj ha
    exact ⟨e', hturn, htakes, hdeleted leavingManifest List.mem_cons_self leavingUser rfl rfl rfl⟩
  · obtain ⟨e', hreached, hs, hguard⟩ : ∃ e', runManifests shopSetting [leavingManifest]
        (declared [leavingManifest, revokedManifest] issuedShop) = .ok 0 e' ∧
          e'.world.secrets.secrets = shopWorld.secrets ∧
          guardDeletion e'.catalog revokedAccount = .ok () := ⟨_, rfl, rfl, rfl⟩
    have hturn : Turn shopSetting closingDirectory closingDefaults issuedShop
        [leavingManifest, revokedManifest] [leavingManifest] revokedManifest e' :=
      ⟨loadAll_issued, ⟨[], rfl⟩, 0, hreached⟩
    obtain ⟨hsubmits, htakes⟩ := submits_revoked (hs ▸ holdsOperator_shop) hguard
    obtain ⟨a, ha, hdeleted⟩ := (deleted_after_users shopSetting closingDirectory closingDefaults
      issuedShop fun _ => distinct_of_loaded loadAll_issued (by decide)).2 _ _ _ e' hturn
        (.inl hsubmits)
    obtain rfl := Resource.account.inj ha
    exact ⟨e', hturn, hsubmits, htakes,
      hdeleted leavingManifest List.mem_cons_self leavingUser rfl rfl rfl⟩

end Closing

end Estate

end CredentialEngine
