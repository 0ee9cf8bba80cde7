import CredentialEngine.Proofs.Lifecycle.Deletions
import CredentialEngine.Proofs.Lifecycle.Signers
import Mathlib.Logic.Relation

/-!
# Bundles that someone else made

A record at the name of a user's bundle that does not carry the mark of ownership is never written
over: however often the user is issued, it fails and the record stays as it was. Deleting the user
does not look at the mark. It removes whatever stands at the name, or fails and removes nothing.
-/
namespace CredentialEngine.Lifecycle

open Secret Keyring CredentialEngine.Action
open Estate (leavingUser)

section Withdrawals

variable {σ κ : Type} [Storage σ] {setting : Setting} {catalog : Catalog}
  {resolver : Claims.Resolver} {u : User} {t : Table} {r : Record}

/-! ## Issuing -/

/-- The storage shows a record at a location. -/
def Holds [LawfulStorage σ] (loc : Location) (r : Record) (s : σ) : Prop :=
  ∃ t, Shows s t ∧ t.find? loc = some r

section Issuing

variable [LawfulStorage σ]

theorem ends_issueUser_refused {w : World σ κ} (h : Holds (bundleLocation u) r w.secrets)
    (hm : r.isManaged = false) :
    Ends (issueUser setting resolver u) (fun _ _ => False)
      (fun w' => Holds (bundleLocation u) r w'.secrets) w := by
  obtain ⟨t, ht, hr⟩ := h
  have hspared : ∀ s : σ, Lawful.Adopting u.metadata.space u.spec.accountName t s →
      Holds (bundleLocation u) r s := by
    rintro s ⟨t', hs, hadopted⟩
    refine ⟨t', hs, ?_⟩
    rw [hadopted.apart _ fun role _ => bundleLocation_ne_fixed u _ _ role, hr]
  refine ends_bind (ends_within (ends_ofExcept (fun id _ => ?_) ⟨t, ht, hr⟩))
  refine ends_bind (World.ends_onSecrets ((Lawful.ends_accountKeys_sourced ht _ _ id).mono
    (fun keys s hloaded => ?_) hspared))
  obtain ⟨t', hs, hr'⟩ := hspared s hloaded.1
  refine ends_bind (World.ends_drawKey ?_)
  refine ends_bind (ends_ofClaims (fun claims _ => ?_) ⟨t', hs, hr'⟩)
  refine ends_bind (ends_ofClaims (fun token _ => ?_) ⟨t', hs, hr'⟩)
  refine ends_bind (ends_within (World.ends_onSecrets ?_))
  exact (Lawful.ends_put_unmanaged hs hr' hm _ _ _).mono (fun _ _ hfalse => hfalse.elim)
    fun s' hs' => ⟨t', hs', hr'⟩

variable {w w' : World σ (Fleet κ)}

/-- Reconciling a user that is to be issued fails and leaves the record. -/
theorem ends_reconcileUser_refused (hplan : u.plan = .issue)
    (h : Holds (bundleLocation u) r w.secrets) (hm : r.isManaged = false) :
    Ends (reconcileUser setting catalog u)
      (fun p w' => (∃ e, p.1 = .error e) ∧ Holds (bundleLocation u) r w'.secrets)
      (fun w' => Holds (bundleLocation u) r w'.secrets) w := by
  have happly : Ends (applyUser setting catalog u) (fun _ _ => False)
      (fun w' => Holds (bundleLocation u) r w'.secrets) w := by
    unfold applyUser
    rw [hplan]
    cases catalog.account? u.metadata.space u.spec.accountName with
    | none => exact ends_fail h
    | some a =>
      refine ends_routed (fun route => ?_) h
      exact Fleet.ends_on (Q := fun _ _ _ => False)
        (E := fun s _ => Holds (bundleLocation u) r s)
        (fun c => ends_issueUser_refused (w := ⟨w.secrets, c, w.drawn⟩) h hm) h
  exact ends_bind (ends_attempt (happly.mono (fun _ _ hfalse => hfalse.elim)
    fun _ hw' => ⟨fun e => ends_pure ⟨⟨e, rfl⟩, hw'⟩, hw'⟩))

/-- Some reconcile of a user with its bundle at a location issues it, and leaves a world. -/
def Issues (loc : Location) (w w' : World σ (Fleet κ)) : Prop :=
  ∃ setting catalog u, u.plan = .issue ∧ bundleLocation u = loc ∧
    w' = leaves (reconcileUser setting catalog u w)

/-- However often users with that bundle are issued, the record stays. -/
theorem holds_of_issues {loc : Location} (h : Relation.ReflTransGen (Issues loc) w w')
    (hw : Holds loc r w.secrets) (hm : r.isManaged = false) : Holds loc r w'.secrets := by
  induction h with
  | refl => exact hw
  | tail _ hstep ih =>
    obtain ⟨setting, catalog, u, hplan, rfl, rfl⟩ := hstep
    exact ((ends_reconcileUser_refused hplan ih hm).mono (fun _ _ hr => hr.2) fun _ hr => hr).leaves

end Issuing

/-! ## Deleting -/

variable [LawfulDeletion σ] {w : World σ (Fleet κ)}

/-- What a reconcile that is to delete a user has made of the secrets: it has succeeded, and there
is no record at the name of the bundle any more, or it has failed and nothing has changed. -/
def Withdrawn (u : User) (t : Table) (p : Except Error UserAction × User)
    (w' : World σ (Fleet κ)) : Prop :=
  p = (.ok .delete, u) ∧ Shows w'.secrets (t.keep fun r => r.location ≠ bundleLocation u) ∨
    (∃ e, p.1 = .error e) ∧ Shows w'.secrets t

theorem ends_reconcileUser_withdrawn (hplan : u.plan = .delete) (ht : Shows w.secrets t) :
    Ends (reconcileUser setting catalog u) (Withdrawn u t) (fun w' => Shows w'.secrets t) w := by
  have hafter : ∀ route, Ends (do
      bounded u.metadata.key (Fleet.on route (withdrawUser u : Action (World σ κ) Unit))
      return u) (fun u' w' => u' = u ∧
        Shows w'.secrets (t.keep fun r => r.location ≠ bundleLocation u))
      (fun w' => Shows w'.secrets t) w := by
    intro route
    refine ends_bind (ends_bounded ((Fleet.ends_on
      (Q := fun _ s _ => Shows s (t.keep fun r => r.location ≠ bundleLocation u))
      (E := fun s _ => Shows s t) (fun c => ?_) ht).mono (fun _ _ hs => ends_pure ⟨rfl, hs⟩)
        fun _ hs => hs))
    exact World.ends_onSecrets (Lawful.ends_remove ht _)
  have happly : Ends (applyUser setting catalog u) (fun u' w' => u' = u ∧
      Shows w'.secrets (t.keep fun r => r.location ≠ bundleLocation u))
      (fun w' => Shows w'.secrets t) w := by
    unfold applyUser
    rw [hplan]
    cases catalog.account? u.metadata.space u.spec.accountName with
    | none => exact ends_bind (ends_pure (hafter .default))
    | some a => exact ends_bind (ends_route hafter ht)
  refine ends_bind (ends_attempt (happly.mono ?_ fun _ hs => ⟨fun e => ?_, hs⟩))
  · rintro u' w' ⟨hu, hs⟩
    exact ends_pure (.inl ⟨by rw [hu, hplan], hs⟩)
  · exact ends_pure (.inr ⟨⟨e, rfl⟩, hs⟩)

/-- What becomes of a record without the mark of ownership at the name of a user's bundle, whatever
the storage and the directory. However often users with that bundle were issued, the record is there
as it was, and the next to be issued is refused. When the user is deleted with success, there is
nothing at the name any more and all else is as it was; when deleting it fails, the record is still
there. -/
theorem withdrawn_of_reconcileUser (setting : Setting) (catalog : Catalog) (u : User)
    {w₀ w : World σ (Fleet κ)} {r : Record} (hr : Holds (bundleLocation u) r w₀.secrets)
    (hm : r.isManaged = false) (h : Relation.ReflTransGen (Issues (bundleLocation u)) w₀ w) :
    ∃ t, Shows w.secrets t ∧ t.find? (bundleLocation u) = some r ∧
      (u.plan = .issue → ∀ act u' w', reconcileUser setting catalog u w ≠ .ok (.ok act, u') w') ∧
      (u.plan = .delete → Ends (reconcileUser setting catalog u) (Withdrawn u t)
        (fun w' => Shows w'.secrets t) w) := by
  obtain ⟨t, ht, hfind⟩ := holds_of_issues h hr hm
  refine ⟨t, ht, hfind, fun hplan act u' w' hok => ?_, fun hplan =>
    ends_reconcileUser_withdrawn hplan ht⟩
  obtain ⟨⟨e, he⟩, -⟩ := (ends_reconcileUser_refused hplan ⟨t, ht, hfind⟩ hm).returned hok
  exact nomatch he

end Withdrawals

/-! ## A bundle that was made by hand -/

section Runs

variable {κ : Type} {setting : Setting} {catalog : Catalog} {u : User} {a : Account}
  {w : World Table (Fleet κ)}

/-- On a table, a user of an account of the default cluster fails as its issuance does. -/
theorem reconcileUser_of_refused {e : Error} {w' : World Table κ} (hplan : u.plan = .issue)
    (ha : catalog.account? u.metadata.space u.spec.accountName = some a)
    (hcluster : a.spec.cluster = none)
    (h : issueUser setting catalog.standing u ⟨w.secrets, w.cluster.default, w.drawn⟩ =
      .error (.failed e) w') :
    reconcileUser setting catalog u w = .ok (.error e, failUser setting u e)
      ⟨w'.secrets, w.cluster.set w'.cluster .default, w'.drawn⟩ := by
  have hon : bounded u.metadata.key (Fleet.on .default (issueUser setting catalog.standing u)) w =
      .error (.failed e) ⟨w'.secrets, w.cluster.set w'.cluster .default, w'.drawn⟩ := by
    rw [bounded, Fleet.on]
    simp only [Fleet.at?, h]
  have happly : applyUser setting catalog u w =
      .error (.failed e) ⟨w'.secrets, w.cluster.set w'.cluster .default, w'.drawn⟩ := by
    unfold applyUser
    rw [hplan, ha]
    exact (bind_of_ok (route_default hcluster w)).trans (bind_of_error hon)
  refine (bind_of_ok (attempt_failed happly)).trans ?_
  rfl

/-- On a table, a user of an account of the default cluster is always deleted. -/
theorem reconcileUser_of_leaving (hplan : u.plan = .delete)
    (ha : catalog.account? u.metadata.space u.spec.accountName = some a)
    (hcluster : a.spec.cluster = none) :
    reconcileUser setting catalog u w = .ok (.ok .delete, u)
      ⟨w.secrets.keep fun r => r.location ≠ bundleLocation u,
        w.cluster.set w.cluster.default .default, w.drawn⟩ := by
  have hon : bounded u.metadata.key (Fleet.on .default (withdrawUser u)) w = .ok ()
      ⟨w.secrets.keep fun r => r.location ≠ bundleLocation u,
        w.cluster.set w.cluster.default .default, w.drawn⟩ := by
    rw [bounded, Fleet.on]
    simp only [Fleet.at?, withdrawUser, World.onSecrets, onPart, remove_eq]
  have happly : applyUser setting catalog u w = .ok u
      ⟨w.secrets.keep fun r => r.location ≠ bundleLocation u,
        w.cluster.set w.cluster.default .default, w.drawn⟩ := by
    unfold applyUser
    rw [hplan, ha]
    exact (bind_of_ok (route_default hcluster w)).trans (bind_of_ok hon)
  refine (bind_of_ok (attempt_ok happly)).trans ?_
  rw [hplan]
  rfl

end Runs

def handMade : Record where
  space := "shop"
  name := "alice-nats-user-creds"
  data := Dict.ofList [(bundleKey, "hand-made")]

/-- The shop with the keys of its account, where someone else keeps a record under the name of a
user's bundle. -/
def handMadeShop : World Table (Fleet Agreeing) where
  secrets := withFixed (Table.put {} handMade) "shop" "orders" ordersKeys
  cluster := { default := {} }
  drawn := 2

theorem holds_handMade : Holds (bundleLocation alice) handMade handMadeShop.secrets := by
  refine ⟨_, rfl, ?_⟩
  have hapart : ∀ role, (fixedRecord "shop" "orders" ordersKeys role).location ≠
      bundleLocation alice := fun role he =>
    fixedName_ne_bundleName "orders" role alice (congrArg Location.name he)
  change (withFixed _ _ _ _).find? _ = _
  rw [withFixed, Table.find?_put, if_neg (hapart _), Table.find?_put, if_neg (hapart _)]
  rfl

/-- The record in the shop is still there when the user has been issued once, and is then taken away
with the user or, where deleting the user fails, left. -/
theorem withdrawn_of_reconcileUser_leaving :
    ∃ (w : World Table (Fleet Agreeing)) (t : Table),
      Relation.ReflTransGen (Issues (bundleLocation leavingUser)) handMadeShop w ∧
      w.secrets = t ∧ t.find? (bundleLocation leavingUser) = some handMade ∧
      Ends (reconcileUser shopSetting shopCatalog leavingUser) (Withdrawn leavingUser t)
        (fun w' => w'.secrets = t) w := by
  have hissued : Relation.ReflTransGen (Issues (bundleLocation leavingUser)) handMadeShop
      (leaves (reconcileUser shopSetting shopCatalog alice handMadeShop)) :=
    .single ⟨shopSetting, shopCatalog, alice, by decide, by decide, rfl⟩
  obtain ⟨t, ht, hfind, -, hdelete⟩ := withdrawn_of_reconcileUser shopSetting shopCatalog leavingUser
    holds_handMade (by decide) hissued
  exact ⟨_, t, hissued, ht, hfind, hdelete (by decide)⟩

/-- The keys of the shop's account are loaded, and the record is left alone by that. -/
theorem accountKeys_handMade : ∃ s, accountKeys "shop" "orders" (some ordersKeys.accountId)
      handMadeShop.secrets = .ok ordersKeys s ∧
    s.find? (bundleLocation alice) = some handMade := by
  have hunlabelled : ∀ r ∈ (Table.put {} handMade).records, r.space = "shop" →
      r.labels.get? Label.accountId ≠ some ordersKeys.accountId := by
    intro r hr _
    rcases Table.mem_put.mp hr with rfl | ⟨hr, -⟩
    · exact nofun
    · exact absurd hr List.not_mem_nil
  obtain ⟨s, hkeys⟩ : ∃ s, accountKeys "shop" "orders" (some ordersKeys.accountId)
      handMadeShop.secrets = .ok ordersKeys s :=
    accountKeys_withFixed ordersKeys.accountId (sound_newKeys (fun _ => rfl) 0) hunlabelled
  obtain ⟨t, ht, hfind⟩ := holds_handMade
  obtain ⟨t', hs, hadopted⟩ :=
    ((Lawful.ends_accountKeys_sourced ht "shop" "orders" _).returned hkeys).1
  obtain rfl : s = t' := hs
  refine ⟨s, hkeys, ?_⟩
  rw [hadopted.apart _ fun role _ => bundleLocation_ne_fixed alice _ _ role, hfind]

/-- Issuing the user comes as far as writing its bundle. -/
theorem issueUser_handMade : ∃ s, s.find? (bundleLocation alice) = some handMade ∧
    issueUser shopSetting shopCatalog.standing alice
      ⟨handMadeShop.secrets, handMadeShop.cluster.default, handMadeShop.drawn⟩ =
        .error (.failed (.notManaged (bundleLocation alice))) ⟨s, {}, 3⟩ := by
  obtain ⟨s, hkeys, hheld⟩ := accountKeys_handMade
  obtain ⟨token, hsign⟩ : ∃ token, aliceClaims.sign 0 ordersKeys.signing = .ok token := ⟨_, rfl⟩
  have hput : ∀ owner l d, put owner (bundleLocation alice) l d s =
      .error (.failed (.notManaged (bundleLocation alice))) s := by
    intro owner l d
    rw [put_eq, hheld]
    rfl
  refine ⟨s, hheld, ?_⟩
  rw [issueUser_eq idOf_orders hkeys built_alice hsign]
  refine bind_of_error ?_
  rw [within, World.onSecrets, onPart, hput]
  rfl

/-- The user is issued in vain, since the record is not the engine's, and stays; then the user is
deleted and the record is gone. -/
theorem hand_made_withdrawn : ∃ u w w', handMade.isManaged = false ∧
    reconcileUser shopSetting shopCatalog alice handMadeShop =
      .ok (.error (.notManaged handMade.location), u) w ∧
    w.secrets.find? handMade.location = some handMade ∧
    reconcileUser shopSetting shopCatalog leavingUser w = .ok (.ok .delete, leavingUser) w' ∧
    w'.secrets.find? handMade.location = none := by
  obtain ⟨s, hheld, hissue⟩ := issueUser_handMade
  have hloc : handMade.location = bundleLocation alice := by decide
  have hloc' : handMade.location = bundleLocation leavingUser := by decide
  have hrefused := reconcileUser_of_refused (w := handMadeShop) (a := issuedOrders)
    (show alice.plan = .issue by decide) (by decide) rfl hissue
  refine ⟨_, _, _, by decide, hloc ▸ hrefused, hloc ▸ hheld,
    reconcileUser_of_leaving (a := issuedOrders) (by decide) (by decide) rfl, ?_⟩
  rw [hloc', Table.find?_keep, ← hloc', hloc, hheld]
  rfl

end CredentialEngine.Lifecycle
