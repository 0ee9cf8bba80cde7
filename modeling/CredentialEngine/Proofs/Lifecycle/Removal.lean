import CredentialEngine.Proofs.Keyring.Sources
import CredentialEngine.Proofs.Lifecycle.Issuance

/-!
# What revoking an account leaves

An account that is revoked loses the records that carry the label of its id and no others, while its
keys are loaded from records without labels as well. So the keys are gone afterwards just when both
sources carried the label and no second pair without it is left at the fixed names.
-/
namespace CredentialEngine.Lifecycle

open Secret Keyring CredentialEngine.Action

/-- A table without the records of a namespace that carry the label of an id. -/
def withoutLabelled (t : Table) (space id : String) : Table :=
  t.keep fun r => !(r.space == space && r.selectedBy (labels [(Label.accountId, id)]))

/-- The record at the fixed name of a role holds a key and does not carry the label of the id. -/
def Overlooked (t : Table) (space account id : String) (role : Role) : Prop :=
  ∃ r pair, t.find? ⟨space, fixedName account role⟩ = some r ∧
    r.labels.get? Label.accountId ≠ some id ∧ accountKeyOf r = .ok pair

/-- The keys that were loaded from one table for an id are gone from another: nothing is loaded for
the id any more, and both records that they came from have been removed. -/
structure KeysGone (t t' : Table) (space account id : String) : Prop where
  fails : ∃ e s, accountKeys space account (some id) t' = .error (.failed e) s
  removed : ∀ role ∈ keyRoles, ∀ r, source? t space account id role = some r →
    t'.find? r.location = none

variable {t : Table} {space account id : String}

/-! ## Tables without a label -/

theorem labelled_withoutLabelled (t : Table) (space id : String) :
    labelled (withoutLabelled t space id) space id = [] := by
  refine List.eq_nil_iff_forall_not_mem.mpr fun r hr => ?_
  obtain ⟨hm, hspace, hid⟩ := mem_labelled.mp hr
  have hkept := (Table.mem_keep.mp hm).2
  rw [beq_iff_eq.mpr hspace, selectedBy_label.mpr hid] at hkept
  contradiction

/-- A record of the namespace stays unless it carries the label. -/
theorem find?_withoutLabelled {loc : Location} (hspace : loc.space = space) {r : Record} :
    (withoutLabelled t space id).find? loc = some r ↔
      t.find? loc = some r ∧ r.labels.get? Label.accountId ≠ some id := by
  rw [withoutLabelled, Table.find?_keep, Option.filter_eq_some_iff]
  constructor
  · rintro ⟨hf, hkept⟩
    refine ⟨hf, fun hid => ?_⟩
    have hr : r.space = space := (congrArg Location.space (Table.found hf).2).trans hspace
    rw [beq_iff_eq.mpr hr, selectedBy_label.mpr hid] at hkept
    contradiction
  · rintro ⟨hf, hid⟩
    refine ⟨hf, ?_⟩
    have hfree : r.selectedBy (labels [(Label.accountId, id)]) = false :=
      Bool.eq_false_iff.mpr fun hs => hid (selectedBy_label.mp hs)
    rw [hfree, Bool.and_false]
    rfl

/-- Without labelled records the fixed names are the only sources. -/
theorem source?_withoutLabelled {role : Role} {r : Record} :
    source? (withoutLabelled t space id) space account id role = some r ↔
      t.find? ⟨space, fixedName account role⟩ = some r ∧
        r.labels.get? Label.accountId ≠ some id := by
  rw [source?, firstLabelled, labelled_withoutLabelled]
  exact find?_withoutLabelled rfl

theorem unambiguous_withoutLabelled (t : Table) (space id : String) :
    Unambiguous (withoutLabelled t space id) space id := by
  intro role _
  rw [labelled_withoutLabelled]
  exact Nat.zero_le 1

/-- Without labelled records keys still load just when both fixed names are overlooked. -/
theorem accountKeys_withoutLabelled_iff :
    (∃ keys s, accountKeys space account (some id) (withoutLabelled t space id) = .ok keys s) ↔
      ∀ role ∈ keyRoles, Overlooked t space account id role := by
  rw [exists_congr fun _ => accountKeys_ok_iff]
  constructor
  · rintro ⟨keys, -, hsourced⟩ role hrole
    obtain ⟨r, hsource, hkey⟩ := hsourced role hrole
    obtain ⟨hf, hid⟩ := source?_withoutLabelled.mp hsource
    exact ⟨r, _, hf, hid, hkey⟩
  · intro h
    obtain ⟨root, rootKey, hroot, hrootId, hrootKey⟩ := h .accountRoot (by decide)
    obtain ⟨signing, signingKey, hsigning, hsigningId, hsigningKey⟩ := h .accountSigning (by decide)
    have hsourced : Lawful.Sourced (withoutLabelled t space id) space account id
        ⟨rootKey, signingKey⟩ := by
      intro role hrole
      rcases List.mem_cons.mp hrole with rfl | hrole
      · exact ⟨root, source?_withoutLabelled.mpr ⟨hroot, hrootId⟩, hrootKey⟩
      · obtain rfl := List.mem_singleton.mp hrole
        exact ⟨signing, source?_withoutLabelled.mpr ⟨hsigning, hsigningId⟩, hsigningKey⟩
    exact ⟨_, unambiguous_withoutLabelled t space id, hsourced⟩

/-- Without labelled records a source is gone just when it carried the label. -/
theorem source_removed_iff {role : Role} {r : Record}
    (h : source? t space account id role = some r) :
    (withoutLabelled t space id).find? r.location = none ↔
      r.labels.get? Label.accountId = some id := by
  have hchosen := Lawful.chosen_of_source h
  have hf : t.find? r.location = some r := Table.find?_eq_some_iff.mpr ⟨hchosen.mem, rfl⟩
  constructor
  · intro hnone
    by_contra hid
    have hkept := (find?_withoutLabelled hchosen.space_eq).mpr ⟨hf, hid⟩
    rw [hnone] at hkept
    contradiction
  · intro hid
    cases hkept : (withoutLabelled t space id).find? r.location with
    | none => rfl
    | some r' =>
      obtain ⟨hf', hid'⟩ := (find?_withoutLabelled hchosen.space_eq).mp hkept
      obtain rfl := Option.some.inj (hf.symm.trans hf')
      exact absurd hid hid'

/-! ## Revoking -/

variable {κ : Type} [Control κ] {setting : Setting} {a : Account}

/-- An account with an id that is revoked loses the records with the label of the id. -/
theorem secrets_of_revokeAccount {w w' : World Table κ} (hid : a.id? = some id)
    (h : revokeAccount setting a w = .ok () w') :
    w'.secrets = withoutLabelled w.secrets a.metadata.space id := by
  refine Ends.returned (Q := fun _ w' => w'.secrets = withoutLabelled w.secrets a.metadata.space id)
    (E := fun _ => True) ?_ h
  unfold revokeAccount
  rw [hid]
  refine ends_bind (World.ends_onSecrets (ends_operatorKey.mono (fun operator t ht => ?_)
    fun _ _ => trivial))
  subst ht
  refine ends_bind (ends_ofClaims (fun token _ => ?_) trivial)
  refine ends_bind (ends_within (World.ends_connected (fun _ c => ?_) fun _ => trivial))
  refine ends_bind (ends_attempt (World.ends_onSecrets ?_))
  exact ends_ok (Table.deleteSelected_eq a.metadata.space _ w.secrets) (ends_pure rfl)

/-- When an account whose keys loaded has been revoked, its keys are gone just when both sources
carried the label of its id and the fixed names have no pair of keys without it. -/
theorem keysGone_iff (setting : Setting) (a : Account) {w w' : World Table κ} {keys : AccountKeys}
    {s : Table} (hid : a.id? = some id)
    (hload : accountKeys a.metadata.space a.metadata.name (some id) w.secrets = .ok keys s)
    (h : revokeAccount setting a w = .ok () w') :
    Lawful.Sourced w.secrets a.metadata.space a.metadata.name id keys ∧
    (KeysGone w.secrets w'.secrets a.metadata.space a.metadata.name id ↔
      (∀ role ∈ keyRoles, ∀ r,
        source? w.secrets a.metadata.space a.metadata.name id role = some r →
          r.labels.get? Label.accountId = some id) ∧
      ¬ ∀ role ∈ keyRoles, Overlooked w.secrets a.metadata.space a.metadata.name id role) := by
  refine ⟨(sourced_of_accountKeys hload).2, ?_⟩
  rw [secrets_of_revokeAccount hid h, ← accountKeys_withoutLabelled_iff]
  constructor
  · rintro ⟨⟨e, s, hfails⟩, hremoved⟩
    constructor
    · intro role hrole r hsource
      exact (source_removed_iff hsource).mp (hremoved role hrole r hsource)
    · rintro ⟨keys', s', hload'⟩
      rw [hfails] at hload'
      contradiction
  · rintro ⟨hlabelled, hnone⟩
    constructor
    · cases hr : accountKeys a.metadata.space a.metadata.name (some id)
          (withoutLabelled w.secrets a.metadata.space id) with
      | ok keys' s' => exact absurd ⟨keys', s', hr⟩ hnone
      | error e s' =>
        obtain ⟨error, rfl⟩ := settles_accountKeys _ _ _ _ e s' hr
        exact ⟨error, s', rfl⟩
    · intro role hrole r hsource
      exact (source_removed_iff hsource).mpr (hlabelled role hrole r hsource)

/-! ## The shop's account -/

/-- The shop with the labelled records of its account's keys. -/
def labelledShop : Table :=
  (shopWorld.secrets.put (keyRecord "shop" "orders" ordersKeys .accountRoot)).put
    (keyRecord "shop" "orders" ordersKeys .accountSigning)

/-- The shop with its account's keys at the fixed names, from before there were labels. -/
def unlabelledShop : Table :=
  withFixed shopWorld.secrets "shop" "orders" ordersKeys

section Shop

variable {r r' : Record}

/-- The operator's key is read whatever is put in the namespace of the shop. -/
theorem operatorKey_of_shop (hr : r.space = "shop") (hr' : r'.space = "shop") :
    operatorKey "nauth" ((shopWorld.secrets.put r).put r') =
      .ok shopOperator ((shopWorld.secrets.put r).put r') := by
  refine HoldsOperator.operatorKey ((holdsOperator_shop.put ?_).put ?_)
  · rw [hr]
    decide
  · rw [hr']
    decide

theorem revokeAccount_of_shop (r r' : Record) (hr : r.space = "shop") (hr' : r'.space = "shop") :
    ∃ w', revokeAccount shopSetting issuedOrders
      (⟨(shopWorld.secrets.put r).put r', {}, 0⟩ : World Table Agreeing) = .ok () w' := by
  have hread : World.onSecrets (operatorKey "nauth")
      (⟨(shopWorld.secrets.put r).put r', {}, 0⟩ : World Table Agreeing) =
        .ok shopOperator ⟨(shopWorld.secrets.put r).put r', {}, 0⟩ := by
    rw [World.onSecrets, onPart, operatorKey_of_shop hr hr']
  refine ⟨⟨withoutLabelled ((shopWorld.secrets.put r).put r') "shop"
    "AA5WUJ54Z23KILLCUOUNAKTPBVZWKMQVO4O6EQ5GHLAERIMLLHNCS47C", {}, 0⟩, ?_⟩
  refine (bind_of_ok hread).trans ?_
  rfl

end Shop

theorem id?_issuedOrders : issuedOrders.id? = some ordersKeys.accountId := by
  rw [accountId_orders]
  decide

/-- In the shop every record carries the label of the account's id. -/
theorem id_of_mem_labelledShop {r : Record} (h : r ∈ labelledShop.records)
    (hspace : r.space = "shop") : r.labels.get? Label.accountId = some ordersKeys.accountId := by
  have hkey : ∀ role, (keyRecord "shop" "orders" ordersKeys role).labels.get? Label.accountId =
      some ordersKeys.accountId := by
    intro role
    rw [keyRecord, fresh, Dict.get?_insert_of_ne _ _ (by decide)]
    exact id_keyLabels role ordersKeys.accountId
  rcases Table.mem_put.mp h with rfl | ⟨hm, -⟩
  · exact hkey .accountSigning
  · rcases Table.mem_put.mp hm with rfl | ⟨hm, -⟩
    · exact hkey .accountRoot
    · exact absurd hspace (space_of_mem_shop hm)

/-- The labelled keys of the shop's account are gone once it has been revoked. -/
theorem keysGone_orders : ∃ w', revokeAccount shopSetting issuedOrders
      (⟨labelledShop, {}, 0⟩ : World Table Agreeing) = .ok () w' ∧
    KeysGone labelledShop w'.secrets "shop" "orders" ordersKeys.accountId := by
  have hsound : ordersKeys.Sound := sound_newKeys (fun _ => rfl) 0
  have hstored : storeAccountKeys "shop" "orders" ordersKeys shopWorld.secrets =
      .ok () labelledShop :=
    storeAccountKeys_of_free fun role _ => free_in_shop "orders" ordersKeys role
  have hload := accountKeys_of_stored hsound publicText_signing_ne_orders
    (fun r hr => space_of_mem_shop hr) hstored
  obtain ⟨w', hrevoke⟩ := revokeAccount_of_shop
    (keyRecord "shop" "orders" ordersKeys .accountRoot)
    (keyRecord "shop" "orders" ordersKeys .accountSigning) rfl rfl
  obtain ⟨-, hiff⟩ := keysGone_iff shopSetting issuedOrders
    (w := (⟨labelledShop, {}, 0⟩ : World Table Agreeing)) id?_issuedOrders hload hrevoke
  refine ⟨w', hrevoke, hiff.mpr ⟨?_, ?_⟩⟩
  · intro role _ r hsource
    have hchosen := Lawful.chosen_of_source hsource
    exact id_of_mem_labelledShop hchosen.mem hchosen.space_eq
  · intro hall
    obtain ⟨r, -, hf, hid, -⟩ := hall .accountRoot (by decide)
    obtain ⟨hm, hloc⟩ := Table.found hf
    exact hid (id_of_mem_labelledShop hm (congrArg Location.space hloc))

/-- The unlabelled keys of the shop's account are loaded, and are still there and still loaded once
it has been revoked. -/
theorem keys_left_by_revokeAccount : ∃ s w' s',
    accountKeys "shop" "orders" (some ordersKeys.accountId) unlabelledShop = .ok ordersKeys s ∧
    revokeAccount shopSetting issuedOrders (⟨unlabelledShop, {}, 0⟩ : World Table Agreeing) =
      .ok () w' ∧
    accountKeys "shop" "orders" (some ordersKeys.accountId) w'.secrets = .ok ordersKeys s' ∧
    ∀ role ∈ keyRoles, w'.secrets.find? ⟨"shop", fixedName "orders" role⟩ =
      some (fixedRecord "shop" "orders" ordersKeys role) := by
  have hsound : ordersKeys.Sound := sound_newKeys (fun _ => rfl) 0
  have hfree : ∀ r ∈ shopWorld.secrets.records, r.space = "shop" →
      r.labels.get? Label.accountId ≠ some ordersKeys.accountId :=
    fun r hr hspace => absurd hspace (space_of_mem_shop hr)
  obtain ⟨s, hload⟩ : ∃ s, accountKeys "shop" "orders" (some ordersKeys.accountId)
      unlabelledShop = .ok ordersKeys s :=
    accountKeys_withFixed ordersKeys.accountId hsound hfree
  obtain ⟨w', hrevoke⟩ := revokeAccount_of_shop
    (fixedRecord "shop" "orders" ordersKeys .accountRoot)
    (fixedRecord "shop" "orders" ordersKeys .accountSigning) rfl rfl
  have hsame : w'.secrets = unlabelledShop := by
    rw [secrets_of_revokeAccount id?_issuedOrders hrevoke]
    refine Table.ext_records (List.filter_eq_self.mpr fun r hr => ?_)
    rcases mem_withFixed hr with hr | ⟨role, -, rfl⟩
    · obtain rfl := List.mem_singleton.mp hr
      rfl
    · rfl
  refine ⟨s, w', s, hload, hrevoke, ?_, ?_⟩
  · rw [hsame]
    exact hload
  · intro role hrole
    rw [hsame]
    exact find?_withFixed shopWorld.secrets "shop" "orders" ordersKeys hrole

end CredentialEngine.Lifecycle
