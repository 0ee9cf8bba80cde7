import CredentialEngine.Proofs.Key.Curve
import CredentialEngine.Proofs.Keyring.Migration

/-!
# Records of other accounts

The fixed names of an account are those of every account that ever had its name. Where nothing bears
a role, the record at the fixed name fills it, and nothing looks at the id that this record carries
already. It is therefore used and labelled for the account that is loaded even if it carries the id
of another one. Whether a load spares the records of other accounts is decided at the fixed names of
the roles that nothing bears.
-/
namespace CredentialEngine.Keyring

open Secret CredentialEngine.Action Lawful

variable {t t' : Table} {space account id : String} {id? key? : Option String} {keys : AccountKeys}
  {role : Role} {r root signing : Record}

/-! ## What a load that succeeds leaves -/

/-- A table after the records of all roles that nothing bears were taken on. -/
structure Completed (t : Table) (space account : String) (id? key? : Option String) (t' : Table) :
    Prop where
  fixed : ∀ role ∈ keyRoles, bearers t space id? role = [] →
    ∃ r, t.find? ⟨space, fixedName account role⟩ = some r ∧
      t'.find? ⟨space, fixedName account role⟩ = some (takenOn role key? r)
  elsewhere : ∀ loc, ¬ AdoptedAt t space account id? loc → t'.find? loc = t.find? loc

/-- A table takes a record on whenever it is asked to. -/
theorem adopt_table (new : Bool) (hf : new = true → t.find? r.location = some r) (role : Role)
    (key? : Option String) :
    ∃ t', adopt (r, new) role key? t = .ok () t' ∧ TakesOn new role key? r t t' ∧
      (new = true → t' = t.put (takenOn role key? r)) := by
  unfold adopt
  cases new with
  | true => exact ⟨_, bind_of_ok (attempt_ok (annotate_of_some (hf rfl))), .inr ⟨rfl, rfl⟩,
      fun _ => rfl⟩
  | false => exact ⟨t, rfl, .inl rfl, nofun⟩

theorem find?_put_takenOn {u : Table} (hr : Fills t space account id? role r)
    (hn : bearers t space id? role = []) :
    (u.put (takenOn role key? r)).find? ⟨space, fixedName account role⟩ =
      some (takenOn role key? r) := by
  rw [Table.find?_put]
  exact if_pos (location_of_fills hr (List.isEmpty_iff.mpr hn)).1

/-- Where a place is not one of the roles that nothing bears, taking a record on changes nothing. -/
theorem find?_of_not_adoptedAt {u u' : Table} (hrole : role ∈ keyRoles)
    (hr : Fills t space account id? role r)
    (h : TakesOn (bearers t space id? role).isEmpty role key? r u u') {loc : Location}
    (hloc : ¬ AdoptedAt t space account id? loc) : u'.find? loc = u.find? loc := by
  by_cases hn : bearers t space id? role = []
  · exact find?_of_apart hr h fun he => hloc ⟨role, hrole, hn, he⟩
  · rcases h with rfl | ⟨hempty, -⟩
    · rfl
    · exact absurd (List.isEmpty_iff.mp hempty) hn

section Fills

variable (hone : ¬ Ambiguous t space id?) (hroot : Fills t space account id? .accountRoot root)
  (hsigning : Fills t space account id? .accountSigning signing)

include hone hroot hsigning

theorem completeRecords_table :
    ∃ t', completeRecords space account (bearers t space id? .accountRoot).head?
        (bearers t space id? .accountSigning).head? t = .ok (root, signing) t' ∧
      Completed t space account id? (keyText? root) t' := by
  obtain ⟨t₁, hadopt, htakes, hput⟩ := adopt_table (bearers t space id? .accountRoot).isEmpty
    (fun hn => (location_of_fills hroot hn).1 ▸ (location_of_fills hroot hn).2)
    .accountRoot (keyText? root)
  have hother := find?_of_apart hroot htakes (signing_ne_root space account)
  obtain ⟨t₂, hadopt', htakes', hput'⟩ := adopt_table (bearers t space id? .accountSigning).isEmpty
    (fun hn => (location_of_fills hsigning hn).1 ▸ (hother.trans (location_of_fills hsigning hn).2))
    .accountSigning (keyText? root)
  refine ⟨t₂, completeRecords_of_adopts Table.readable rfl hone hroot hsigning hadopt hadopt',
    forall_keyRoles (fun hn => ?_) fun hn => ?_, fun loc hloc => ?_⟩
  · have hempty := List.isEmpty_iff.mpr hn
    refine ⟨root, (location_of_fills hroot hempty).2, ?_⟩
    rw [find?_of_apart hsigning htakes' (signing_ne_root space account).symm, hput hempty]
    exact find?_put_takenOn hroot hn
  · have hempty := List.isEmpty_iff.mpr hn
    refine ⟨signing, (location_of_fills hsigning hempty).2, ?_⟩
    rw [hput' hempty]
    exact find?_put_takenOn hsigning hn
  · rw [find?_of_not_adoptedAt (by decide) hsigning htakes' hloc,
      find?_of_not_adoptedAt (by decide) hroot htakes hloc]

/-- Where both roles are filled, their records are taken on, and their keys are read after that. -/
theorem accountKeys_table :
    ∃ t', accountKeys space account id? t = keysOf root signing t' ∧
      Completed t space account id? (keyText? root) t' := by
  obtain ⟨t', hcomplete, ht'⟩ := completeRecords_table hone hroot hsigning
  exact ⟨t', accountKeys_of_completed Table.readable rfl hone hcomplete, ht'⟩

end Fills

/-- The keys are read from the one record that fills each role. -/
def ReadFrom (t : Table) (space account : String) (id? : Option String) (keys : AccountKeys) :
    Prop :=
  ∀ role ∈ keyRoles, ∃ r, (∀ r', Fills t space account id? role r' ↔ r' = r) ∧
    HoldsAccountKey r (keys.ofRole role)

/-- A load that succeeds has read the records that fill the roles. It has labelled those at the
fixed names of the roles that nothing bears with the id of the root key that it returns, whatever id
they carried, and has changed nothing else. -/
theorem completed_of_accountKeys (h : accountKeys space account id? t = .ok keys t') :
    ReadFrom t space account id? keys ∧ Completed t space account id? (some keys.accountId) t' := by
  by_cases hone : Ambiguous t space id?
  · rw [accountKeys_of_ambiguous Table.readable rfl hone] at h
    contradiction
  by_cases hopen : openRoles t space account id? = []
  · have hfills : ∀ role ∈ keyRoles, ∃ r, Fills t space account id? role r :=
      fun role hrole => exists_fills hrole (hopen ▸ List.not_mem_nil)
    have hsole : ∀ {role r}, role ∈ keyRoles → Fills t space account id? role r →
        ∀ r', Fills t space account id? role r' ↔ r' = r := fun hrole hr r' =>
      ⟨fills_unique (length_bearers_le hone hrole) hr, fun he => he ▸ hr⟩
    obtain ⟨root, hroot⟩ := hfills .accountRoot (by decide)
    obtain ⟨signing, hsigning⟩ := hfills .accountSigning (by decide)
    obtain ⟨t₁, hload, ht₁⟩ := accountKeys_table hone hroot hsigning
    obtain ⟨rfl, hrootKey, hsigningKey⟩ := keysOf_ok_iff.mp (hload.symm.trans h)
    have hid : keyText? root = some keys.accountId := keyText?_of_accountKeyOf hrootKey
    refine ⟨forall_keyRoles ⟨root, ?_, ?_⟩ ⟨signing, ?_, ?_⟩, hid ▸ ht₁⟩
    · exact hsole (by decide) hroot
    · exact accountKeyOf_ok_iff.mp hrootKey
    · exact hsole (by decide) hsigning
    · exact accountKeyOf_ok_iff.mp hsigningKey
  · rw [accountKeys_of_open Table.readable rfl hone hopen] at h
    contradiction

/-! ## Records of other accounts -/

/-- The record carries the id of another account. -/
def Foreign (id : String) (r : Record) : Prop :=
  ∃ other, r.labels.get? Label.accountId = some other ∧ other ≠ id

/-- The records of other accounts are spared by a load for an id: it reads no key from them, and
none of them gets another id. -/
structure Spared (t : Table) (space account id : String) (t' : Table) : Prop where
  unused : ∀ role ∈ keyRoles, ∀ r, Fills t space account (some id) role r → ¬ Foreign id r
  kept : ∀ loc r, t.find? loc = some r → Foreign id r → ∃ r', t'.find? loc = some r' ∧
    r'.labels.get? Label.accountId = r.labels.get? Label.accountId

theorem not_foreign_of_mem_bearers (h : r ∈ bearers t space (some id) role) : ¬ Foreign id r := by
  rintro ⟨other, hother, hne⟩
  obtain ⟨-, -, -, hid, -⟩ := mem_bearers.mp h
  exact hne (Option.some.inj (hother.symm.trans hid))

/-- What a load that succeeds does to the records of other accounts. It reads each key from the one
record that fills its role, and spares the records of other accounts just when none of them is at
the fixed name of a role that nothing bears. Each record that is there gets the labels of the role
and the id of the root key that was loaded, in place of any it carried, and at every other place the
table is what it was. -/
theorem spared_iff_of_accountKeys (h : accountKeys space account (some id) t = .ok keys t') :
    ReadFrom t space account (some id) keys ∧
    (Spared t space account id t' ↔ ∀ role ∈ keyRoles, bearers t space (some id) role = [] →
      ∀ r, t.find? ⟨space, fixedName account role⟩ = some r → ¬ Foreign id r) ∧
    (∀ role ∈ keyRoles, bearers t space (some id) role = [] → ∃ r r',
      t.find? ⟨space, fixedName account role⟩ = some r ∧
      t'.find? ⟨space, fixedName account role⟩ = some r' ∧ Labelled role keys.accountId r r') ∧
    ∀ loc, ¬ AdoptedAt t space account (some id) loc → t'.find? loc = t.find? loc := by
  obtain ⟨hread, hfixed, helsewhere⟩ := completed_of_accountKeys h
  refine ⟨hread, ⟨fun hspared role hrole hn r hf => ?_, fun hnone => ⟨?_, ?_⟩⟩,
    fun role hrole hn => ?_, helsewhere⟩
  · exact hspared.unused role hrole r (.fixed hn hf)
  · intro role hrole r hr
    cases hr with
    | labelled hr => exact not_foreign_of_mem_bearers hr
    | fixed hn hf => exact hnone role hrole hn r hf
  · intro loc r hf hforeign
    refine ⟨r, (helsewhere loc ?_).trans hf, rfl⟩
    rintro ⟨role, hrole, hn, rfl⟩
    exact hnone role hrole hn r hf hforeign
  · obtain ⟨r, hf, hf'⟩ := hfixed role hrole hn
    exact ⟨r, _, hf, hf', labelled_takenOn role keys.accountId r⟩

/-- Records from before there were labels carry no id, and are taken on by right. -/
theorem spared_of_oldKeys : ∃ t', accountKeys "shop" "orders" (some oldKeys.accountId)
      (withFixed {} "shop" "orders" oldKeys) = .ok oldKeys t' ∧
    Spared (withFixed {} "shop" "orders" oldKeys) "shop" "orders" oldKeys.accountId t' := by
  obtain ⟨t', hload⟩ : ∃ t', accountKeys "shop" "orders" (some oldKeys.accountId)
      (withFixed {} "shop" "orders" oldKeys) = .ok oldKeys t' := by
    refine accountKeys_withFixed oldKeys.accountId sound_oldKeys fun r hr => ?_
    exact absurd hr List.not_mem_nil
  refine ⟨t', hload, (spared_iff_of_accountKeys hload).2.1.mpr fun role hrole _ r hf => ?_⟩
  obtain rfl := Option.some.inj ((find?_withFixed {} "shop" "orders" oldKeys hrole).symm.trans hf)
  rintro ⟨other, hother, -⟩
  exact nomatch hother

/-! ## An heir of the name -/

/-- The keys of a later account of the same name. -/
def heirKeys : AccountKeys where
  root := .ofSeed .account (List.replicate 32 3)
  signing := .ofSeed .account (List.replicate 32 4)

theorem sound_heirKeys : heirKeys.Sound :=
  forall_keyRoles (keyOfSeedFor_ofSeed .account rfl (by decide))
    (keyOfSeedFor_ofSeed .account rfl (by decide))

theorem accountId_old_ne_heir : oldKeys.accountId ≠ heirKeys.accountId := by
  change (Key.Pair.ofSeed .account _).publicText ≠ (Key.Pair.ofSeed .account _).publicText
  rw [Key.Pair.publicText_ofSeed, Key.Pair.publicText_ofSeed]
  decide +kernel

/-- A record at a fixed name that was labelled for the old account. -/
def oldRecord (role : Role) : Record :=
  takenOn role (some oldKeys.accountId) (fixedRecord "shop" "orders" oldKeys role)

def heirRoot : Record :=
  keyRecord "shop" "orders" heirKeys .accountRoot

/-- The root record of the heir, whose signing record is lost, and the pair of the old account. -/
def heirShop : Table :=
  ((Table.put {} (oldRecord .accountRoot)).put (oldRecord .accountSigning)).put heirRoot

theorem mem_bearers_heirShop :
    r ∈ bearers heirShop "shop" (some heirKeys.accountId) role ↔
      r = heirRoot ∧ role = .accountRoot := by
  have hkey : IsKeyRecord heirKeys .accountRoot heirRoot := isKeyRecord_of_written
    (written_fresh none (keyLocation "shop" "orders" heirKeys .accountRoot) _ _)
  have hold : ∀ role', (oldRecord role').labels.get? Label.accountId ≠ some heirKeys.accountId := by
    intro role' hid
    rw [oldRecord, (labelled_takenOn role' _ _).id] at hid
    exact accountId_old_ne_heir (Option.some.inj hid)
  rw [mem_bearers]
  constructor
  · rintro ⟨hm, -, -, hid, hrole⟩
    rcases Table.mem_put.mp hm with rfl | ⟨hm, -⟩
    · exact ⟨rfl, Option.some.inj (hrole.symm.trans (role?_of_label hkey.hasRole))⟩
    · rcases Table.mem_put.mp hm with rfl | ⟨hm, -⟩
      · exact absurd hid (hold _)
      · rcases Table.mem_put.mp hm with rfl | ⟨hm, -⟩
        · exact absurd hid (hold _)
        · exact absurd hm List.not_mem_nil
  · rintro ⟨rfl, rfl⟩
    exact ⟨Table.mem_put.mpr (.inl rfl), rfl, rfl, hkey.hasId, role?_of_label hkey.hasRole⟩

theorem find?_heirShop :
    heirShop.find? ⟨"shop", fixedName "orders" .accountSigning⟩ =
      some (oldRecord .accountSigning) := by
  have hapart : heirRoot.location ≠ ⟨"shop", fixedName "orders" .accountSigning⟩ := fun he =>
    keyName_ne_fixedName "orders" heirKeys.accountId _ "orders" _ (congrArg Location.name he)
  rw [heirShop, Table.find?_put, if_neg hapart, Table.find?_put]
  exact if_pos rfl

/-- The heir's keys load: its own root key, and the signing key of the old account, whose record
loses the old id for the new one. -/
theorem foreign_signing_taken : ∃ r t' r', oldKeys.accountId ≠ heirKeys.accountId ∧
    heirShop.find? ⟨"shop", fixedName "orders" .accountSigning⟩ = some r ∧
    r.labels.get? Label.accountId = some oldKeys.accountId ∧
    accountKeys "shop" "orders" (some heirKeys.accountId) heirShop =
      .ok ⟨heirKeys.root, oldKeys.signing⟩ t' ∧
    t'.find? ⟨"shop", fixedName "orders" .accountSigning⟩ = some r' ∧
    r'.labels.get? Label.accountId = some heirKeys.accountId := by
  have hsole : bearers heirShop "shop" (some heirKeys.accountId) .accountRoot = [heirRoot] :=
    bearers_eq_singleton fun r' => mem_bearers_heirShop.trans (and_iff_left rfl)
  have hnone : bearers heirShop "shop" (some heirKeys.accountId) .accountSigning = [] :=
    List.eq_nil_iff_forall_not_mem.mpr fun r hr => nomatch (mem_bearers_heirShop.mp hr).2
  have hle : ∀ role ∈ keyRoles,
      (bearers heirShop "shop" (some heirKeys.accountId) role).length ≤ 1 :=
    forall_keyRoles (hsole ▸ Nat.le_refl 1) (hnone ▸ Nat.zero_le 1)
  have hone : ¬ Ambiguous heirShop "shop" (some heirKeys.accountId) :=
    fun ⟨role, hrole, htwice⟩ => Nat.not_lt.mpr (hle role hrole) htwice
  have hroot : Fills heirShop "shop" "orders" (some heirKeys.accountId) .accountRoot heirRoot :=
    .labelled (mem_bearers_heirShop.mpr ⟨rfl, rfl⟩)
  have hrootKey : accountKeyOf heirRoot = .ok (heirKeys.ofRole .accountRoot) :=
    accountKeyOf_of_data sound_heirKeys (by decide) rfl
  have hsigningKey : accountKeyOf (oldRecord .accountSigning) =
      .ok (oldKeys.ofRole .accountSigning) := accountKeyOf_of_data sound_oldKeys (by decide) rfl
  obtain ⟨t', hload, -⟩ := accountKeys_table hone hroot (.fixed hnone find?_heirShop)
  have hkeys : accountKeys "shop" "orders" (some heirKeys.accountId) heirShop =
      .ok ⟨heirKeys.root, oldKeys.signing⟩ t' :=
    hload.trans (keysOf_ok_iff.mpr ⟨rfl, hrootKey, hsigningKey⟩)
  obtain ⟨r, -, hf⟩ := (completed_of_accountKeys hkeys).2.fixed _ (by decide) hnone
  refine ⟨_, t', _, accountId_old_ne_heir, find?_heirShop, ?_, hkeys, hf, ?_⟩
  · exact (labelled_takenOn .accountSigning oldKeys.accountId _).id
  · -- the mixed pair has the heir's root, and so its id
    simpa only [AccountKeys.accountId] using (labelled_takenOn .accountSigning _ r).id

end CredentialEngine.Keyring
