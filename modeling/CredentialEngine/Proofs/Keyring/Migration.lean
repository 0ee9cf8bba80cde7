import CredentialEngine.Proofs.Keyring.Choice
import CredentialEngine.Proofs.Keyring.Sources
import Mathlib.Data.Set.Insert

/-!
# Moving keys from fixed names to labels

An account's keys may be kept at the fixed names, without labels. Each load tries to label the two
records, and any of these updates may fail. The roles whose records have got their labels are what
progress there is: it never goes back, every load on the way returns the same keys, and once both
roles are done nothing is written any more.
-/
namespace CredentialEngine.Keyring

open Secret CredentialEngine.Action Lawful

variable {t t₁ t₂ : Table} {space account : String} {keys : AccountKeys} {done : Set Role}
  {role : Role} {r : Record}

/-- The keys are kept at the fixed names, without a role and an id, and nothing else bears their id
in a role of an account. -/
structure Legacy (t : Table) (space account : String) (keys : AccountKeys) : Prop where
  held : ∀ role ∈ keyRoles, ∃ r, t.find? ⟨space, fixedName account role⟩ = some r ∧
    HoldsAccountKey r (keys.ofRole role) ∧ r.labels.get? Label.secretRole = none ∧
    r.labels.get? Label.accountId = none
  sole : ∀ r ∈ t.records, r.space = space → r.labels.get? Label.accountId = some keys.accountId →
    ∀ role ∈ keyRoles, r.role? ≠ some role

/-- A table in which the records of some roles have got the labels of an account. -/
structure Migrated (t : Table) (space account id : String) (done : Set Role) (t' : Table) :
    Prop where
  labelled : ∀ role ∈ keyRoles, role ∈ done → t'.find? ⟨space, fixedName account role⟩ =
    (t.find? ⟨space, fixedName account role⟩).map (takenOn role (some id))
  rest : ∀ loc, (∀ role ∈ keyRoles, role ∈ done → loc ≠ ⟨space, fixedName account role⟩) →
    t'.find? loc = t.find? loc

/-- A record has got the labels of a role and an id, and is what it was otherwise. -/
structure Labelled (role : Role) (id : String) (r r' : Record) : Prop where
  role : r'.role? = some role
  id : r'.labels.get? Label.accountId = some id
  managed : r'.isManaged = true
  data : r'.data = r.data
  owner : r'.owner = r.owner

theorem labelled_takenOn (role : Role) (id : String) (r : Record) :
    Labelled role id r (takenOn role (some id) r) := by
  have hget : ∀ k, k ≠ Label.accountId → (adoptionLabels role (some id)).get? k =
      ((Dict.empty.insert Label.secretRole role.text).insert Label.managed
        Label.managedValue).get? k :=
    fun k hk => Dict.get?_insert_of_ne _ _ hk
  refine ⟨role?_of_label ?_, ?_, ?_, rfl, rfl⟩
  · rw [takenOn, Dict.get?_overlay, hget _ (by decide), Dict.get?_insert_of_ne _ _ (by decide),
      Dict.get?_insert_self, Option.some_or]
  · rw [takenOn, Dict.get?_overlay, adoptionLabels, Dict.get?_insert_self, Option.some_or]
  · rw [Record.isManaged, takenOn, Dict.get?_overlay, hget _ (by decide), Dict.get?_insert_self,
      Option.some_or]
    exact beq_self_eq_true _

theorem keyText?_of_accountKeyOf {pair : Key.Pair} (h : accountKeyOf r = .ok pair) :
    keyText? r = some pair.publicText := by
  obtain ⟨seed, hv, hkey, -⟩ := accountKeyOf_ok_iff.mp h
  rw [keyText?, hv, Option.bind_some, keyOfSeed, hkey]
  rfl

/-- The places of the two records are apart. -/
theorem fixed_inj {role' : Role} (hrole : role ∈ keyRoles) (hrole' : role' ∈ keyRoles)
    (h : (⟨space, fixedName account role⟩ : Location) = ⟨space, fixedName account role'⟩) :
    role = role' := by
  have hall : ∀ role ∈ keyRoles, ∀ role' ∈ keyRoles,
      (⟨space, fixedName account role⟩ : Location) = ⟨space, fixedName account role'⟩ →
        role = role' := by
    refine forall_keyRoles (forall_keyRoles (fun _ => rfl) fun he => ?_)
      (forall_keyRoles (fun he => ?_) fun _ => rfl)
    · exact absurd he.symm (signing_ne_root space account)
    · exact absurd he (signing_ne_root space account)
  exact hall role hrole role' hrole' h

/-! ## Steps -/

section Steps

variable {σ : Type} [Storage σ]

/-- What a load does about the record of a role. It leaves the record alone once that has got its
labels. Until then it tries one update, and the role is done if the update succeeds. -/
inductive LabelStep (space account id : String) (role : Role) : σ × Set Role → σ × Set Role → Prop
  | settled {s : σ} {done : Set Role} (h : role ∈ done) :
    LabelStep space account id role (s, done) (s, done)
  | labelled {s s' : σ} {done : Set Role} (h : role ∉ done)
    (hu : annotate ⟨space, fixedName account role⟩ (adoptionLabels role (some id)) s = .ok () s') :
    LabelStep space account id role (s, done) (s', insert role done)
  | refused {s s' : σ} {done : Set Role} {e : Error} (h : role ∉ done)
    (hu : annotate ⟨space, fixedName account role⟩ (adoptionLabels role (some id)) s =
      .error (.failed e) s') :
    LabelStep space account id role (s, done) (s', done)

/-- The steps of a number of loads, each of which takes one for the root and then one for the
signing key. -/
inductive LabelSteps (space account id : String) : Nat → σ × Set Role → σ × Set Role → Prop
  | none (p : σ × Set Role) : LabelSteps space account id 0 p p
  | load {n : Nat} {p₁ p₂ p₃ p₄ : σ × Set Role}
    (root : LabelStep space account id .accountRoot p₁ p₂)
    (signing : LabelStep space account id .accountSigning p₂ p₃)
    (rest : LabelSteps space account id n p₃ p₄) : LabelSteps space account id (n + 1) p₁ p₄

variable {id : String} {p p' : σ × Set Role}

theorem LabelStep.subset (h : LabelStep space account id role p p') : p.2 ⊆ p'.2 := by
  cases h with
  | settled => exact subset_rfl
  | labelled => exact Set.subset_insert _ _
  | refused => exact subset_rfl

/-- A step is about one role only. -/
theorem LabelStep.mem_iff (h : LabelStep space account id role p p') {role' : Role}
    (hne : role' ≠ role) : role' ∈ p'.2 ↔ role' ∈ p.2 := by
  cases h with
  | settled => exact .rfl
  | labelled => exact (Set.mem_insert_iff).trans (or_iff_right hne)
  | refused => exact .rfl

theorem LabelStep.eq_of_mem (h : LabelStep space account id role p p') (hdone : role ∈ p.2) :
    p' = p := by
  cases h with
  | settled => rfl
  | labelled hopen => exact absurd hdone hopen
  | refused hopen => exact absurd hdone hopen

theorem LabelSteps.subset {n : Nat} (h : LabelSteps space account id n p p') : p.2 ⊆ p'.2 := by
  induction h with
  | none => exact subset_rfl
  | load root signing _ ih => exact (root.subset.trans signing.subset).trans ih

/-- Where both roles are done, nothing moves. -/
theorem LabelSteps.eq_of_mem {n : Nat} (h : LabelSteps space account id n p p')
    (hdone : ∀ role ∈ keyRoles, role ∈ p.2) : p' = p := by
  induction h with
  | none => rfl
  | load root signing _ ih =>
    obtain rfl := root.eq_of_mem (hdone .accountRoot (by decide))
    obtain rfl := signing.eq_of_mem (hdone .accountSigning (by decide))
    exact ih hdone

end Steps

/-! ## One load -/

section Load

variable {σ : Type} [Storage σ] {Reads : σ → Table → Prop} {s : σ}

variable (hl : Legacy t space account keys)
  (hm : Migrated t space account keys.accountId done t₁)

include hm

theorem Migrated.not_done (hrole : role ∈ keyRoles) (hopen : role ∉ done) :
    t₁.find? ⟨space, fixedName account role⟩ = t.find? ⟨space, fixedName account role⟩ :=
  hm.rest _ fun _ hrole' hdone he => hopen (fixed_inj hrole hrole' he ▸ hdone)

/-- A role whose record gets its labels is done. -/
theorem Migrated.insert (hrole : role ∈ keyRoles)
    (hf : t₁.find? ⟨space, fixedName account role⟩ = some r) (hopen : role ∉ done) :
    Migrated t space account keys.accountId (insert role done)
      (t₁.put (takenOn role (some keys.accountId) r)) := by
  have hloc : (takenOn role (some keys.accountId) r).location = ⟨space, fixedName account role⟩ :=
    (Table.found hf).2
  constructor
  · intro role' hrole' hdone
    rw [Table.find?_put, hloc]
    rcases Set.mem_insert_iff.mp hdone with rfl | hdone
    · rw [if_pos rfl, ← hm.not_done hrole hopen, hf, Option.map_some]
    · rw [if_neg fun he => hopen (fixed_inj hrole hrole' he ▸ hdone)]
      exact hm.labelled role' hrole' hdone
  · intro loc hapart
    rw [Table.find?_put, hloc,
      if_neg fun he => hapart role hrole (Set.mem_insert role done) he.symm]
    exact hm.rest loc fun role' hrole' hdone => hapart role' hrole' (Set.mem_insert_of_mem _ hdone)

/-- Tables in which a role has come equally far hold the same record at its fixed name. -/
theorem Migrated.find?_eq {done' : Set Role}
    (hm' : Migrated t space account keys.accountId done' t₂) (hrole : role ∈ keyRoles)
    (hsame : role ∈ done' ↔ role ∈ done) :
    t₂.find? ⟨space, fixedName account role⟩ = t₁.find? ⟨space, fixedName account role⟩ := by
  by_cases hdone : role ∈ done
  · rw [hm.labelled role hrole hdone, hm'.labelled role hrole (hsame.mpr hdone)]
  · rw [hm.not_done hrole hdone, hm'.not_done hrole fun hdone' => hdone (hsame.mp hdone')]

/-- Taking the record of a role on is a step for that role. -/
theorem adopt_migrated (hσ : Storage.Readable σ Reads) (h : Reads s t₁) (hrole : role ∈ keyRoles)
    (hf : t₁.find? ⟨space, fixedName account role⟩ = some r) {new : Bool}
    (hnew : new = true ↔ role ∉ done) :
    ∃ s' t₂ done', adopt (r, new) role (some keys.accountId) s = .ok () s' ∧ Reads s' t₂ ∧
      Migrated t space account keys.accountId done' t₂ ∧
      LabelStep space account keys.accountId role (s, done) (s', done') := by
  unfold adopt
  cases new with
  | false =>
    have hdone : role ∈ done := not_not.mp fun hopen => Bool.false_ne_true (hnew.mpr hopen)
    exact ⟨s, t₁, done, rfl, h, hm, .settled hdone⟩
  | true =>
    have hopen : role ∉ done := hnew.mp rfl
    have hloc : r.location = ⟨space, fixedName account role⟩ := (Table.found hf).2
    have hget := hσ.get_of_some h hf
    rw [← hloc] at hf
    rcases hσ.update h (takenOn role (some keys.accountId) r) hf with
      ⟨s', hu, hs'⟩ | ⟨e, s', hu, hs'⟩
    · have hlabel : annotate ⟨space, fixedName account role⟩
          (adoptionLabels role (some keys.accountId)) s = .ok () s' := (bind_of_ok hget).trans hu
      refine ⟨s', _, _, ?_, hs', hm.insert hrole (hloc ▸ hf) hopen, .labelled hopen hlabel⟩
      exact bind_of_ok (attempt_ok (hloc ▸ hlabel))
    · have hlabel : annotate ⟨space, fixedName account role⟩
          (adoptionLabels role (some keys.accountId)) s = .error (.failed e) s' :=
        (bind_of_ok hget).trans hu
      refine ⟨s', t₁, done, ?_, hs', hm, .refused hopen hlabel⟩
      exact bind_of_ok (attempt_failed (hloc ▸ hlabel))

include hl

/-- What bears a role is the record at the fixed name, once it is labelled, and nothing else. -/
theorem mem_bearers_migrated (hrole : role ∈ keyRoles) :
    r ∈ bearers t₁ space (some keys.accountId) role ↔
      role ∈ done ∧ t₁.find? ⟨space, fixedName account role⟩ = some r := by
  rw [mem_bearers]
  constructor
  · rintro ⟨hmem, hspace, -, hid, hr⟩
    have hf : t₁.find? r.location = some r := Table.find?_eq_some_iff.mpr ⟨hmem, rfl⟩
    by_cases hmoved : ∃ role' ∈ keyRoles, role' ∈ done ∧
        r.location = ⟨space, fixedName account role'⟩
    · obtain ⟨role', hrole', hdone, hloc⟩ := hmoved
      rw [hloc] at hf
      obtain ⟨r₀, -, rfl⟩ :=
        Option.map_eq_some_iff.mp ((hm.labelled role' hrole' hdone).symm.trans hf)
      obtain rfl : role' = role :=
        Option.some.inj ((labelled_takenOn role' keys.accountId r₀).role.symm.trans hr)
      exact ⟨hdone, hf⟩
    · have hkept := hm.rest r.location fun role' hrole' hdone he =>
        hmoved ⟨role', hrole', hdone, he⟩
      exact absurd hr (hl.sole r (Table.found (hkept.symm.trans hf)).1 hspace hid role hrole)
  · rintro ⟨hdone, hf⟩
    obtain ⟨hmem, hloc⟩ := Table.found hf
    obtain ⟨r₀, -, rfl⟩ := Option.map_eq_some_iff.mp ((hm.labelled role hrole hdone).symm.trans hf)
    have hlabelled := labelled_takenOn role keys.accountId r₀
    exact ⟨hmem, congrArg Location.space hloc, rfl, hlabelled.id, hlabelled.role⟩

theorem bearers_of_done (hrole : role ∈ keyRoles) (hdone : role ∈ done)
    (hf : t₁.find? ⟨space, fixedName account role⟩ = some r) :
    bearers t₁ space (some keys.accountId) role = [r] := by
  refine bearers_eq_singleton fun r' => ?_
  rw [mem_bearers_migrated hl hm hrole, hf, Option.some.injEq]
  exact ⟨fun h => h.2.symm, fun he => ⟨hdone, he.symm⟩⟩

theorem bearers_of_not_done (hrole : role ∈ keyRoles) (hopen : role ∉ done) :
    bearers t₁ space (some keys.accountId) role = [] :=
  List.eq_nil_iff_forall_not_mem.mpr fun _ hr =>
    hopen ((mem_bearers_migrated hl hm hrole).mp hr).1

/-- Each role is filled by the record at its fixed name, which holds its key. -/
theorem exists_fills_migrated (hrole : role ∈ keyRoles) :
    (bearers t₁ space (some keys.accountId) role).length ≤ 1 ∧
      ∃ r, t₁.find? ⟨space, fixedName account role⟩ = some r ∧
        Fills t₁ space account (some keys.accountId) role r ∧
        accountKeyOf r = .ok (keys.ofRole role) := by
  obtain ⟨r, hf, hkey, -, -⟩ := hl.held role hrole
  by_cases hdone : role ∈ done
  · have hf₁ : t₁.find? ⟨space, fixedName account role⟩ =
        some (takenOn role (some keys.accountId) r) := by
      rw [hm.labelled role hrole hdone, hf, Option.map_some]
    rw [bearers_of_done hl hm hrole hdone hf₁]
    refine ⟨Nat.le_refl 1, _, hf₁, .labelled ?_, accountKeyOf_ok_iff.mpr hkey⟩
    exact (mem_bearers_migrated hl hm hrole).mpr ⟨hdone, hf₁⟩
  · have hnil := bearers_of_not_done hl hm hrole hdone
    have hf₁ := (hm.not_done hrole hdone).trans hf
    rw [hnil]
    exact ⟨Nat.zero_le 1, r, hf₁, .fixed hnil hf₁, accountKeyOf_ok_iff.mpr hkey⟩

/-- From wherever the migration stands, a load returns the keys, and takes a step for each of the
two records. -/
theorem accountKeys_migrated (hσ : Storage.Readable σ Reads) (h : Reads s t₁) :
    ∃ s₁ done₁ s' t₂ done', accountKeys space account (some keys.accountId) s = .ok keys s' ∧
      Reads s' t₂ ∧ Migrated t space account keys.accountId done' t₂ ∧
      LabelStep space account keys.accountId .accountRoot (s, done) (s₁, done₁) ∧
      LabelStep space account keys.accountId .accountSigning (s₁, done₁) (s', done') := by
  have hone : ¬ Ambiguous t₁ space (some keys.accountId) := fun ⟨role, hrole, htwice⟩ =>
    Nat.not_lt.mpr (exists_fills_migrated hl hm hrole).1 htwice
  have hfills := fun role (hrole : role ∈ keyRoles) => (exists_fills_migrated hl hm hrole).2
  have hnew : ∀ role ∈ keyRoles,
      (bearers t₁ space (some keys.accountId) role).isEmpty = true ↔ role ∉ done := by
    intro role hrole
    rw [List.isEmpty_iff]
    refine ⟨fun hnil hdone => ?_, bearers_of_not_done hl hm hrole⟩
    obtain ⟨r, hf, -⟩ := hfills role hrole
    exact List.cons_ne_nil r [] ((bearers_of_done hl hm hrole hdone hf).symm.trans hnil)
  obtain ⟨root, hf, hroot, hrootKey⟩ := hfills .accountRoot (by decide)
  obtain ⟨signing, hf', hsigning, hsigningKey⟩ := hfills .accountSigning (by decide)
  have hid : keyText? root = some keys.accountId := keyText?_of_accountKeyOf hrootKey
  obtain ⟨s₁, t₂, done₁, hadopt, hs₁, hm₁, hstep⟩ :=
    adopt_migrated hm hσ h (by decide) hf (hnew .accountRoot (by decide))
  have hsame : .accountSigning ∈ done₁ ↔ .accountSigning ∈ done := hstep.mem_iff (by decide)
  obtain ⟨s', t₃, done', hadopt', hs', hm', hstep'⟩ :=
    adopt_migrated hm₁ hσ hs₁ (by decide) ((hm.find?_eq hm₁ (by decide) hsame).trans hf')
      ((hnew .accountSigning (by decide)).trans (not_congr hsame.symm))
  refine ⟨s₁, done₁, s', t₃, done', ?_, hs', hm', hstep, hstep'⟩
  have hcomplete := completeRecords_of_adopts hσ h hone hroot hsigning (by rw [hid]; exact hadopt)
    (by rw [hid]; exact hadopt')
  rw [accountKeys_of_completed hσ h hone hcomplete]
  exact keysOf_ok_iff.mpr ⟨rfl, hrootKey, hsigningKey⟩

end Load

/-! ## Loads in a row -/

section Loads

variable {σ : Type} [Storage σ] {Reads : σ → Table → Prop} {s : σ}

/-- Loads the keys of an account a number of times. -/
def loads (space account : String) (id? : Option String) : Nat → Action σ (List AccountKeys)
  | 0 => return []
  | n + 1 => do
    let keys ← accountKeys space account id?
    return keys :: (← loads space account id? n)

theorem loads_succ {id? : Option String} {n : Nat} {s₁ s₂ : σ}
    (h : accountKeys space account id? s = .ok keys s₁)
    (hn : loads space account id? n s₁ = .ok (List.replicate n keys) s₂) :
    loads space account id? (n + 1) s = .ok (List.replicate (n + 1) keys) s₂ :=
  (bind_of_ok h).trans ((bind_of_ok hn).trans rfl)

/-- The migration survives every failure of an update. From wherever it stands, any number of loads
return the same keys, whichever of their updates fail. Each update that succeeds makes its role one
of those that are done, and no record that has got its labels loses them. Once both have got them,
loads touch nothing, and the two records carry their own role, the id and the mark of ownership,
with the data and the owner that they always had. -/
theorem loads_migrate (hσ : Storage.Readable σ Reads) (hl : Legacy t space account keys)
    (hm : Migrated t space account keys.accountId done t₁) (h : Reads s t₁) (n : Nat) :
    ∃ s' t₂ done', loads space account (some keys.accountId) n s = .ok (List.replicate n keys) s' ∧
      Reads s' t₂ ∧ done ⊆ done' ∧ Migrated t space account keys.accountId done' t₂ ∧
      LabelSteps space account keys.accountId n (s, done) (s', done') ∧
      ((∀ role ∈ keyRoles, role ∈ done) → s' = s ∧ ∀ role ∈ keyRoles, ∃ r r',
        t.find? ⟨space, fixedName account role⟩ = some r ∧
        t₁.find? ⟨space, fixedName account role⟩ = some r' ∧
        Labelled role keys.accountId r r') := by
  have hcarry : (∀ role ∈ keyRoles, role ∈ done) → ∀ role ∈ keyRoles, ∃ r r',
      t.find? ⟨space, fixedName account role⟩ = some r ∧
      t₁.find? ⟨space, fixedName account role⟩ = some r' ∧ Labelled role keys.accountId r r' := by
    intro hdone role hrole
    obtain ⟨r, hf, -, -, -⟩ := hl.held role hrole
    refine ⟨r, _, hf, ?_, labelled_takenOn role keys.accountId r⟩
    rw [hm.labelled role hrole (hdone role hrole), hf, Option.map_some]
  suffices hruns : ∀ {s : σ} {t₁ : Table} {done : Set Role},
      Migrated t space account keys.accountId done t₁ → Reads s t₁ → ∃ s' t₂ done',
        loads space account (some keys.accountId) n s = .ok (List.replicate n keys) s' ∧
        Reads s' t₂ ∧ Migrated t space account keys.accountId done' t₂ ∧
        LabelSteps space account keys.accountId n (s, done) (s', done') by
    obtain ⟨s', t₂, done', hload, hs', hm', hsteps⟩ := hruns hm h
    refine ⟨s', t₂, done', hload, hs', hsteps.subset, hm', hsteps, fun hdone => ?_⟩
    exact ⟨congrArg Prod.fst (hsteps.eq_of_mem hdone), hcarry hdone⟩
  clear hm h hcarry
  induction n with
  | zero =>
    intro s t₁ done hm h
    exact ⟨s, t₁, done, rfl, h, hm, .none _⟩
  | succ n ih =>
    intro s t₁ done hm h
    obtain ⟨_, _, s₁, t₂, done₁, hload, hs₁, hm₁, hroot, hsigning⟩ :=
      accountKeys_migrated hl hm hσ h
    obtain ⟨s₂, t₃, done₂, hloads, hs₂, hm₂, hsteps⟩ := ih hm₁ hs₁
    exact ⟨s₂, t₃, done₂, loads_succ hload hloads, hs₂, hm₂, .load hroot hsigning hsteps⟩

end Loads

theorem legacy_withFixed (hs : keys.Sound) (hnone : ∀ r ∈ t.records, r.space = space →
    r.labels.get? Label.accountId ≠ some keys.accountId) :
    Legacy (withFixed t space account keys) space account keys where
  held role hrole := ⟨fixedRecord space account keys role,
    find?_withFixed t space account keys hrole,
    accountKeyOf_ok_iff.mp (accountKeyOf_of_data hs hrole rfl), rfl, rfl⟩
  sole r hr hspace hid := by
    rcases mem_withFixed hr with hr | ⟨role, -, rfl⟩
    · exact absurd hid (hnone r hr hspace)
    · exact nomatch hid

theorem migrated_none (t : Table) (space account id : String) :
    Migrated t space account id ∅ t where
  labelled _ _ hdone := absurd hdone (Set.notMem_empty _)
  rest _ _ := rfl

/-- Two keys of an account. -/
def oldKeys : AccountKeys where
  root := .ofSeed .account (List.replicate 32 1)
  signing := .ofSeed .account (List.replicate 32 2)

theorem sound_oldKeys : oldKeys.Sound :=
  forall_keyRoles (keyOfSeedFor_ofSeed .account rfl (by decide))
    (keyOfSeedFor_ofSeed .account rfl (by decide))

/-- A table with the two keys at their fixed names, where the first update of the signing record
fails. -/
def oldShop : Faulty Table where
  faults := [⟨.update, "orders-ac-sign", .once⟩]
  inner := withFixed {} "shop" "orders" oldKeys

/-- The first of three loads labels the root alone, and the second one the signing key too. -/
theorem done_of_steps_oldShop {id : String} {s' : Faulty Table} {done' : Set Role}
    (h : LabelSteps "shop" "orders" id 3 (oldShop, ∅) (s', done')) :
    ∀ role ∈ keyRoles, role ∈ done' := by
  obtain _ | ⟨root, signing, rest⟩ := h
  cases root with
  | settled h => exact absurd h (Set.notMem_empty _)
  | refused _ hu => exact nomatch hu
  | labelled _ hu =>
    obtain ⟨-, rfl⟩ := EStateM.Result.ok.inj hu
    cases signing with
    | settled h => exact nomatch h
    | labelled _ hu => exact nomatch hu
    | refused _ hu =>
      obtain ⟨-, rfl⟩ := EStateM.Result.error.inj hu
      obtain _ | ⟨root, signing, rest⟩ := rest
      obtain rfl := root.eq_of_mem (Set.mem_insert _ _)
      cases signing with
      | settled h => exact nomatch h
      | refused _ hu => exact nomatch hu
      | labelled =>
        have hkept := rest.subset
        exact forall_keyRoles (hkept (by simp)) (hkept (by simp))

/-- Three loads in a row return the same keys, and after them both records are labelled. -/
theorem loads_migrate_oldShop : ∃ s' done', loads "shop" "orders" (some oldKeys.accountId) 3 oldShop =
      .ok [oldKeys, oldKeys, oldKeys] s' ∧
    LabelSteps "shop" "orders" oldKeys.accountId 3 (oldShop, ∅) (s', done') ∧
    ∀ role ∈ keyRoles, role ∈ done' := by
  have hlegacy : Legacy (withFixed {} "shop" "orders" oldKeys) "shop" "orders" oldKeys :=
    legacy_withFixed sound_oldKeys fun r hr => absurd hr List.not_mem_nil
  obtain ⟨s', -, done', hload, -, -, -, hsteps, -⟩ := loads_migrate
    (Faulty.readable Table.readable) hlegacy
    (migrated_none _ "shop" "orders" oldKeys.accountId) (s := oldShop) ⟨rfl, by decide⟩ 3
  exact ⟨s', done', hload, hsteps, done_of_steps_oldShop hsteps⟩

end CredentialEngine.Keyring
