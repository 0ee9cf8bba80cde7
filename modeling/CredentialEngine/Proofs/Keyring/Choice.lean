import CredentialEngine.Proofs.Keyring.Lawful
import CredentialEngine.Proofs.Secret.Readable

/-!
# Which records the keys of an account are read from

Each key has a role. The record of a role is the one that bears the label of the account's id, and
only where none does, the one at the fixed name. Two bearers of one role are an error, and so is a
role that nothing fills. Records at fixed names are labelled when they are used, and that is all
that loading keys changes.
-/
namespace CredentialEngine.Keyring

open Secret CredentialEngine.Action Lawful

/-! ## The choice -/

section Choice

variable (t : Table) (space account : String) (id? : Option String)

/-- The records of a role that carry the label of an id. Where no id is known there are none. -/
def bearers (role : Role) : List Record :=
  t.records.filter fun r =>
    r.space = space ∧ id?.isSome ∧ r.labels.get? Label.accountId = id? ∧ r.role? = some role

/-- A role is borne by more than one record. -/
def Ambiguous : Prop :=
  ∃ role ∈ keyRoles, 1 < (bearers t space id? role).length

/-- The record of a role: one that bears the label, or the one at the fixed name if none does. -/
inductive Fills (role : Role) : Record → Prop
  | labelled {r : Record} (hr : r ∈ bearers t space id? role) : Fills role r
  | fixed {r : Record} (hn : bearers t space id? role = [])
    (hf : t.find? ⟨space, fixedName account role⟩ = some r) : Fills role r

/-- The roles that nothing fills, the root's first. -/
def openRoles : List Role :=
  keyRoles.filter fun role =>
    bearers t space id? role = [] ∧ t.find? ⟨space, fixedName account role⟩ = none

end Choice

/-- The record holds the seed of an account's key. -/
def HoldsAccountKey (r : Record) (pair : Key.Pair) : Prop :=
  ∃ seed, r.value? seedKey = some seed ∧ Key.Pair.ofSeedText (Text.trim seed) = .ok pair ∧
    pair.role = .account

variable {t t' : Table} {space account : String} {id? : Option String} {role : Role} {r : Record}

theorem mem_bearers : r ∈ bearers t space id? role ↔ r ∈ t.records ∧ r.space = space ∧
    id?.isSome ∧ r.labels.get? Label.accountId = id? ∧ r.role? = some role := by
  rw [bearers, List.mem_filter, decide_eq_true_eq]

theorem bearers_eq_singleton (h : ∀ r', r' ∈ bearers t space id? role ↔ r' = r) :
    bearers t space id? role = [r] := by
  have hnodup : (bearers t space id? role).Nodup := (List.Nodup.of_map _ t.distinct).filter _
  refine List.perm_singleton.mp
    ((List.perm_ext_iff_of_nodup hnodup (List.nodup_singleton r)).mpr fun r' => ?_)
  rw [List.mem_singleton, h]

theorem mem_openRoles : role ∈ openRoles t space account id? ↔ role ∈ keyRoles ∧
    bearers t space id? role = [] ∧ t.find? ⟨space, fixedName account role⟩ = none := by
  rw [openRoles, List.mem_filter, decide_eq_true_eq]

theorem openRoles_eq (t : Table) (space account : String) (id? : Option String) :
    openRoles t space account id? =
      [.accountRoot, .accountSigning].filter (· ∈ openRoles t space account id?) := by
  refine List.filter_congr fun role hrole => ?_
  simp only [mem_openRoles, hrole, true_and]

theorem forall_keyRoles {P : Role → Prop} (hroot : P .accountRoot) (hsigning : P .accountSigning) :
    ∀ role ∈ keyRoles, P role := by
  intro role hrole
  rcases List.mem_cons.mp hrole with rfl | hrole
  · exact hroot
  · obtain rfl := List.mem_singleton.mp hrole
    exact hsigning

theorem exists_fills (hrole : role ∈ keyRoles) (h : role ∉ openRoles t space account id?) :
    ∃ r, Fills t space account id? role r := by
  cases hb : bearers t space id? role with
  | cons r rs => exact ⟨r, .labelled (hb ▸ List.mem_cons_self)⟩
  | nil =>
    cases hf : t.find? ⟨space, fixedName account role⟩ with
    | some r => exact ⟨r, .fixed hb hf⟩
    | none => exact absurd (mem_openRoles.mpr ⟨hrole, hb, hf⟩) h

/-- Where no role is borne twice, one record at most fills a role. -/
theorem fills_unique (hone : (bearers t space id? role).length ≤ 1) {r' : Record}
    (h : Fills t space account id? role r) (h' : Fills t space account id? role r') : r' = r := by
  cases h with
  | labelled hr =>
    cases h' with
    | labelled hr' =>
      obtain ⟨r₀, hb⟩ := List.length_eq_one_iff.mp
        (Nat.le_antisymm hone (List.length_pos_of_mem hr))
      rw [hb] at hr hr'
      rw [List.mem_singleton.mp hr, List.mem_singleton.mp hr']
    | fixed hn hf => exact absurd hr (hn ▸ List.not_mem_nil)
  | fixed hn hf =>
    cases h' with
    | labelled hr' => exact absurd hr' (hn ▸ List.not_mem_nil)
    | fixed hn' hf' => exact Option.some.inj (hf'.symm.trans hf)

theorem length_bearers_le (hone : ¬ Ambiguous t space id?) (hrole : role ∈ keyRoles) :
    (bearers t space id? role).length ≤ 1 :=
  Nat.not_lt.mp fun htwice => hone ⟨role, hrole, htwice⟩

/-! ## The label -/

/-- The records that the label of an id finds. -/
def labelledFor (t : Table) (space : String) : Option String → List Record
  | some id => labelled t space id
  | none => []

/-- Among the records that the label finds, those of a role are its bearers. -/
theorem perm_bearers (t : Table) (space : String) (id? : Option String) (role : Role) :
    ((labelledFor t space id?).filter fun r => r.role? = some role).Perm
      (bearers t space id? role) := by
  cases id? with
  | none =>
    have hnil : bearers t space none role = [] :=
      List.filter_eq_nil_iff.mpr fun r _ => by simp
    rw [hnil]
    exact .refl _
  | some id =>
    refine ((List.mergeSort_perm _ _).filter _).trans (.of_eq ?_)
    rw [List.filter_filter, bearers]
    refine List.filter_congr fun r _ => ?_
    rw [Bool.eq_iff_iff]
    simp only [Bool.and_eq_true, decide_eq_true_eq, beq_iff_eq, selectedBy_label,
      Option.isSome_some, true_and]
    exact ⟨fun ⟨hrole, hspace, hid⟩ => ⟨hspace, hid, hrole⟩,
      fun ⟨hspace, hid, hrole⟩ => ⟨hrole, hspace, hid⟩⟩

theorem splitRecords_of_ambiguous (h : Ambiguous t space id?) :
    splitRecords account (labelledFor t space id?) = .error (.precondition (.duplicateKeys account
      (bearers t space id? .accountRoot).length
      (bearers t space id? .accountSigning).length : Cause)) := by
  have hlength := fun role => (perm_bearers t space id? role).length_eq
  simp only [splitRecords, hlength]
  refine if_pos ?_
  obtain ⟨role, hrole, htwice⟩ := h
  rcases List.mem_cons.mp hrole with rfl | hrole
  · exact .inl htwice
  · obtain rfl := List.mem_singleton.mp hrole
    exact .inr htwice

theorem splitRecords_of_not_ambiguous (hone : ¬ Ambiguous t space id?) :
    splitRecords account (labelledFor t space id?) = .ok
      ((bearers t space id? .accountRoot).head?, (bearers t space id? .accountSigning).head?) := by
  -- a permutation of at most one record is the list itself
  have heq : ∀ role ∈ keyRoles, ((labelledFor t space id?).filter fun r => r.role? = some role) =
      bearers t space id? role := by
    intro role hrole
    have hperm := perm_bearers t space id? role
    have hle := length_bearers_le hone hrole
    cases hb : bearers t space id? role with
    | nil => exact (hb ▸ hperm).eq_nil
    | cons r rs =>
      rw [hb, List.length_cons] at hle
      obtain rfl := List.eq_nil_of_length_eq_zero (l := rs) (by omega)
      exact List.perm_singleton.mp (hb ▸ hperm)
  simp only [splitRecords, heq .accountRoot (by decide), heq .accountSigning (by decide)]
  refine if_neg ?_
  rintro (htwice | htwice)
  · exact hone ⟨.accountRoot, by decide, htwice⟩
  · exact hone ⟨.accountSigning, by decide, htwice⟩

/-! ## Slots -/

/-- What a look-up answers. -/
def found (t : Table) (loc : Location) : Except Error Record :=
  match t.find? loc with
  | some r => .ok r
  | none => .error (.secretNotFound loc)

theorem fill_of_fills (hone : (bearers t space id? role).length ≤ 1)
    (h : Fills t space account id? role r) :
    fill (bearers t space id? role).head? (found t ⟨space, fixedName account role⟩) =
      .ok (r, (bearers t space id? role).isEmpty) := by
  cases h with
  | labelled hr =>
    obtain ⟨r', hb⟩ := List.length_eq_one_iff.mp
      (Nat.le_antisymm hone (List.length_pos_of_mem hr))
    rw [hb] at hr ⊢
    rw [List.mem_singleton.mp hr]
    rfl
  | fixed hn hf =>
    rw [hn, found, hf]
    rfl

theorem fill_of_open (h : role ∈ openRoles t space account id?) :
    fill (bearers t space id? role).head? (found t ⟨space, fixedName account role⟩) =
      .error (.secretNotFound ⟨space, fixedName account role⟩) := by
  obtain ⟨-, hn, hf⟩ := mem_openRoles.mp h
  rw [hn, found, hf]
  rfl

/-- The failure of slots for which there is no record names their records. -/
theorem unfilled_notFound (account space : String) (names : List String) :
    unfilled account (names.map fun name => .secretNotFound ⟨space, name⟩) =
      .missingSecrets account ("not found: " ++ String.intercalate ", " names) := by
  have hall : (names.map fun name => Error.secretNotFound ⟨space, name⟩).all Error.isNotFound =
      true := by
    rw [List.all_map, List.all_eq_true]
    exact fun _ _ => rfl
  rw [unfilled, if_pos hall, List.filterMap_map]
  have hnames : (names.filterMap fun name => some name) = names := List.filterMap_some
  exact congrArg (fun ns => Error.missingSecrets account
    ("not found: " ++ String.intercalate ", " ns)) hnames

/-! ## Taking records on -/

/-- A record with the labels that it gets when it is taken on for a role. -/
def takenOn (role : Role) (key? : Option String) (r : Record) : Record :=
  { r with labels := r.labels.overlay (adoptionLabels role key?) }

/-- A table after records at fixed names were taken on, or not, for the roles that nothing bears. -/
structure TakenOn (t : Table) (space account : String) (id? key? : Option String) (t' : Table) :
    Prop where
  fixed : ∀ role ∈ keyRoles,
    t'.find? ⟨space, fixedName account role⟩ = t.find? ⟨space, fixedName account role⟩ ∨
      bearers t space id? role = [] ∧ t'.find? ⟨space, fixedName account role⟩ =
        (t.find? ⟨space, fixedName account role⟩).map (takenOn role key?)
  elsewhere : ∀ loc, (∀ role ∈ keyRoles, loc ≠ ⟨space, fixedName account role⟩) →
    t'.find? loc = t.find? loc

/-- The public text of the key that a record holds. -/
def keyText? (r : Record) : Option String :=
  ((r.value? seedKey).bind fun seed => (keyOfSeed seed).toOption).map Key.Pair.publicText

theorem signing_ne_root (space account : String) :
    (⟨space, fixedName account .accountSigning⟩ : Location) ≠
      ⟨space, fixedName account .accountRoot⟩ :=
  fun he => fixedName_root_ne_signing account (congrArg Location.name he).symm

theorem location_of_fills (h : Fills t space account id? role r)
    (hn : (bearers t space id? role).isEmpty = true) :
    r.location = ⟨space, fixedName account role⟩ ∧
      t.find? ⟨space, fixedName account role⟩ = some r := by
  cases h with
  | labelled hr =>
    rw [List.isEmpty_iff.mp hn] at hr
    contradiction
  | fixed _ hf => exact ⟨(Table.found hf).2, hf⟩

/-- A record is taken on for a role if nothing bears it, and otherwise everything stays. -/
def TakesOn (new : Bool) (role : Role) (key? : Option String) (r : Record) (t t' : Table) : Prop :=
  t' = t ∨ new = true ∧ t' = t.put (takenOn role key? r)

section TakesOn

variable {u u' : Table} {key? : Option String}

theorem find?_of_apart (hr : Fills t space account id? role r)
    (h : TakesOn (bearers t space id? role).isEmpty role key? r u u') {loc : Location}
    (hloc : loc ≠ ⟨space, fixedName account role⟩) : u'.find? loc = u.find? loc := by
  rcases h with rfl | ⟨hn, rfl⟩
  · rfl
  · rw [Table.find?_put]
    exact if_neg fun he => hloc (he.symm.trans (location_of_fills hr hn).1)

theorem find?_fixed (hr : Fills t space account id? role r)
    (h : TakesOn (bearers t space id? role).isEmpty role key? r u u')
    (hu : u.find? ⟨space, fixedName account role⟩ = t.find? ⟨space, fixedName account role⟩) :
    u'.find? ⟨space, fixedName account role⟩ = t.find? ⟨space, fixedName account role⟩ ∨
      bearers t space id? role = [] ∧ u'.find? ⟨space, fixedName account role⟩ =
        (t.find? ⟨space, fixedName account role⟩).map (takenOn role key?) := by
  rcases h with rfl | ⟨hn, rfl⟩
  · exact .inl hu
  · obtain ⟨hloc, hf⟩ := location_of_fills hr hn
    refine .inr ⟨List.isEmpty_iff.mp hn, ?_⟩
    rw [Table.find?_put, hf]
    exact if_pos hloc

end TakesOn

section Readable

variable {σ : Type} [Storage σ] {Reads : σ → Table → Prop} {s : σ}

/-- Taking a record on labels it or leaves everything as it was. -/
theorem adopt_readable (hσ : Storage.Readable σ Reads) (h : Reads s t) (slot : Record × Bool)
    (hf : slot.2 = true → t.find? slot.1.location = some slot.1) (role : Role)
    (key? : Option String) :
    ∃ s' t', adopt slot role key? s = .ok () s' ∧ Reads s' t' ∧ (slot.2 = false → s' = s) ∧
      TakesOn slot.2 role key? slot.1 t t' := by
  unfold adopt
  by_cases hnew : slot.2 = true
  · rw [if_pos hnew]
    have hold : slot.2 = false → ∀ s' : σ, s' = s :=
      fun he => absurd (hnew.symm.trans he) (by decide)
    have hget := hσ.get_of_some h (hf hnew)
    rcases hσ.update h (takenOn role key? slot.1) (hf hnew) with
      ⟨s', hu, hs'⟩ | ⟨e, s', hu, hs'⟩
    · refine ⟨s', _, ?_, hs', fun he => hold he s', .inr ⟨hnew, rfl⟩⟩
      exact bind_of_ok (attempt_ok ((bind_of_ok hget).trans hu))
    · refine ⟨s', t, ?_, hs', fun he => hold he s', .inl rfl⟩
      exact bind_of_ok (attempt_failed ((bind_of_ok hget).trans hu))
  · rw [if_neg hnew]
    exact ⟨s, t, rfl, h, fun _ => rfl, .inl rfl⟩

theorem lookUp_readable (hσ : Storage.Readable σ Reads) (h : Reads s t) (loc : Location) :
    lookUp loc s = .ok (found t loc) s := by
  rw [lookUp, found]
  cases hf : t.find? loc with
  | some r => rw [hσ.get_of_some h hf]
  | none => rw [hσ.get_of_none h hf]

/-- Where both roles are filled, what is left of completing them is to take their records on. -/
theorem completeRecords_of_adopts (hσ : Storage.Readable σ Reads) (h : Reads s t)
    (hone : ¬ Ambiguous t space id?) {root signing : Record}
    (hroot : Fills t space account id? .accountRoot root)
    (hsigning : Fills t space account id? .accountSigning signing) {s₁ s₂ : σ}
    (hadopt : adopt (root, (bearers t space id? .accountRoot).isEmpty) .accountRoot
      (keyText? root) s = .ok () s₁)
    (hadopt' : adopt (signing, (bearers t space id? .accountSigning).isEmpty) .accountSigning
      (keyText? root) s₁ = .ok () s₂) :
    completeRecords space account (bearers t space id? .accountRoot).head?
      (bearers t space id? .accountSigning).head? s = .ok (root, signing) s₂ := by
  unfold completeRecords
  refine (bind_of_ok (lookUp_readable hσ h _)).trans ?_
  refine (bind_of_ok (lookUp_readable hσ h _)).trans ?_
  simp only [fill_of_fills (length_bearers_le hone (by decide)) hroot,
    fill_of_fills (length_bearers_le hone (by decide)) hsigning]
  exact (bind_of_ok hadopt).trans ((bind_of_ok hadopt').trans rfl)

/-- Where both roles are filled, their records are found, and taken on where nothing bears them. -/
theorem completeRecords_of_fills (hσ : Storage.Readable σ Reads) (h : Reads s t)
    (hone : ¬ Ambiguous t space id?) {root signing : Record}
    (hroot : Fills t space account id? .accountRoot root)
    (hsigning : Fills t space account id? .accountSigning signing) :
    ∃ s' t', completeRecords space account (bearers t space id? .accountRoot).head?
        (bearers t space id? .accountSigning).head? s = .ok (root, signing) s' ∧
      Reads s' t' ∧ TakenOn t space account id? (keyText? root) t' ∧
      ((∀ role ∈ keyRoles, bearers t space id? role ≠ []) → s' = s) := by
  obtain ⟨s₁, t₁, hadopt, hs₁, hsame, hput⟩ := adopt_readable hσ h
    (root, (bearers t space id? .accountRoot).isEmpty)
    (fun hn => (location_of_fills hroot hn).1 ▸ (location_of_fills hroot hn).2)
    .accountRoot (keyText? root)
  have hother := find?_of_apart hroot hput (signing_ne_root space account)
  obtain ⟨s₂, t₂, hadopt', hs₂, hsame', hput'⟩ := adopt_readable hσ hs₁
    (signing, (bearers t space id? .accountSigning).isEmpty)
    (fun hn => (location_of_fills hsigning hn).1 ▸ (hother.trans (location_of_fills hsigning hn).2))
    .accountSigning (keyText? root)
  refine ⟨s₂, t₂, completeRecords_of_adopts hσ h hone hroot hsigning hadopt hadopt', hs₂,
    ⟨forall_keyRoles ?_ ?_, fun loc hloc => ?_⟩, fun hboth => ?_⟩
  · refine (find?_of_apart hsigning hput' (signing_ne_root space account).symm).symm ▸ ?_
    exact find?_fixed hroot hput rfl
  · exact find?_fixed hsigning hput' hother
  · rw [find?_of_apart hsigning hput' (hloc _ (by decide)),
      find?_of_apart hroot hput (hloc _ (by decide))]
  · have hlabelled : ∀ role ∈ keyRoles, (bearers t space id? role).isEmpty = false :=
      fun role hrole => Bool.eq_false_iff.mpr fun he => hboth role hrole (List.isEmpty_iff.mp he)
    exact (hsame' (hlabelled _ (by decide))).trans (hsame (hlabelled _ (by decide)))

/-- Where a role is open, nothing is taken on, and the failure names the open roles. -/
theorem completeRecords_of_open (hσ : Storage.Readable σ Reads) (h : Reads s t)
    (hone : ¬ Ambiguous t space id?) (hopen : openRoles t space account id? ≠ []) :
    completeRecords space account (bearers t space id? .accountRoot).head?
        (bearers t space id? .accountSigning).head? s =
      .error (.failed (.missingSecrets account ("not found: " ++ String.intercalate ", "
        ((openRoles t space account id?).map (fixedName account))))) s := by
  have hnamed : ∀ roles, openRoles t space account id? = roles →
      (Action.fail (unfilled account (roles.map fun role =>
        .secretNotFound ⟨space, fixedName account role⟩)) : Action σ (Record × Record)) s =
      .error (.failed (.missingSecrets account ("not found: " ++ String.intercalate ", "
        ((openRoles t space account id?).map (fixedName account))))) s := by
    rintro roles rfl
    rw [← unfilled_notFound account space, List.map_map]
    rfl
  have hfilled : ∀ role ∈ keyRoles, role ∉ openRoles t space account id? → ∃ r,
      fill (bearers t space id? role).head? (found t ⟨space, fixedName account role⟩) =
        .ok (r, (bearers t space id? role).isEmpty) := by
    intro role hrole hclosed
    obtain ⟨r, hr⟩ := exists_fills hrole hclosed
    exact ⟨r, fill_of_fills (length_bearers_le hone hrole) hr⟩
  have heq := openRoles_eq t space account id?
  unfold completeRecords
  refine (bind_of_ok (lookUp_readable hσ h _)).trans ?_
  refine (bind_of_ok (lookUp_readable hσ h _)).trans ?_
  by_cases hroot : .accountRoot ∈ openRoles t space account id?
  · by_cases hsigning : .accountSigning ∈ openRoles t space account id?
    · simp only [fill_of_open hroot, fill_of_open hsigning]
      exact hnamed [.accountRoot, .accountSigning] (heq.trans (by simp [hroot, hsigning]))
    · obtain ⟨r, hr⟩ := hfilled _ (by decide) hsigning
      simp only [fill_of_open hroot, hr]
      exact hnamed [.accountRoot] (heq.trans (by simp [hroot, hsigning]))
  · obtain ⟨r, hr⟩ := hfilled _ (by decide) hroot
    by_cases hsigning : .accountSigning ∈ openRoles t space account id?
    · simp only [fill_of_open hsigning, hr]
      exact hnamed [.accountSigning] (heq.trans (by simp [hroot, hsigning]))
    · exact absurd (heq.trans (by simp [hroot, hsigning])) hopen

/-! ## Loading -/

theorem labelledRecords_readable (hσ : Storage.Readable σ Reads) (h : Reads s t) (space : String)
    (id? : Option String) :
    labelledRecords space id? s = .ok (labelledFor t space id?) s := by
  cases id? with
  | none => rfl
  | some id => exact hσ.list h space _

theorem completeRecords_of_both (hσ : Storage.Readable σ Reads) (h : Reads s t)
    (space account : String) (root signing : Record) :
    completeRecords space account (some root) (some signing) s = .ok (root, signing) s := by
  unfold completeRecords
  refine (bind_of_ok (lookUp_readable hσ h _)).trans ?_
  exact (bind_of_ok (lookUp_readable hσ h _)).trans rfl

/-- The keys are loaded in three stages: the label's records are split, completed and read. -/
theorem accountKeys_readable (hσ : Storage.Readable σ Reads) (h : Reads s t)
    (space account : String) (id? : Option String) :
    accountKeys space account id? s =
      (Action.ofExcept (splitRecords account (labelledFor t space id?)) >>= fun p =>
        completeRecords space account p.1 p.2 >>= fun p => keysOf p.1 p.2) s := by
  unfold accountKeys
  refine (bind_of_ok (labelledRecords_readable hσ h space id?)).trans ?_
  cases splitRecords account (labelledFor t space id?) with
  | error e => rfl
  | ok p =>
    obtain ⟨root, signing⟩ := p
    cases root with
    | none => rfl
    | some r =>
      cases signing with
      | none => rfl
      | some r' =>
        change keysOf r r' s = (completeRecords space account (some r) (some r') >>= _) s
        rw [bind_of_ok (completeRecords_of_both hσ h space account r r')]

theorem accountKeys_of_ambiguous (hσ : Storage.Readable σ Reads) (h : Reads s t)
    (htwice : Ambiguous t space id?) :
    accountKeys space account id? s = .error (.failed (.precondition (.duplicateKeys account
      (bearers t space id? .accountRoot).length
      (bearers t space id? .accountSigning).length : Cause))) s := by
  rw [accountKeys_readable hσ h, splitRecords_of_ambiguous htwice]
  rfl

theorem accountKeys_of_open (hσ : Storage.Readable σ Reads) (h : Reads s t)
    (hone : ¬ Ambiguous t space id?) (hopen : openRoles t space account id? ≠ []) :
    accountKeys space account id? s =
      .error (.failed (.missingSecrets account ("not found: " ++ String.intercalate ", "
        ((openRoles t space account id?).map (fixedName account))))) s := by
  rw [accountKeys_readable hσ h, splitRecords_of_not_ambiguous hone]
  change (completeRecords space account _ _ >>= _) s = _
  exact bind_of_error (completeRecords_of_open hσ h hone hopen)

/-- Once the records are completed, what is left to do is to read their keys. -/
theorem accountKeys_of_completed (hσ : Storage.Readable σ Reads) (h : Reads s t)
    (hone : ¬ Ambiguous t space id?) {root signing : Record} {s' : σ}
    (hcomplete : completeRecords space account (bearers t space id? .accountRoot).head?
      (bearers t space id? .accountSigning).head? s = .ok (root, signing) s') :
    accountKeys space account id? s = keysOf root signing s' := by
  rw [accountKeys_readable hσ h, splitRecords_of_not_ambiguous hone]
  change (completeRecords space account _ _ >>= _) s = _
  exact bind_of_ok hcomplete

/-- Where both roles are filled, the keys of the two records are read. -/
theorem accountKeys_of_fills (hσ : Storage.Readable σ Reads) (h : Reads s t)
    (hone : ¬ Ambiguous t space id?) {root signing : Record}
    (hroot : Fills t space account id? .accountRoot root)
    (hsigning : Fills t space account id? .accountSigning signing) :
    ∃ s' t', accountKeys space account id? s = keysOf root signing s' ∧
      Reads s' t' ∧ TakenOn t space account id? (keyText? root) t' ∧
      ((∀ role ∈ keyRoles, bearers t space id? role ≠ []) → s' = s) := by
  obtain ⟨s', t', hcomplete, hs'⟩ := completeRecords_of_fills hσ h hone hroot hsigning
  exact ⟨s', t', accountKeys_of_completed hσ h hone hcomplete, hs'⟩

end Readable

/-! ## Reading the keys -/

theorem startsWith_account_iff (pair : Key.Pair) :
    Key.Pair.startsWith pair.publicText Key.accountLead = true ↔ pair.role = .account := by
  have hstart := Key.Pair.startsWith_publicText pair
  rw [Key.Pair.startsWith, beq_iff_eq] at hstart ⊢
  rw [hstart, Option.some.injEq]
  cases pair.role <;> decide

theorem keyOfSeedFor_account_iff {seed : String} {pair : Key.Pair} :
    keyOfSeedFor Key.accountLead seed = .ok pair ↔
      Key.Pair.ofSeedText (Text.trim seed) = .ok pair ∧ pair.role = .account := by
  rw [keyOfSeedFor, keyOfSeed]
  cases hp : Key.Pair.ofSeedText (Text.trim seed) with
  | error fault => simp
  | ok p =>
    simp only [Except.ok.injEq]
    by_cases hrole : p.role = .account
    · rw [if_pos ((startsWith_account_iff p).mpr hrole), Except.ok.injEq]
      exact ⟨fun he => ⟨he, he ▸ hrole⟩, fun h => h.1⟩
    · rw [if_neg fun hs => hrole ((startsWith_account_iff p).mp hs)]
      constructor
      · intro he
        contradiction
      · rintro ⟨he, ha⟩
        exact absurd (he ▸ ha) hrole

theorem accountKeyOf_ok_iff {pair : Key.Pair} :
    accountKeyOf r = .ok pair ↔ HoldsAccountKey r pair := by
  rw [accountKeyOf, HoldsAccountKey]
  cases hv : r.value? seedKey with
  | none => simp
  | some seed =>
    simp only [Option.some.injEq, exists_eq_left', ← keyOfSeedFor_account_iff]
    cases keyOfSeedFor Key.accountLead seed with
    | error e => simp [Except.mapError]
    | ok p => simp [Except.mapError]

theorem keysOf_ok_iff {σ : Type} {root signing : Record} {keys : AccountKeys} {s s' : σ} :
    keysOf root signing s = .ok keys s' ↔
      s' = s ∧ accountKeyOf root = .ok keys.root ∧ accountKeyOf signing = .ok keys.signing := by
  constructor
  · intro h
    obtain ⟨rootKey, s₁, hr, h⟩ := of_bind_ok h
    obtain ⟨signingKey, s₂, hs, hkeys⟩ := of_bind_ok h
    obtain ⟨rfl, hroot⟩ := ofExcept_ok_iff.mp hr
    obtain ⟨rfl, hsigning⟩ := ofExcept_ok_iff.mp hs
    obtain ⟨rfl, rfl⟩ := EStateM.Result.ok.inj hkeys
    exact ⟨rfl, hroot, hsigning⟩
  · rintro ⟨rfl, hroot, hsigning⟩
    unfold keysOf
    rw [hroot, hsigning]
    rfl

theorem leaves_keysOf {σ : Type} (root signing : Record) (s : σ) :
    leaves (keysOf root signing s) = s :=
  (ends_bind (ends_ofExcept (fun _ _ => ends_bind (ends_ofExcept (fun _ _ => ends_pure rfl) rfl))
    rfl) : Ends (keysOf root signing) (fun _ s' => s' = s) (· = s) s).leaves

/-! ## What loading keys does to a table -/

/-- The tables have the same records with the same data and owners, and the same labels but for
records at some places. -/
structure SameButLabels (relabels : Location → Prop) (t t' : Table) : Prop where
  data : ∀ loc, (t'.find? loc).map (fun r => (r.data, r.owner)) =
    (t.find? loc).map fun r => (r.data, r.owner)
  elsewhere : ∀ loc, ¬ relabels loc → t'.find? loc = t.find? loc

theorem SameButLabels.refl (relabels : Location → Prop) (t : Table) :
    SameButLabels relabels t t :=
  ⟨fun _ => rfl, fun _ _ => rfl⟩

/-- The places of records that are taken on: the fixed names of roles that nothing bears. -/
def AdoptedAt (t : Table) (space account : String) (id? : Option String) (loc : Location) : Prop :=
  ∃ role ∈ keyRoles, bearers t space id? role = [] ∧ loc = ⟨space, fixedName account role⟩

theorem TakenOn.sameButLabels {key? : Option String} (h : TakenOn t space account id? key? t') :
    SameButLabels (AdoptedAt t space account id?) t t' where
  data loc := by
    by_cases hloc : ∃ role ∈ keyRoles, loc = ⟨space, fixedName account role⟩
    · obtain ⟨role, hrole, rfl⟩ := hloc
      rcases h.fixed role hrole with he | ⟨-, he⟩
      · rw [he]
      · rw [he, Option.map_map]
        rfl
    · rw [h.elsewhere loc fun role hrole he => hloc ⟨role, hrole, he⟩]
  elsewhere loc hloc := by
    by_cases hfixed : ∃ role ∈ keyRoles, loc = ⟨space, fixedName account role⟩
    · obtain ⟨role, hrole, rfl⟩ := hfixed
      rcases h.fixed role hrole with he | ⟨hn, -⟩
      · exact he
      · exact absurd ⟨role, hrole, hn, rfl⟩ hloc
    · exact h.elsewhere loc fun role hrole he => hfixed ⟨role, hrole, he⟩

/-- Which records the keys come from, and how a load fails. Two bearers of a role are refused, an
open role is named, and both leave the table as it was. Otherwise each role has its record, and the
load returns exactly the keys that the two records hold. All that ever changes are labels of records
at fixed names that are taken on. -/
theorem accountKeys_chooses (t : Table) (space account : String) (id? : Option String) :
    (Ambiguous t space id? → accountKeys space account id? t =
      .error (.failed (.precondition (.duplicateKeys account
        (bearers t space id? .accountRoot).length
        (bearers t space id? .accountSigning).length : Cause))) t) ∧
    (¬ Ambiguous t space id? → openRoles t space account id? ≠ [] →
      accountKeys space account id? t =
        .error (.failed (.missingSecrets account ("not found: " ++ String.intercalate ", "
          ((openRoles t space account id?).map (fixedName account))))) t) ∧
    (¬ Ambiguous t space id? → openRoles t space account id? = [] →
      ∃ root signing, (∀ r, Fills t space account id? .accountRoot r ↔ r = root) ∧
        (∀ r, Fills t space account id? .accountSigning r ↔ r = signing) ∧
        ∀ keys, (∃ t', accountKeys space account id? t = .ok keys t') ↔
          HoldsAccountKey root keys.root ∧ HoldsAccountKey signing keys.signing) ∧
    SameButLabels (AdoptedAt t space account id?) t (leaves (accountKeys space account id? t)) := by
  have hloaded : ¬ Ambiguous t space id? → openRoles t space account id? = [] →
      ∃ root signing t', Fills t space account id? .accountRoot root ∧
        Fills t space account id? .accountSigning signing ∧
        accountKeys space account id? t = keysOf root signing t' ∧
        SameButLabels (AdoptedAt t space account id?) t t' := by
    intro hone hclosed
    have hfills : ∀ role ∈ keyRoles, ∃ r, Fills t space account id? role r :=
      fun role hrole => exists_fills hrole (hclosed ▸ List.not_mem_nil)
    obtain ⟨root, hroot⟩ := hfills .accountRoot (by decide)
    obtain ⟨signing, hsigning⟩ := hfills .accountSigning (by decide)
    obtain ⟨_, t', hkeys, rfl, htaken, -⟩ :=
      accountKeys_of_fills Table.readable rfl hone hroot hsigning
    exact ⟨root, signing, _, hroot, hsigning, hkeys, htaken.sameButLabels⟩
  have hfilled : ¬ Ambiguous t space id? → ∀ {role r}, role ∈ keyRoles →
      Fills t space account id? role r → ∀ r', Fills t space account id? role r' ↔ r' = r :=
    fun hone _ _ hrole hr r' => ⟨fills_unique (length_bearers_le hone hrole) hr, fun he => he ▸ hr⟩
  refine ⟨accountKeys_of_ambiguous Table.readable rfl, accountKeys_of_open Table.readable rfl,
    fun hone hclosed => ?_, ?_⟩
  · obtain ⟨root, signing, t', hroot, hsigning, hkeys, -⟩ := hloaded hone hclosed
    refine ⟨root, signing, hfilled hone (by decide) hroot, hfilled hone (by decide) hsigning,
      fun keys => ?_⟩
    simp only [hkeys, keysOf_ok_iff, exists_eq_left, accountKeyOf_ok_iff]
  · by_cases hone : Ambiguous t space id?
    · rw [accountKeys_of_ambiguous Table.readable rfl hone]
      exact .refl _ t
    · by_cases hclosed : openRoles t space account id? = []
      · obtain ⟨root, signing, t', -, -, hkeys, hsame⟩ := hloaded hone hclosed
        rw [hkeys, leaves_keysOf]
        exact hsame
      · rw [accountKeys_of_open Table.readable rfl hone hclosed]
        exact .refl _ t

end CredentialEngine.Keyring
