import CredentialEngine.Proofs.Keyring.Lawful

/-!
# Where keys are loaded from

Each key of an account has one source in a table: the record that the label of the account's id
finds, or else the one at the fixed name. The keys load exactly when the label finds no role twice
and both sources hold a key; otherwise the load fails.
-/
namespace CredentialEngine.Keyring

open Secret CredentialEngine.Action Lawful

variable {t : Table} {space account id : String} {keys : AccountKeys}

/-- The label of an id finds at most one record of each role. -/
def Unambiguous (t : Table) (space id : String) : Prop :=
  ∀ role ∈ keyRoles, ((labelled t space id).filter fun r => r.role? = some role).length ≤ 1

theorem splitRecords_iff {p : Option Record × Option Record} :
    splitRecords account (labelled t space id) = .ok p ↔ Unambiguous t space id ∧
      p = (firstLabelled t space id .accountRoot, firstLabelled t space id .accountSigning) := by
  simp only [splitRecords]
  split
  · rename_i htwice
    constructor
    · intro h
      contradiction
    · rintro ⟨hone, -⟩
      have hroot := hone .accountRoot (by decide)
      have hsigning := hone .accountSigning (by decide)
      omega
  · rename_i hone
    constructor
    · intro h
      refine ⟨fun role hrole => ?_, (Except.ok.inj h).symm⟩
      rcases List.mem_cons.mp hrole with rfl | hrole
      · omega
      · obtain rfl := List.mem_singleton.mp hrole
        omega
    · rintro ⟨-, rfl⟩
      rfl

/-- A record from which a key is read holds that key and no other. -/
theorem holdsKey_iff {r : Record} {pair : Key.Pair} {id : String} (h : accountKeyOf r = .ok pair) :
    HoldsKey r id ↔ pair.publicText = id := by
  rw [accountKeyOf] at h
  cases hv : r.value? seedKey with
  | none =>
    rw [hv] at h
    cases h
  | some seed =>
    have hkey : keyOfSeed seed = .ok pair := by
      simp only [hv, keyOfSeedFor] at h
      cases hk : keyOfSeed seed with
      | error e =>
        simp only [hk] at h
        cases h
      | ok p =>
        simp only [hk] at h
        split at h
        · rw [← Except.ok.inj h]
        · cases h
    constructor
    · rintro ⟨seed', pair', hv', hkey', hid⟩
      obtain rfl := Option.some.inj (hv.symm.trans hv')
      obtain rfl := Except.ok.inj (hkey.symm.trans hkey')
      exact hid
    · intro hid
      exact ⟨seed, pair, hv, hkey, hid⟩

/-! ## Loads that succeed -/

/-- A look-up at a fixed name answers with the record that is there. -/
theorem lookUp_finds (loc : Location) (t : Table) :
    ∃ found, lookUp loc t = .ok found t ∧ ∀ r, t.find? loc = some r → found = .ok r := by
  refine ⟨_, lookUp_eq loc t, fun r hr => ?_⟩
  rw [hr]

/-- A source fills the slot of its role. -/
theorem fill_of_source {role : Role} {r : Record} {found : Except Error Record}
    (hfound : ∀ r, t.find? ⟨space, fixedName account role⟩ = some r → found = .ok r)
    (h : source? t space account id role = some r) :
    ∃ new, fill (firstLabelled t space id role) found = .ok (r, new) := by
  rcases Option.or_eq_some_iff.mp h with hfirst | ⟨hnone, hf⟩
  · rw [hfirst]
    exact ⟨false, rfl⟩
  · rw [hnone, hfound r hf]
    exact ⟨true, rfl⟩

/-- Taking a record on that a table has never fails, and loses no record. -/
theorem adopt_of_found (slot : Record × Bool) (role : Role) (key? : Option String)
    (hf : ∃ r, t.find? slot.1.location = some r) :
    ∃ t', adopt slot role key? t = .ok () t' ∧
      ∀ loc r, t.find? loc = some r → ∃ r', t'.find? loc = some r' := by
  let anything : Scope := ⟨fun _ _ _ => True, fun _ _ => True, fun _ => True⟩
  obtain ⟨t', hadopt, -, hkeep⟩ := adopt_ok (s := anything) role hf fun _ => trivial
  exact ⟨t', hadopt, hkeep⟩

theorem completeRecords_of_sources {root signing : Record}
    (hroot : source? t space account id .accountRoot = some root)
    (hsigning : source? t space account id .accountSigning = some signing) :
    ∃ t', completeRecords space account (firstLabelled t space id .accountRoot)
      (firstLabelled t space id .accountSigning) t = .ok (root, signing) t' := by
  obtain ⟨fixedRoot, hlook, hfixedRoot⟩ := lookUp_finds ⟨space, fixedName account .accountRoot⟩ t
  obtain ⟨fixedSigning, hlook', hfixedSigning⟩ :=
    lookUp_finds ⟨space, fixedName account .accountSigning⟩ t
  obtain ⟨new, hfill⟩ := fill_of_source hfixedRoot hroot
  obtain ⟨new', hfill'⟩ := fill_of_source hfixedSigning hsigning
  have hfound : ∀ {role r}, source? t space account id role = some r →
      ∃ r', t.find? r.location = some r' :=
    fun h => ⟨_, Table.find?_eq_some_iff.mpr ⟨(chosen_of_source h).mem, rfl⟩⟩
  obtain ⟨t₁, hadopt, hkeep⟩ := adopt_of_found (root, new) .accountRoot
    (((root.value? seedKey).bind fun seed => (keyOfSeed seed).toOption).map Key.Pair.publicText)
    (hfound hroot)
  obtain ⟨r, hr⟩ := hfound hsigning
  obtain ⟨t₂, hadopt', -⟩ := adopt_of_found (signing, new') .accountSigning
    (((root.value? seedKey).bind fun seed => (keyOfSeed seed).toOption).map Key.Pair.publicText)
    (hkeep _ r hr)
  refine ⟨t₂, ?_⟩
  unfold completeRecords
  refine (bind_of_ok hlook).trans ?_
  refine (bind_of_ok hlook').trans ?_
  simp only [hfill, hfill']
  refine (bind_of_ok hadopt).trans ?_
  refine (bind_of_ok hadopt').trans ?_
  rfl

/-- Where the label is unambiguous, the keys that the sources hold are loaded. -/
theorem accountKeys_of_sourced (hone : Unambiguous t space id)
    (h : Sourced t space account id keys) :
    ∃ t', accountKeys space account (some id) t = .ok keys t' := by
  obtain ⟨root, hroot, hrootKey⟩ := h .accountRoot (by decide)
  obtain ⟨signing, hsigning, hsigningKey⟩ := h .accountSigning (by decide)
  have hkeys : ∀ t' : Table, keysOf root signing t' = .ok keys t' := by
    intro t'
    unfold keysOf
    rw [hrootKey, hsigningKey]
    rfl
  obtain ⟨t', hcomplete⟩ := completeRecords_of_sources hroot hsigning
  have hopen : (completeRecords space account (firstLabelled t space id .accountRoot)
      (firstLabelled t space id .accountSigning) >>= fun p => keysOf p.1 p.2) t =
        .ok keys t' := by
    refine (bind_of_ok hcomplete).trans ?_
    exact hkeys t'
  unfold accountKeys
  change ∃ t', EStateM.bind (ofExcept (splitRecords account (labelled t space id))) _ t =
    .ok keys t'
  rw [splitRecords_iff.mpr ⟨hone, rfl⟩]
  cases hfirst : firstLabelled t space id .accountRoot with
  | none =>
    rw [hfirst] at hopen
    exact ⟨t', hopen⟩
  | some r =>
    cases hfirst' : firstLabelled t space id .accountSigning with
    | none =>
      rw [hfirst, hfirst'] at hopen
      exact ⟨t', hopen⟩
    | some r' =>
      rw [source?, hfirst, Option.some_or] at hroot
      rw [source?, hfirst', Option.some_or] at hsigning
      obtain rfl := Option.some.inj hroot
      obtain rfl := Option.some.inj hsigning
      exact ⟨t, hkeys t⟩

/-- Keys that were loaded are the ones that the sources hold. -/
theorem sourced_of_accountKeys {t' : Table}
    (h : accountKeys space account (some id) t = .ok keys t') :
    Unambiguous t space id ∧ Sourced t space account id keys := by
  have hends := ends_accountKeys_sourced (show Shows t t from rfl) space account id
  refine ⟨?_, (hends.returned h).2⟩
  unfold accountKeys at h
  change EStateM.bind (ofExcept (splitRecords account (labelled t space id))) _ t = _ at h
  cases hsplit : splitRecords account (labelled t space id) with
  | ok p => exact (splitRecords_iff.mp hsplit).1
  | error e =>
    rw [hsplit] at h
    contradiction

theorem accountKeys_ok_iff :
    (∃ t', accountKeys space account (some id) t = .ok keys t') ↔
      Unambiguous t space id ∧ Sourced t space account id keys :=
  ⟨fun ⟨_, h⟩ => sourced_of_accountKeys h, fun ⟨hone, h⟩ => accountKeys_of_sourced hone h⟩

/-! ## Records without labels -/

section Unlabelled

variable (t : Table) (space account : String) (keys : AccountKeys)

/-- The record of a key as it was kept before there were labels. -/
def fixedRecord (role : Role) : Record where
  space := space
  name := fixedName account role
  data := keyData (keys.ofRole role)

/-- A table with the two keys of an account at the fixed names. -/
def withFixed : Table :=
  (t.put (fixedRecord space account keys .accountRoot)).put
    (fixedRecord space account keys .accountSigning)

theorem find?_withFixed {role : Role} (hrole : role ∈ keyRoles) :
    (withFixed t space account keys).find? ⟨space, fixedName account role⟩ =
      some (fixedRecord space account keys role) := by
  have hapart : (fixedRecord space account keys .accountSigning).location ≠
      ⟨space, fixedName account .accountRoot⟩ :=
    fun he => fixedName_root_ne_signing account (congrArg Location.name he).symm
  rw [withFixed, Table.find?_put]
  rcases List.mem_cons.mp hrole with rfl | hrole
  · rw [if_neg hapart, Table.find?_put]
    exact if_pos rfl
  · obtain rfl := List.mem_singleton.mp hrole
    exact if_pos rfl

variable {t space account keys}

theorem mem_withFixed {r : Record} (h : r ∈ (withFixed t space account keys).records) :
    r ∈ t.records ∨ ∃ role ∈ keyRoles, r = fixedRecord space account keys role := by
  rcases Table.mem_put.mp h with rfl | ⟨hm, -⟩
  · exact .inr ⟨.accountSigning, by decide, rfl⟩
  · rcases Table.mem_put.mp hm with rfl | ⟨hm, -⟩
    · exact .inr ⟨.accountRoot, by decide, rfl⟩
    · exact .inl hm

/-- Records without labels are loaded where nothing carries the label of the id, whatever id it is
that they are loaded for. -/
theorem accountKeys_withFixed (id : String) (hs : keys.Sound)
    (hnone : ∀ r ∈ t.records, r.space = space → r.labels.get? Label.accountId ≠ some id) :
    ∃ t', accountKeys space account (some id) (withFixed t space account keys) = .ok keys t' := by
  have hlabelled : labelled (withFixed t space account keys) space id = [] := by
    refine List.eq_nil_iff_forall_not_mem.mpr fun r hr => ?_
    obtain ⟨hm, hspace, hid⟩ := mem_labelled.mp hr
    rcases mem_withFixed hm with hm | ⟨role, -, rfl⟩
    · exact hnone r hm hspace hid
    · exact nomatch hid
  refine accountKeys_of_sourced (fun role _ => ?_) fun role hrole => ?_
  · rw [hlabelled]
    exact Nat.zero_le 1
  · refine ⟨fixedRecord space account keys role, ?_, accountKeyOf_of_data hs hrole rfl⟩
    rw [source?, firstLabelled, hlabelled]
    exact find?_withFixed t space account keys hrole

end Unlabelled

/-! ## Loads that fail -/

theorem settles_annotate (loc : Location) (l : Labels) (t : Table) : Settles (annotate loc l) t := by
  cases hf : t.find? loc with
  | some r =>
    intro e t' h
    rw [annotate_of_some hf] at h
    contradiction
  | none =>
    refine settles_bind (fun e t' h => ?_) fun r t' h => ?_
    · rw [get_of_none hf] at h
      obtain ⟨rfl, -⟩ := EStateM.Result.error.inj h
      exact ⟨_, rfl⟩
    · rw [get_of_none hf] at h
      contradiction

theorem settles_adopt (slot : Record × Bool) (role : Role) (key? : Option String) (t : Table) :
    Settles (adopt slot role key?) t := by
  unfold adopt
  split
  · exact settles_bind (settles_attempt (settles_annotate _ _ t)) fun _ _ _ => settles_pure _
  · exact settles_pure _

theorem settles_lookUp (loc : Location) (t : Table) : Settles (lookUp loc) t := by
  intro e t' h
  rw [lookUp_eq] at h
  contradiction

theorem settles_completeRecords (root signing : Option Record) (t : Table) :
    Settles (completeRecords space account root signing) t := by
  refine settles_bind (settles_lookUp _ t) fun fixedRoot t₁ _ => ?_
  refine settles_bind (settles_lookUp _ t₁) fun fixedSigning t₂ _ => ?_
  split
  · refine settles_bind (settles_adopt _ _ _ t₂) fun _ t₃ _ => ?_
    exact settles_bind (settles_adopt _ _ _ t₃) fun _ _ _ => settles_pure _
  · exact settles_fail _
  · exact settles_fail _
  · exact settles_fail _

/-- Loading keys from a table returns them or fails. -/
theorem settles_accountKeys (space account id : String) (t : Table) :
    Settles (accountKeys space account (some id)) t := by
  have hread : ∀ (root signing : Record) (t' : Table), Settles (keysOf root signing) t' :=
    fun root signing t' => settles_bind (settles_ofExcept _) fun _ _ _ =>
      settles_bind (settles_ofExcept _) fun _ _ _ => settles_pure _
  have hopen : ∀ (root signing : Option Record) (t' : Table),
      Settles (completeRecords space account root signing >>= fun p => keysOf p.1 p.2) t' :=
    fun root signing t' => settles_bind (settles_completeRecords root signing t')
      fun p t'' _ => hread p.1 p.2 t''
  unfold accountKeys
  refine settles_bind (fun e t' h => nomatch (Table.list_eq _ _ t).symm.trans h) fun rs t₁ _ => ?_
  refine settles_bind (settles_ofExcept _) fun p t₂ _ => ?_
  obtain ⟨root, signing⟩ := p
  cases root with
  | none => exact hopen none signing t₂
  | some r =>
    cases signing with
    | none => exact hopen (some r) none t₂
    | some r' => exact settles_bind (settles_pure _) fun _ t₃ h => hread _ _ t₃

end CredentialEngine.Keyring
