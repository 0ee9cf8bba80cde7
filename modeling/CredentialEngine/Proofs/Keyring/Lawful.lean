import CredentialEngine.Proofs.Keyring.Holding
import CredentialEngine.Proofs.Secret.Deletion

/-!
# The keyring on any lawful storage

What the keyring reads is in the table that the storage shows, and what it writes is in the next
one. Loading the keys of an account keeps every record in place with its data, whichever of the
labellings on the way succeed, so the records that the keys came from still hold them afterwards.
-/
namespace CredentialEngine.Keyring.Lawful

open Secret CredentialEngine.Action

variable {σ : Type} [Storage σ] [LawfulStorage σ] {s : σ} {t t' : Table}
  {space account id : String} {loc : Location}

/-! ## Writing -/

/-- A record that a write has left: managed, with its labels and its data. -/
structure Written (loc : Location) (l : Labels) (d : Dict String) (r : Record) : Prop where
  location : r.location = loc
  data : r.data = d
  managed : l.get? Label.managed = none → r.isManaged = true
  labels : ∀ k v, k ≠ Label.managed → l.get? k = some v → r.labels.get? k = some v

theorem written_fresh (owner : Option Owner) (loc : Location) (l : Labels) (d : Dict String) :
    Written loc l d (fresh owner loc l d) where
  location := rfl
  data := rfl
  managed _ := isManaged_fresh owner loc l d
  labels k v hk hv := by
    rw [fresh, Dict.get?_insert_of_ne _ _ hk, hv]

theorem written_revised {r : Record} (hm : r.isManaged = true) (l : Labels) (d : Dict String) :
    Written r.location l d (revised r l d) where
  location := rfl
  data := rfl
  managed hl := (isManaged_revised hl r d).trans hm
  labels k v _ hv := by
    rw [revised, Dict.get?_overlay, hv, Option.some_or]

theorem ends_put (h : Shows s t) (owner : Option Owner) (loc : Location) (l : Labels)
    (d : Dict String) :
    Ends (put owner loc l d) (fun _ s' => ∃ r, Shows s' (t.put r) ∧ Written loc l d r) (Shows · t)
      s := by
  refine ends_bind (ends_attempt ((ends_get h loc).mono (fun r s' hr => ?_) fun s' hs => ⟨?_, hs⟩))
  · obtain ⟨hf, hs⟩ := hr
    obtain ⟨-, rfl⟩ := Table.found hf
    by_cases hm : r.isManaged = true
    · simp only [hm, if_true]
      refine ends_within ((ends_update hs (revised r l d)).mono (fun _ s'' hs => ?_) fun _ hs => hs)
      exact ⟨_, hs.2, written_revised hm l d⟩
    · simp only [hm]
      exact ends_fail hs
  · intro e
    by_cases hn : e.isNotFound = true
    · simp only [hn, if_true]
      refine ends_within ((ends_create hs (fresh owner loc l d)).mono (fun _ s'' hs => ?_)
        fun _ hs => hs)
      exact ⟨_, hs.2, written_fresh owner loc l d⟩
    · simp only [hn]
      exact ends_fail hs

/-- A record without the mark of ownership is not overwritten. -/
theorem ends_put_unmanaged (h : Shows s t) {r : Record} (hr : t.find? loc = some r)
    (hm : r.isManaged = false) (owner : Option Owner) (l : Labels) (d : Dict String) :
    Ends (put owner loc l d) (fun _ _ => False) (Shows · t) s := by
  refine ends_bind (ends_attempt ((ends_get h loc).mono (fun r' s' hg => ?_) fun s' hs => ⟨?_, hs⟩))
  · obtain ⟨hf, hs⟩ := hg
    obtain rfl := Option.some.inj (hr.symm.trans hf)
    simp only [hm]
    exact ends_fail hs
  · intro e
    by_cases hn : e.isNotFound = true
    · simp only [hn, if_true]
      refine ends_within ((ends_create hs (fresh owner loc l d)).mono (fun _ _ hc => ?_)
        fun _ hs => hs)
      exact nomatch hr.symm.trans hc.1
    · simp only [hn]
      exact ends_fail hs

/-- An absent record counts as deleted, so afterwards there is none at the location. The mark of
ownership is not looked at. -/
theorem ends_remove {σ : Type} [Storage σ] [LawfulDeletion σ] {s : σ} (h : Shows s t)
    (loc : Location) :
    Ends (remove loc) (fun _ s' => Shows s' (t.keep fun r => r.location ≠ loc)) (Shows · t) s := by
  refine ends_bind ((ends_delete h loc).mono (fun outcome s' hd => ?_) fun _ hs => hs)
  cases outcome with
  | ok _ => exact ends_pure hd.2
  | error e =>
    by_cases hn : e.isNotFound = true
    · simp only [hn, if_true]
      refine ends_pure ?_
      rw [Table.keep_of_absent (hd.2 hn)]
      exact hd.1
    · simp only [hn]
      exact ends_fail hd.1

theorem isKeyRecord_of_written {keys : AccountKeys} {role : Role} {r : Record}
    (h : Written loc (keyLabels role keys.accountId) (keyData (keys.ofRole role)) r) :
    IsKeyRecord keys role r where
  hasRole := h.labels _ _ (by decide) (role_keyLabels role keys.accountId)
  hasId := h.labels _ _ (by decide) (id_keyLabels role keys.accountId)
  hasData := h.data

/-- Storing new keys leaves the record of each. -/
theorem ends_storeAccountKeys {keys : AccountKeys} (h : Shows s t) :
    Ends (storeAccountKeys space account keys)
      (fun _ s' => ∃ t', Shows s' t' ∧ ∀ role ∈ keyRoles, ∃ r,
        t'.find? (keyLocation space account keys role) = some r ∧ IsKeyRecord keys role r)
      (fun s' => ∃ t', Shows s' t') s := by
  have hapart : keyLocation space account keys .accountSigning ≠
      keyLocation space account keys .accountRoot := fun he =>
    keyName_root_ne_signing account keys.accountId (congrArg Location.name he).symm
  refine ends_bind ((ends_put h none (keyLocation space account keys .accountRoot)
    (keyLabels .accountRoot keys.accountId) (keyData (keys.ofRole .accountRoot))).mono
      (fun _ s₁ hroot => ?_) fun _ hs => ⟨t, hs⟩)
  obtain ⟨root, hs₁, hroot⟩ := hroot
  refine (ends_put hs₁ none (keyLocation space account keys .accountSigning)
    (keyLabels .accountSigning keys.accountId) (keyData (keys.ofRole .accountSigning))).mono
      (fun _ s₂ hsigning => ?_) fun _ hs => ⟨_, hs⟩
  obtain ⟨signing, hs₂, hsigning⟩ := hsigning
  refine ⟨_, hs₂, fun role hrole => ?_⟩
  rcases List.mem_cons.mp hrole with rfl | hrole
  · refine ⟨root, ?_, isKeyRecord_of_written hroot⟩
    rw [Table.find?_put, hsigning.location, if_neg hapart, Table.find?_put, hroot.location]
    exact if_pos rfl
  · obtain rfl := List.mem_singleton.mp hrole
    refine ⟨signing, ?_, isKeyRecord_of_written hsigning⟩
    rw [Table.find?_put, hsigning.location]
    exact if_pos rfl

/-! ## The operator's key -/

/-- The key is read from the one and only record of its role in the namespace. -/
structure OperatorHolds (t : Table) (space : String) (r : Record) (pair : Key.Pair) : Prop where
  single : ∀ r', r' ∈ t.records ∧ r'.space = space ∧
    r'.labels.get? Label.secretRole = some Role.operatorSigning.text ↔ r' = r
  holds : ∃ seed, r.value? seedKey = some seed ∧ keyOfSeedFor Key.operatorLead seed = .ok pair

theorem ends_single (h : Shows s t) (space : String) (role : Role) :
    Ends (single space role)
      (fun r s' => Shows s' t ∧ t.selected space (labels [(Label.secretRole, role.text)]) = [r])
      (Shows · t) s := by
  refine ends_bind ((ends_list h space _).mono (fun rs s' hr => ?_) fun _ hs => hs)
  obtain ⟨hrs, hs⟩ := hr
  split
  · exact ends_pure ⟨hs, hrs.symm⟩
  · exact ends_fail hs
  · exact ends_fail hs

/-- Reading the operator's key changes nothing. -/
theorem ends_operatorKey (h : Shows s t) (space : String) :
    Ends (operatorKey space) (fun pair s' => Shows s' t ∧ ∃ r, OperatorHolds t space r pair)
      (Shows · t) s := by
  refine ends_bind ((ends_single h space _).mono (fun r s' hr => ?_) fun _ hs => hs)
  obtain ⟨hs, hsingle⟩ := hr
  have hmem : ∀ r', r' ∈ t.records ∧ r'.space = space ∧
      r'.labels.get? Label.secretRole = some Role.operatorSigning.text ↔ r' = r := by
    intro r'
    have hone : r' = r ↔ r' ∈ [r] := List.mem_singleton.symm
    rw [hone, ← hsingle, Table.mem_selected, selectedBy_label]
  cases hv : r.value? seedKey with
  | none => exact ends_fail hs
  | some seed =>
    exact ends_within (ends_ofExcept (fun pair hk => ⟨hs, r, hmem, seed, hv, hk⟩) hs)

/-! ## The keys of an account -/

/-- Every record is still at its place with its data, whatever its labels are. -/
def Retains (t t' : Table) : Prop :=
  ∀ loc r, t.find? loc = some r → ∃ r', t'.find? loc = some r' ∧ r'.data = r.data

theorem Retains.refl (t : Table) : Retains t t :=
  fun _ r hf => ⟨r, hf, rfl⟩

theorem Retains.trans {t'' : Table} (h : Retains t t') (h' : Retains t' t'') : Retains t t'' := by
  intro loc r hf
  obtain ⟨r', hf', hd⟩ := h loc r hf
  obtain ⟨r'', hf'', hd'⟩ := h' loc r' hf'
  exact ⟨r'', hf'', hd'.trans hd⟩

theorem retains_relabelled {r : Record} (hf : t.find? loc = some r) (l : Labels) :
    Retains t (t.put { r with labels := l }) := by
  intro loc' r' hf'
  have hloc : ({ r with labels := l } : Record).location = loc := (Table.found hf).2
  rw [Table.find?_put, hloc]
  by_cases he : loc = loc'
  · subst he
    obtain rfl := Option.some.inj (hf.symm.trans hf')
    exact ⟨_, if_pos rfl, rfl⟩
  · exact ⟨r', (if_neg he).trans hf', rfl⟩

/-- The storage shows a table that has every record of the given one with its data. -/
def Keeping (t : Table) (s : σ) : Prop :=
  ∃ t', Shows s t' ∧ Retains t t'

/-- A table after records at the fixed names of an account were labelled or left as they were. -/
structure Adopted (space account : String) (t t' : Table) : Prop where
  retains : Retains t t'
  apart : ∀ loc, (∀ role ∈ keyRoles, loc ≠ ⟨space, fixedName account role⟩) →
    t'.find? loc = t.find? loc
  absent : ∀ loc, t.find? loc = none → t'.find? loc = none

theorem Adopted.refl (space account : String) (t : Table) : Adopted space account t t :=
  ⟨.refl t, fun _ _ => rfl, fun _ h => h⟩

theorem Adopted.trans {t'' : Table} (h : Adopted space account t t')
    (h' : Adopted space account t' t'') : Adopted space account t t'' :=
  ⟨h.retains.trans h'.retains, fun loc ha => (h'.apart loc ha).trans (h.apart loc ha),
    fun loc hn => h'.absent loc (h.absent loc hn)⟩

/-- Two tables have records at the same places and with the same data, whatever their labels are. -/
def SameData (t t' : Table) : Prop :=
  ∀ loc, (t'.find? loc).map (·.data) = (t.find? loc).map (·.data)

theorem Adopted.sameData (h : Adopted space account t t') : SameData t t' := by
  intro loc
  cases hf : t.find? loc with
  | none => rw [h.absent loc hf]
  | some r =>
    obtain ⟨r', hf', hd⟩ := h.retains loc r hf
    rw [hf', Option.map_some, Option.map_some, hd]

theorem adopted_relabelled {role : Role} (hrole : role ∈ keyRoles) {r : Record}
    (hf : t.find? ⟨space, fixedName account role⟩ = some r) (l : Labels) :
    Adopted space account t (t.put { r with labels := l }) := by
  have hloc : ({ r with labels := l } : Record).location = ⟨space, fixedName account role⟩ :=
    (Table.found hf).2
  refine ⟨retains_relabelled hf l, fun loc ha => ?_, fun loc hn => ?_⟩
  · rw [Table.find?_put, hloc, if_neg (ha role hrole).symm]
  · have hother : (⟨space, fixedName account role⟩ : Location) ≠ loc := by
      rintro rfl
      rw [hf] at hn
      contradiction
    rw [Table.find?_put, hloc, if_neg hother, hn]

/-- The storage shows a table in which records at most were taken on for an account. -/
def Adopting (space account : String) (t : Table) (s : σ) : Prop :=
  ∃ t', Shows s t' ∧ Adopted space account t t'

theorem adopting_of_shows (h : Shows s t) : Adopting space account t s :=
  ⟨t, h, .refl space account t⟩

theorem Adopting.trans (h : Adopted space account t t') (h' : Adopting space account t' s) :
    Adopting space account t s := by
  obtain ⟨t'', hs, ha⟩ := h'
  exact ⟨t'', hs, h.trans ha⟩

theorem Adopting.keeping (h : Adopting space account t s) : Keeping t s := by
  obtain ⟨t', hs, ha⟩ := h
  exact ⟨t', hs, ha.retains⟩

/-- Taking a record on labels it or leaves it as it was, whether the labelling succeeds or not. -/
theorem ends_adopt (h : Shows s t) {slot : Record × Bool} {role : Role} (hrole : role ∈ keyRoles)
    (hslot : slot.2 = true → slot.1.location = ⟨space, fixedName account role⟩)
    (key? : Option String) :
    Ends (adopt slot role key?) (fun _ s' => Adopting space account t s') (Adopting space account t)
      s := by
  unfold adopt
  split
  · rename_i hnew
    rw [hslot hnew]
    refine ends_bind (ends_attempt (ends_bind ?_))
    refine (ends_get h ⟨space, fixedName account role⟩).mono (fun r s' hr => ?_) fun s' hs => ?_
    · obtain ⟨hf, hs⟩ := hr
      refine (ends_update hs _).mono (fun _ s'' hs => ends_pure ?_) fun s'' hs => ?_
      · exact ⟨_, hs.2, adopted_relabelled hrole hf _⟩
      · exact ⟨fun _ => ends_pure (adopting_of_shows hs), adopting_of_shows hs⟩
    · exact ⟨fun _ => ends_pure (adopting_of_shows hs), adopting_of_shows hs⟩
  · exact ends_pure (adopting_of_shows h)

theorem ends_lookUp (h : Shows s t) (loc : Location) :
    Ends (lookUp loc) (fun found s' => Shows s' t ∧ ∀ r, found = .ok r → t.find? loc = some r)
      (Shows · t) s := by
  have hget := ends_get h loc
  have hnone : ∀ (e : Error) (r : Record), Except.error e = Except.ok r → t.find? loc = some r := by
    intro e r he
    contradiction
  unfold Ends at hget ⊢
  rw [lookUp]
  cases hr : Storage.get loc s with
  | ok r s' =>
    rw [hr] at hget
    refine ⟨hget.2, fun r' he => ?_⟩
    rw [← Except.ok.inj he]
    exact hget.1
  | error e s' =>
    rw [hr] at hget
    cases e with
    | failed e => exact ⟨hget, hnone e⟩
    | stalled => exact hget
    | crashed => exact ⟨hget, hnone _⟩

/-- The record is marked for a role of the account: by its labels, or by its name. -/
def IsFor (account id : String) (role : Role) (r : Record) : Prop :=
  r.role? = some role ∧ r.labels.get? Label.accountId = some id ∨ r.name = fixedName account role

/-- A record of the namespace that is marked for a role of the account. -/
structure Chosen (t : Table) (space account id : String) (role : Role) (r : Record) : Prop where
  mem : r ∈ t.records
  space_eq : r.space = space
  isFor : IsFor account id role r

/-- The source of a role is marked for it. -/
theorem chosen_of_source {role : Role} {r : Record} (h : source? t space account id role = some r) :
    Chosen t space account id role r := by
  rcases Option.or_eq_some_iff.mp h with hfirst | ⟨-, hf⟩
  · obtain ⟨hm, hrole⟩ := firstLabelled_mem hfirst
    obtain ⟨hm, hspace, hid⟩ := mem_labelled.mp hm
    exact ⟨hm, hspace, .inl ⟨hrole, hid⟩⟩
  · obtain ⟨hm, hloc⟩ := Table.found hf
    exact ⟨hm, congrArg Location.space hloc, .inr (congrArg Location.name hloc)⟩

/-- What fills the slot of a role is its source, and one that is newly taken on has the fixed
name. -/
theorem source_of_filled {role : Role} {fixed : Except Error Record} {slot : Record × Bool}
    (hfixed : ∀ r, fixed = .ok r → t.find? ⟨space, fixedName account role⟩ = some r)
    (h : fill (firstLabelled t space id role) fixed = .ok slot) :
    source? t space account id role = some slot.1 ∧
      (slot.2 = true → slot.1.location = ⟨space, fixedName account role⟩) := by
  rw [source?]
  rcases fill_ok h with ⟨hfirst, hold⟩ | ⟨hnone, hf, -⟩
  · rw [hfirst, Option.some_or]
    exact ⟨rfl, fun hnew => absurd (hold.symm.trans hnew) (by decide)⟩
  · rw [hnone, Option.none_or]
    exact ⟨hfixed _ hf, fun _ => (Table.found (hfixed _ hf)).2⟩

theorem ends_completeRecords (h : Shows s t) :
    Ends (completeRecords space account (firstLabelled t space id .accountRoot)
        (firstLabelled t space id .accountSigning))
      (fun p s' => Adopting space account t s' ∧
        source? t space account id .accountRoot = some p.1 ∧
        source? t space account id .accountSigning = some p.2) (Adopting space account t) s := by
  unfold completeRecords
  refine ends_bind ((ends_lookUp h _).mono (fun fixedRoot s₁ hr => ?_)
    fun _ hs => adopting_of_shows hs)
  obtain ⟨hs₁, hfixedRoot⟩ := hr
  refine ends_bind ((ends_lookUp hs₁ _).mono (fun fixedSigning s₂ hr => ?_)
    fun _ hs => adopting_of_shows hs)
  obtain ⟨hs₂, hfixedSigning⟩ := hr
  split
  · rename_i slot slot' hslot hslot'
    obtain ⟨hsource, hloc⟩ := source_of_filled hfixedRoot hslot
    obtain ⟨hsource', hloc'⟩ := source_of_filled hfixedSigning hslot'
    refine ends_bind ((ends_adopt hs₂ (by decide) hloc _).mono (fun _ s₃ ha => ?_) fun _ ha => ha)
    obtain ⟨t₁, hs₃, hadopted⟩ := ha
    refine ends_bind ((ends_adopt hs₃ (by decide) hloc' _).mono (fun _ s₄ ha => ?_) fun _ ha => ?_)
    · exact ends_pure ⟨.trans hadopted ha, hsource, hsource'⟩
    · exact .trans hadopted ha
  · exact ends_fail (adopting_of_shows hs₂)
  · exact ends_fail (adopting_of_shows hs₂)
  · exact ends_fail (adopting_of_shows hs₂)

theorem ends_labelledRecords (h : Shows s t) (space id : String) :
    Ends (labelledRecords space (some id)) (fun rs s' => rs = labelled t space id ∧ Shows s' t)
      (Shows · t) s :=
  ends_list h space _

/-- The keys come from records of the table that are marked for them. -/
structure Loaded (t : Table) (space account id : String) (keys : AccountKeys) : Prop where
  root : ∃ r, Chosen t space account id .accountRoot r ∧ accountKeyOf r = .ok keys.root
  signing : ∃ r, Chosen t space account id .accountSigning r ∧ accountKeyOf r = .ok keys.signing

/-- The keys are read from the sources of their roles. -/
def Sourced (t : Table) (space account id : String) (keys : AccountKeys) : Prop :=
  ∀ role ∈ keyRoles, ∃ r, source? t space account id role = some r ∧
    accountKeyOf r = .ok (keys.ofRole role)

theorem Sourced.loaded {keys : AccountKeys} (h : Sourced t space account id keys) :
    Loaded t space account id keys := by
  obtain ⟨root, hroot, hrootKey⟩ := h .accountRoot (by decide)
  obtain ⟨signing, hsigning, hsigningKey⟩ := h .accountSigning (by decide)
  exact ⟨⟨root, chosen_of_source hroot, hrootKey⟩, ⟨signing, chosen_of_source hsigning, hsigningKey⟩⟩

/-- The keys that two records hold. -/
def keysOf (root signing : Record) : Action σ AccountKeys := do
  let root ← Action.ofExcept (accountKeyOf root)
  let signing ← Action.ofExcept (accountKeyOf signing)
  return ⟨root, signing⟩

theorem ends_keysOf {root signing : Record} (ha : Adopting space account t s)
    (hroot : source? t space account id .accountRoot = some root)
    (hsigning : source? t space account id .accountSigning = some signing) :
    Ends (keysOf root signing)
      (fun keys s' => Adopting space account t s' ∧ Sourced t space account id keys)
      (Adopting space account t) s := by
  refine ends_bind (ends_ofExcept (fun rootKey hrootKey => ?_) ha)
  refine ends_bind (ends_ofExcept (fun signingKey hsigningKey => ?_) ha)
  refine ends_pure ⟨ha, fun role hrole => ?_⟩
  rcases List.mem_cons.mp hrole with rfl | hrole
  · exact ⟨root, hroot, hrootKey⟩
  · obtain rfl := List.mem_singleton.mp hrole
    exact ⟨signing, hsigning, hsigningKey⟩

/-- Loading the keys of an account reads them from their sources, and takes records on at most. -/
theorem ends_accountKeys_sourced (h : Shows s t) (space account id : String) :
    Ends (accountKeys space account (some id))
      (fun keys s' => Adopting space account t s' ∧ Sourced t space account id keys)
      (Adopting space account t) s := by
  unfold accountKeys
  refine ends_bind ((ends_labelledRecords h space id).mono (fun rs s₁ hr => ?_)
    fun _ hs => adopting_of_shows hs)
  obtain ⟨rfl, hs₁⟩ := hr
  refine ends_bind (ends_ofExcept (fun p hp => ?_) (adopting_of_shows hs₁))
  obtain ⟨root, signing⟩ := p
  obtain ⟨hroot, hsigning⟩ := splitRecords_ok hp
  have hopen : Ends (completeRecords space account root signing >>= fun p => keysOf p.1 p.2)
      (fun keys s' => Adopting space account t s' ∧ Sourced t space account id keys)
      (Adopting space account t) s₁ := by
    rw [hroot, hsigning]
    refine ends_bind ((ends_completeRecords hs₁).mono (fun p s₂ hp => ?_) fun _ ha => ha)
    obtain ⟨ha, hsource, hsource'⟩ := hp
    exact ends_keysOf ha hsource hsource'
  -- the fixed names are looked up unless the label finds both records
  cases root with
  | none => exact hopen
  | some r =>
    cases signing with
    | none => exact hopen
    | some r' =>
      refine ends_bind (ends_pure (ends_keysOf (adopting_of_shows hs₁) ?_ ?_))
      · rw [source?, ← hroot, Option.some_or]
      · rw [source?, ← hsigning, Option.some_or]

/-- Loading the keys of an account keeps every record with its data. -/
theorem ends_accountKeys (h : Shows s t) (space account id : String) :
    Ends (accountKeys space account (some id))
      (fun keys s' => Keeping t s' ∧ Loaded t space account id keys) (Keeping t) s :=
  (ends_accountKeys_sourced h space account id).mono (fun _ _ hr => ⟨hr.1.keeping, hr.2.loaded⟩)
    fun _ ha => ha.keeping

/-! ## Seeds -/

theorem exists_ofSeed_of_keyOfSeedFor {lead : Char} {text : String} {pair : Key.Pair}
    (h : keyOfSeedFor lead text = .ok pair) : ∃ role seed, pair = Key.Pair.ofSeed role seed := by
  rw [keyOfSeedFor, keyOfSeed] at h
  cases hr : Key.Pair.ofSeedText (Text.trim text) with
  | error fault =>
    simp only [hr] at h
    cases h
  | ok p =>
    simp only [hr] at h
    split at h
    · obtain rfl := Except.ok.inj h
      exact Key.Pair.exists_ofSeed hr
    · cases h

theorem exists_ofSeed_of_accountKeyOf {r : Record} {pair : Key.Pair}
    (h : accountKeyOf r = .ok pair) : ∃ role seed, pair = Key.Pair.ofSeed role seed := by
  rw [accountKeyOf] at h
  cases hv : r.value? seedKey with
  | none =>
    rw [hv] at h
    cases h
  | some seed =>
    rw [hv] at h
    cases hk : keyOfSeedFor Key.accountLead seed with
    | error e =>
      simp only [hk] at h
      cases h
    | ok p =>
      simp only [hk] at h
      obtain rfl := Except.ok.inj h
      exact exists_ofSeed_of_keyOfSeedFor hk

/-- Whether a record holds the key of an account depends on its place and its data alone. -/
theorem accountKeyOf_congr {r r' : Record} (hl : r'.location = r.location)
    (hd : r'.data = r.data) : accountKeyOf r' = accountKeyOf r := by
  rw [accountKeyOf, accountKeyOf, Record.value?, Record.value?, hl, hd]

end CredentialEngine.Keyring.Lawful
