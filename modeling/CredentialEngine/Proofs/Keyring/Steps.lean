import CredentialEngine.Keyring.AccountKeys
import CredentialEngine.Proofs.Action
import CredentialEngine.Proofs.Dict
import CredentialEngine.Proofs.Secret.Table
import Mathlib.Logic.Relation

/-!
# What the keyring does to a table

The keyring changes a table by four kinds of step. A scope says which of them an operation may take;
what an operation does to the table is a sequence of steps in its scope.
-/
namespace CredentialEngine.Keyring

open Secret CredentialEngine.Action

/-- What an operation may do to records. -/
structure Scope where
  /-- It may write labels and data at a location. -/
  writes : Location → Labels → Dict String → Prop
  /-- It may add labels to the record at a location. -/
  relabels : Location → Labels → Prop
  /-- It may remove a record. -/
  removes : Record → Prop

/-- A change of one table to another within a scope. -/
inductive Step (s : Scope) : Table → Table → Prop
  | create {t : Table} {loc : Location} {l : Labels} {d : Dict String} (owner : Option Owner)
    (hn : t.find? loc = none) (hw : s.writes loc l d) : Step s t (t.put (fresh owner loc l d))
  | rewrite {t : Table} {loc : Location} {l : Labels} {d : Dict String} {r : Record}
    (hf : t.find? loc = some r) (hm : r.isManaged = true) (hw : s.writes loc l d) :
    Step s t (t.put (revised r l d))
  | relabel {t : Table} {loc : Location} {l : Labels} {r : Record} (hf : t.find? loc = some r)
    (hr : s.relabels loc l) : Step s t (t.put { r with labels := r.labels.overlay l })
  | remove {t : Table} {test : Record → Bool}
    (hr : ∀ r ∈ t.records, test r = false → s.removes r) : Step s t (t.keep test)

/-- A sequence of changes within a scope. -/
abbrev Steps (s : Scope) : Table → Table → Prop :=
  Relation.ReflTransGen (Step s)

variable {s : Scope} {t : Table}

/-! ## Single records -/

section Records

variable {loc : Location} {r : Record}

theorem get_of_some (hf : t.find? loc = some r) : Storage.get loc t = .ok r t := by
  change Table.get loc t = _
  rw [Table.get_eq, hf]

theorem get_of_none (hf : t.find? loc = none) :
    Storage.get loc t = .error (.failed (.secretNotFound loc)) t := by
  change Table.get loc t = _
  rw [Table.get_eq, hf]

theorem update_of_some {r' : Record} (hf : t.find? r'.location = some r) :
    Storage.update r' t = .ok () (t.put r') := by
  change Table.update r' t = _
  rw [Table.update_eq, hf]

theorem create_of_none (hf : t.find? r.location = none) :
    Storage.create r t = .ok () (t.put r) := by
  change Table.create r t = _
  rw [Table.create_eq, hf]

theorem isManaged_fresh (owner : Option Owner) (loc : Location) (l : Labels) (d : Dict String) :
    (fresh owner loc l d).isManaged = true := by
  rw [Record.isManaged, fresh, Dict.get?_insert_self]
  exact beq_self_eq_true _

/-- Labels that leave the mark of ownership alone keep a record as managed as it was. -/
theorem isManaged_revised {l : Labels} (hl : l.get? Label.managed = none) (r : Record)
    (d : Dict String) : (revised r l d).isManaged = r.isManaged := by
  rw [Record.isManaged, revised, Dict.get?_overlay, hl, Option.none_or, Record.isManaged]

/-- A write makes a new record where there is none and revises one that is managed. -/
theorem put_eq (owner : Option Owner) (loc : Location) (l : Labels) (d : Dict String) (t : Table) :
    put owner loc l d t =
      match t.find? loc with
      | some r =>
        if r.isManaged then .ok () (t.put (revised r l d)) else .error (.failed (.notManaged loc)) t
      | none => .ok () (t.put (fresh owner loc l d)) := by
  change EStateM.bind (attempt (Storage.get loc)) _ t = _
  cases hf : t.find? loc with
  | some r =>
    rw [EStateM.bind, attempt_ok (get_of_some hf)]
    by_cases hm : r.isManaged = true
    · have hfr : t.find? (revised r l d).location = some r := by
        rw [← hf, ← (Table.found hf).2]
        rfl
      simp only [hm, if_true]
      rw [within, update_of_some hfr]
    · simp only [hm]
      rfl
  | none =>
    rw [EStateM.bind, attempt_failed (get_of_none hf)]
    change within _ (Storage.create (fresh owner loc l d)) t = _
    rw [within, create_of_none hf]

theorem ends_put (owner : Option Owner) {l : Labels} {d : Dict String} (hw : s.writes loc l d) :
    Ends (put owner loc l d) (fun _ t' => Steps s t t') (fun t' => Steps s t t') t := by
  unfold Ends
  rw [put_eq]
  cases hf : t.find? loc with
  | some r =>
    by_cases hm : r.isManaged = true
    · simp only [hm, if_true]
      exact .single (.rewrite hf hm hw)
    · simp only [hm]
      exact .refl
  | none => exact .single (.create owner hf hw)

theorem remove_eq (loc : Location) (t : Table) :
    remove loc t = .ok () (t.keep fun r => r.location ≠ loc) := by
  have hdelete := Table.delete_eq loc t
  cases hf : t.find? loc with
  | some r =>
    rw [hf] at hdelete
    exact (bind_of_ok (attempt_ok hdelete)).trans rfl
  | none =>
    rw [hf] at hdelete
    rw [Table.keep_of_absent hf]
    exact (bind_of_ok (attempt_failed hdelete)).trans rfl

theorem ends_remove (loc : Location) (hr : ∀ r, r.location = loc → s.removes r) :
    Ends (remove loc) (fun _ t' => Steps s t t') (fun t' => Steps s t t') t := by
  refine ends_ok (remove_eq loc t) (.single (.remove fun r _ ht => hr r ?_))
  exact Decidable.not_not.mp (of_decide_eq_false ht)

theorem ends_deleteSelected (space : String) (selector : Labels)
    (hr : ∀ r : Record, r.space = space → r.selectedBy selector = true → s.removes r) :
    Ends (Storage.deleteSelected space selector) (fun _ t' => Steps s t t') (fun t' => Steps s t t')
      t := by
  refine ends_ok (Table.deleteSelected_eq space selector t) (.single (.remove fun r _ ht => ?_))
  rw [Bool.not_eq_false', Bool.and_eq_true, beq_iff_eq] at ht
  exact hr r ht.1 ht.2

theorem annotate_of_some {l : Labels} (hf : t.find? loc = some r) :
    annotate loc l t = .ok () (t.put { r with labels := r.labels.overlay l }) := by
  refine (bind_of_ok (get_of_some hf)).trans ?_
  refine update_of_some (r := r) ?_
  rw [← hf, ← (Table.found hf).2]
  rfl

end Records

/-! ## Keys of accounts -/

theorem lookUp_eq (loc : Location) (t : Table) :
    lookUp loc t = .ok (match t.find? loc with
      | some r => .ok r
      | none => .error (.secretNotFound loc)) t := by
  rw [lookUp]
  cases hf : t.find? loc with
  | some r => rw [get_of_some hf]
  | none => rw [get_of_none hf]

/-- Taking a record on takes a step if the record is new to the account, and never fails. -/
theorem adopt_ok {slot : Record × Bool} (role : Role) {id : Option String}
    (hf : ∃ r, t.find? slot.1.location = some r)
    (hr : slot.2 = true → s.relabels slot.1.location (adoptionLabels role id)) :
    ∃ t', adopt slot role id t = .ok () t' ∧ Steps s t t' ∧
      ∀ loc r, t.find? loc = some r → ∃ r', t'.find? loc = some r' := by
  unfold adopt
  split
  · rename_i hs
    obtain ⟨r, hf⟩ := hf
    refine ⟨t.put { r with labels := r.labels.overlay (adoptionLabels role id) }, ?_,
      .single (.relabel hf (hr hs)), fun loc r' hr' => ?_⟩
    · change EStateM.bind (attempt (annotate slot.1.location (adoptionLabels role id))) _ t = _
      rw [EStateM.bind, attempt_ok (annotate_of_some hf)]
      rfl
    · rw [Table.find?_put]
      split
      · exact ⟨_, rfl⟩
      · exact ⟨r', hr'⟩
  · exact ⟨t, rfl, .refl, fun loc r hr => ⟨r, hr⟩⟩

/-- The record holds the seed of the key with a public text. -/
def HoldsKey (r : Record) (id : String) : Prop :=
  ∃ seed pair, r.value? seedKey = some seed ∧ keyOfSeed seed = .ok pair ∧ pair.publicText = id

/-- The records that carry the label of an id. -/
def labelled (t : Table) (space id : String) : List Record :=
  t.selected space (labels [(Label.accountId, id)])

/-- The roles of the two records of an account. -/
def keyRoles : List Role := [.accountRoot, .accountSigning]

/-- Both records of an account are found by the label of its id. -/
def Complete (t : Table) (space account id : String) : Prop :=
  ∃ root signing, splitRecords account (labelled t space id) = .ok (some root, some signing)

/-- How records at the fixed names of an account are taken on: only when the label does not find
both, and with the id of a key that the root record of the account holds. -/
inductive Adopts (t : Table) (space account id : String) : Location → Labels → Prop
  | intro {role : Role} {key? : Option String}
    (hr : role ∈ keyRoles) (hc : ¬ Complete t space account id)
    (hk : ∀ k, key? = some k → ∃ r ∈ t.records, r.space = space ∧
      (r.labels.get? Label.accountId = some id ∨ r.name = fixedName account .accountRoot) ∧
      HoldsKey r k) :
    Adopts t space account id ⟨space, fixedName account role⟩ (adoptionLabels role key?)

theorem selectedBy_label {r : Record} {k v : String} :
    r.selectedBy (labels [(k, v)]) = true ↔ r.labels.get? k = some v := by
  change (r.labels.get? k == some v && true) = true ↔ _
  rw [Bool.and_true, beq_iff_eq]

theorem mem_labelled {space id : String} {r : Record} :
    r ∈ labelled t space id ↔
      r ∈ t.records ∧ r.space = space ∧ r.labels.get? Label.accountId = some id := by
  rw [labelled, Table.mem_selected, selectedBy_label]

/-- The first record of a role among those that carry the label of an id. -/
def firstLabelled (t : Table) (space id : String) (role : Role) : Option Record :=
  ((labelled t space id).filter fun r => r.role? = some role).head?

/-- The record that the key of a role is read from: the first that the label finds, or else the one
at the fixed name. -/
def source? (t : Table) (space account id : String) (role : Role) : Option Record :=
  (firstLabelled t space id role).or (t.find? ⟨space, fixedName account role⟩)

theorem firstLabelled_mem {space id : String} {role : Role} {r : Record}
    (h : firstLabelled t space id role = some r) : r ∈ labelled t space id ∧ r.role? = some role := by
  obtain ⟨hm, hrole⟩ := List.mem_filter.mp (List.mem_of_head? h)
  exact ⟨hm, of_decide_eq_true hrole⟩

/-- A filled slot is found by label or was looked up. -/
theorem fill_ok {found : Option Record} {fixed : Except Error Record} {slot : Record × Bool}
    (h : fill found fixed = .ok slot) :
    found = some slot.1 ∧ slot.2 = false ∨ found = none ∧ fixed = .ok slot.1 ∧ slot.2 = true := by
  cases found with
  | some r =>
    obtain rfl := Except.ok.inj h
    exact .inl ⟨rfl, rfl⟩
  | none =>
    cases fixed with
    | error e => contradiction
    | ok r =>
      obtain rfl := Except.ok.inj h
      exact .inr ⟨rfl, rfl, rfl⟩

theorem holdsKey_of_read {r : Record} {k : String}
    (h : ((r.value? seedKey).bind fun seed => (keyOfSeed seed).toOption).map Key.Pair.publicText =
      some k) : HoldsKey r k := by
  obtain ⟨pair, hp, hk⟩ := Option.map_eq_some_iff.mp h
  obtain ⟨seed, hs, hp⟩ := Option.bind_eq_some_iff.mp hp
  refine ⟨seed, pair, hs, ?_, hk⟩
  cases hr : keyOfSeed seed with
  | ok p =>
    rw [hr] at hp
    rw [← Option.some.inj hp]
  | error e =>
    rw [hr] at hp
    contradiction

/-- What is in a slot of a role: a labelled record, or the one at the fixed name, newly taken on. -/
theorem slot_found {space account id : String} {found : Option Record} {role : Role}
    (hfound : ∀ r, found = some r → r ∈ labelled t space id) {slot : Record × Bool}
    (h : fill found (match t.find? ⟨space, fixedName account role⟩ with
      | some r => .ok r
      | none => .error (.secretNotFound ⟨space, fixedName account role⟩)) = .ok slot) :
    slot.1 ∈ t.records ∧ slot.1.space = space ∧
      (slot.1.labels.get? Label.accountId = some id ∨ slot.1.name = fixedName account role) ∧
      (slot.2 = true → slot.1.location = ⟨space, fixedName account role⟩) := by
  rcases fill_ok h with ⟨hf, hb⟩ | ⟨-, hf, -⟩
  · obtain ⟨hm, hspace, hlabel⟩ := mem_labelled.mp (hfound _ hf)
    exact ⟨hm, hspace, .inl hlabel, fun ht => absurd (hb.symm.trans ht) (by decide)⟩
  · cases hl : t.find? ⟨space, fixedName account role⟩ with
    | none =>
      rw [hl] at hf
      contradiction
    | some r =>
      rw [hl] at hf
      obtain ⟨hm, hloc⟩ := Table.found hl
      rw [← Except.ok.inj hf]
      exact ⟨hm, congrArg Location.space hloc, .inr (congrArg Location.name hloc), fun _ => hloc⟩

theorem ends_completeRecords {space account id : String} {root signing : Option Record}
    (hc : ¬ Complete t space account id) (hroot : ∀ r, root = some r → r ∈ labelled t space id)
    (hsigning : ∀ r, signing = some r → r ∈ labelled t space id)
    (hs : ∀ loc l, Adopts t space account id loc l → s.relabels loc l) :
    Ends (completeRecords space account root signing) (fun _ t' => Steps s t t')
      (fun t' => Steps s t t') t := by
  unfold completeRecords
  refine ends_bind (ends_ok (lookUp_eq _ t) ?_)
  refine ends_bind (ends_ok (lookUp_eq _ t) ?_)
  split
  · rename_i slot slot' hslot hslot'
    obtain ⟨hm, hspace, hname, hnew⟩ := slot_found hroot hslot
    obtain ⟨hm', -, -, hnew'⟩ := slot_found hsigning hslot'
    have hk : ∀ k, ((slot.1.value? seedKey).bind fun seed => (keyOfSeed seed).toOption).map
        Key.Pair.publicText = some k → ∃ r ∈ t.records, r.space = space ∧
          (r.labels.get? Label.accountId = some id ∨ r.name = fixedName account .accountRoot) ∧
          HoldsKey r k := fun k hk => ⟨slot.1, hm, hspace, hname, holdsKey_of_read hk⟩
    obtain ⟨t₁, hadopt, hsteps, hkeep⟩ := adopt_ok (s := s) .accountRoot
      ⟨_, Table.find?_eq_some_iff.mpr ⟨hm, rfl⟩⟩
      fun hb => hnew hb ▸ hs _ _ (.intro (by decide) hc hk)
    obtain ⟨t₂, hadopt', hsteps', -⟩ := adopt_ok (s := s) .accountSigning
      (hkeep _ _ (Table.find?_eq_some_iff.mpr ⟨hm', rfl⟩))
      fun hb => hnew' hb ▸ hs _ _ (.intro (by decide) hc hk)
    exact ends_bind (ends_ok hadopt (ends_bind (ends_ok hadopt' (hsteps.trans hsteps'))))
  · exact ends_fail .refl
  · exact ends_fail .refl
  · exact ends_fail .refl

/-- The label splits into the first record of each role. -/
theorem splitRecords_ok {space account id : String} {root signing : Option Record}
    (h : splitRecords account (labelled t space id) = .ok (root, signing)) :
    root = firstLabelled t space id .accountRoot ∧
      signing = firstLabelled t space id .accountSigning := by
  simp only [splitRecords] at h
  split at h
  · contradiction
  · obtain ⟨rfl, rfl⟩ := Prod.mk.inj (Except.ok.inj h)
    exact ⟨rfl, rfl⟩

/-- Loading an account's keys labels records that are taken on, and changes nothing else. -/
theorem ends_accountKeys {space account id : String}
    (hs : ∀ loc l, Adopts t space account id loc l → s.relabels loc l) :
    Ends (accountKeys space account (some id)) (fun _ t' => Steps s t t') (fun t' => Steps s t t')
      t := by
  have hlist : labelledRecords space (some id) t = .ok (labelled t space id) t := rfl
  unfold accountKeys
  refine ends_bind (ends_ok hlist ?_)
  refine ends_bind (ends_ofExcept (fun p hp => ?_) .refl)
  have hread : ∀ (r r' : Record) t', Steps s t t' →
      Ends (do
        let root ← Action.ofExcept (accountKeyOf r)
        let signing ← Action.ofExcept (accountKeyOf r')
        pure (⟨root, signing⟩ : AccountKeys)) (fun _ t' => Steps s t t')
        (fun t' => Steps s t t') t' :=
    fun r r' t' ht => ends_bind (ends_ofExcept
      (fun _ _ => ends_bind (ends_ofExcept (fun _ _ => ends_pure ht) ht)) ht)
  obtain ⟨root, signing⟩ := p
  obtain ⟨hrootFirst, hsigningFirst⟩ := splitRecords_ok hp
  have hroot : ∀ r, root = some r → r ∈ labelled t space id :=
    fun r hr => (firstLabelled_mem (hrootFirst.symm.trans hr)).1
  have hsigning : ∀ r, signing = some r → r ∈ labelled t space id :=
    fun r hr => (firstLabelled_mem (hsigningFirst.symm.trans hr)).1
  have hopen : ¬ Complete t space account id →
      Ends (completeRecords space account root signing >>= fun x => do
        let root ← Action.ofExcept (accountKeyOf x.1)
        let signing ← Action.ofExcept (accountKeyOf x.2)
        pure (⟨root, signing⟩ : AccountKeys)) (fun _ t' => Steps s t t')
        (fun t' => Steps s t t') t :=
    fun hc => ends_bind ((ends_completeRecords hc hroot hsigning hs).mono
      (fun x t' ht => hread x.1 x.2 t' ht) fun _ ht => ht)
  cases root with
  | none => exact hopen fun ⟨r, r', he⟩ => by simp [hp] at he
  | some r =>
    cases signing with
    | none => exact hopen fun ⟨r, r', he⟩ => by simp [hp] at he
    | some r' => exact ends_bind (ends_pure (hread r r' t .refl))

/-! ## Keys that are read -/

/-- Reading the operator's key changes nothing. -/
theorem ends_operatorKey {space : String} :
    Ends (operatorKey space) (fun _ t' => t' = t) (fun t' => t' = t) t := by
  have hsingle : Ends (single space .operatorSigning) (fun _ t' => t' = t)
      (fun t' => t' = t) t := by
    unfold single
    refine ends_bind (ends_ok (Table.list_eq _ _ t) ?_)
    split
    · exact ends_pure rfl
    · exact ends_fail rfl
    · exact ends_fail rfl
  unfold operatorKey
  refine ends_bind (hsingle.mono (fun r t' ht => ?_) fun _ ht => ht)
  subst ht
  split
  · exact ends_fail rfl
  · exact ends_within (ends_ofExcept (fun _ _ => rfl) rfl)

/-- Reading the operator's key from a table returns it or fails. -/
theorem settles_operatorKey (space : String) (t : Table) : Settles (operatorKey space) t := by
  have hsingle : Settles (single space .operatorSigning) t := by
    unfold single
    refine settles_bind (fun e t' h => nomatch (Table.list_eq _ _ t).symm.trans h) fun rs t' _ => ?_
    split
    · exact settles_pure _
    · exact settles_fail _
    · exact settles_fail _
  unfold operatorKey
  refine settles_bind hsingle fun r t' _ => ?_
  split
  · exact settles_fail _
  · exact settles_within (settles_ofExcept _)

/-! ## New keys -/

/-- The key of a role. -/
def AccountKeys.ofRole (keys : AccountKeys) : Role → Key.Pair
  | .accountSigning => keys.signing
  | _ => keys.root

/-- Where a key of an account is written. -/
def keyLocation (space account : String) (keys : AccountKeys) (role : Role) : Location :=
  ⟨space, keyName account keys.accountId role⟩

/-- The labels of the record of a new key. -/
def keyLabels (role : Role) (id : String) : Labels :=
  labels [(Label.secretRole, role.text), (Label.accountId, id)]

/-- The data of the record of a new key. -/
def keyData (pair : Key.Pair) : Dict String :=
  Dict.ofList [(seedKey, pair.seedText?.getD "")]

theorem ends_storeAccountKeys {space account : String} {keys : AccountKeys}
    (hs : ∀ role ∈ keyRoles, s.writes (keyLocation space account keys role)
      (keyLabels role keys.accountId) (keyData (keys.ofRole role))) :
    Ends (storeAccountKeys space account keys) (fun _ t' => Steps s t t') (fun t' => Steps s t t')
      t := by
  have hroot := hs .accountRoot (by decide)
  have hsigning := hs .accountSigning (by decide)
  refine ends_bind ((ends_put none hroot).mono (fun _ t₁ h₁ => ?_) fun _ h => h)
  exact (ends_put none hsigning).mono (fun _ _ h => h₁.trans h) fun _ h => h₁.trans h

end CredentialEngine.Keyring
