import CredentialEngine.Proofs.Lifecycle.Steps
import CredentialEngine.Proofs.Secret.Names

/-!
# What a reconcile leaves alone

A reconcile works in the namespace of its resource and on records that are its own: those of the
keys or the bundle that it issues, which it writes, those of its account from before there were
labels, which it labels, and those of what is deleted, which it removes.
-/
namespace CredentialEngine

open Secret Keyring CredentialEngine.Action

namespace Keyring

/-- What may happen to the record at a location within a scope, over any number of steps. -/
inductive Fate (s : Scope) (loc : Location) : Option Record → Option Record → Prop
  | kept (o : Option Record) : Fate s loc o o
  | created {l : Labels} {d : Dict String} (r : Record) (hw : s.writes loc l d) :
    Fate s loc none (some r)
  | written {l : Labels} {d : Dict String} {r : Record} (r' : Record) (hm : r.isManaged = true)
    (hw : s.writes loc l d) : Fate s loc (some r) (some r')
  | labelled {l : Labels} {r r' : Record} (hr : s.relabels loc l) (hd : r'.data = r.data)
    (ho : r'.owner = r.owner) : Fate s loc (some r) (some r')
  | removed {r : Record} (hl : r.location = loc) (hr : s.removes r) : Fate s loc (some r) none

/-- A scope that never allows two kinds of change to one record. -/
structure Scope.Apart (s : Scope) : Prop where
  writes_relabels : ∀ {loc l d l'}, s.writes loc l d → ¬ s.relabels loc l'
  writes_removes : ∀ {loc l d r}, s.writes loc l d → ¬ s.removes r
  relabels_removes : ∀ {loc l r}, s.relabels loc l → ¬ s.removes r

variable {s : Scope} {t t' : Table} {loc : Location}

theorem fate_of_put {r : Record} (h : Fate s r.location (t.find? r.location) (some r))
    (loc : Location) : Fate s loc (t.find? loc) ((t.put r).find? loc) := by
  rw [Table.find?_put]
  by_cases hl : r.location = loc
  · subst hl
    rw [if_pos rfl]
    exact h
  · rw [if_neg hl]
    exact .kept _

theorem fate_of_step (h : Step s t t') (loc : Location) :
    Fate s loc (t.find? loc) (t'.find? loc) := by
  cases h with
  | create owner hn hw =>
    rename_i loc' l d
    refine fate_of_put ?_ loc
    change Fate s loc' (t.find? loc') _
    rw [hn]
    exact .created _ hw
  | rewrite hf hm hw =>
    rename_i loc' l d r
    obtain ⟨-, rfl⟩ := Table.found hf
    refine fate_of_put ?_ loc
    change Fate s r.location (t.find? r.location) _
    rw [hf]
    exact .written _ hm hw
  | relabel hf hr =>
    rename_i loc' l r
    obtain ⟨-, rfl⟩ := Table.found hf
    refine fate_of_put ?_ loc
    change Fate s r.location (t.find? r.location) _
    rw [hf]
    exact .labelled hr rfl rfl
  | remove hr =>
    rename_i test
    rw [Table.find?_keep]
    cases hf : t.find? loc with
    | none => exact .kept none
    | some r =>
      obtain ⟨hmem, hloc⟩ := Table.found hf
      cases ht : test r with
      | true =>
        rw [Option.filter_some_pos ht]
        exact .kept _
      | false =>
        rw [Option.filter_some_neg (by simp [ht])]
        exact .removed hloc (hr r hmem ht)

theorem Fate.trans (ha : s.Apart) {a b c : Option Record} (h : Fate s loc a b)
    (h' : Fate s loc b c) : Fate s loc a c := by
  cases h with
  | kept => exact h'
  | created r hw =>
    cases h' with
    | kept => exact .created r hw
    | written r' => exact .created r' hw
    | labelled hr => exact absurd hr (ha.writes_relabels hw)
    | removed _ hr => exact absurd hr (ha.writes_removes hw)
  | written r' hm hw =>
    cases h' with
    | kept => exact .written r' hm hw
    | written r'' => exact .written r'' hm hw
    | labelled hr => exact absurd hr (ha.writes_relabels hw)
    | removed _ hr => exact absurd hr (ha.writes_removes hw)
  | labelled hr hd ho =>
    cases h' with
    | kept => exact .labelled hr hd ho
    | written _ _ hw => exact absurd hr (ha.writes_relabels hw)
    | labelled hr' hd' ho' => exact .labelled hr' (hd'.trans hd) (ho'.trans ho)
    | removed _ hr' => exact absurd hr' (ha.relabels_removes hr)
  | removed hl hr =>
    cases h' with
    | kept => exact .removed hl hr
    | created _ hw => exact absurd hr (ha.writes_removes hw)

/-- Any number of steps do to a record what one of them may do to it. -/
theorem fate_of_steps (ha : s.Apart) (h : Steps s t t') (loc : Location) :
    Fate s loc (t.find? loc) (t'.find? loc) := by
  induction h with
  | refl => exact .kept _
  | tail _ hstep ih => exact ih.trans ha (fate_of_step hstep loc)

end Keyring

namespace Lifecycle

/-- Where a reconcile may create records and give them other data: at the two names of the keys of
an account that is created, and at the name of the bundle of a user that is issued. -/
def WritesAt (rootId : String) : Resource → Location → Prop
  | .account a, loc => a.plan = .create ∧ ∃ role ∈ keyRoles,
      loc = ⟨a.metadata.space, keyName a.metadata.name rootId role⟩
  | .user u, loc => u.plan = .issue ∧ loc = ⟨u.metadata.space, u.bundleName⟩

/-- Where a reconcile may add labels to records: at the fixed names of the account concerned. -/
def LabelsAt : Resource → Location → Prop
  | .account a, loc => (a.plan = .update ∨ a.plan = .observe) ∧
      ∃ role ∈ keyRoles,
        loc = ⟨a.metadata.space, fixedName a.metadata.name role⟩
  | .user u, loc => u.plan = .issue ∧ ∃ role ∈ keyRoles,
      loc = ⟨u.metadata.space, fixedName u.spec.accountName role⟩

/-- Which records a reconcile may remove: those of the id of an account that is deleted, and the
bundle of a user that is deleted. -/
def Removes : Resource → Record → Prop
  | .account a, r => a.plan = .delete ∧ r.space = a.metadata.space ∧
      ∃ id, a.id? = some id ∧ r.labels.get? Label.accountId = some id
  | .user u, r => u.plan = .delete ∧ r.location = ⟨u.metadata.space, u.bundleName⟩

/-- How a table differs from an earlier one after a reconcile that drew the root key of an id. -/
structure Framed (x : Resource) (rootId : String) (t t' : Table) : Prop where
  elsewhere : ∀ loc, loc.space ≠ x.metadata.space → t'.find? loc = t.find? loc
  unmanaged : ∀ loc r r', t.find? loc = some r → r.isManaged = false → t'.find? loc = some r' →
    r'.data = r.data
  created : ∀ loc r', t.find? loc = none → t'.find? loc = some r' → WritesAt rootId x loc
  written : ∀ loc r r', t.find? loc = some r → t'.find? loc = some r' → r'.data ≠ r.data →
    WritesAt rootId x loc
  labelled : ∀ loc r r', t.find? loc = some r → t'.find? loc = some r' → r' ≠ r →
    ¬ WritesAt rootId x loc → LabelsAt x loc ∧ r'.data = r.data ∧ r'.owner = r.owner
  removed : ∀ loc r, t.find? loc = some r → t'.find? loc = none → Removes x r

variable {source : Nat → List UInt8} {t : Table} {n n' : Nat} {x : Resource} {loc : Location}

theorem writesAt_of_scope {l : Labels} {d : Dict String}
    (h : (scopeOf source t n n' x).writes loc l d) :
    WritesAt (newKeys source n).accountId x loc := by
  cases x with
  | account a =>
    obtain ⟨hp, -, role, hr, hloc, -⟩ := h
    exact ⟨hp, role, hr, hloc⟩
  | user u =>
    obtain ⟨hp, hloc, -⟩ := h
    exact ⟨hp, hloc⟩

theorem labelsAt_of_scope {l : Labels} (h : (scopeOf source t n n' x).relabels loc l) :
    LabelsAt x loc := by
  cases x with
  | account a =>
    obtain ⟨hp, id, -, hadopts⟩ := h
    cases hadopts with
    | intro hr => exact ⟨hp, _, hr, rfl⟩
  | user u =>
    obtain ⟨hp, id, hadopts⟩ := h
    cases hadopts with
    | intro hr => exact ⟨hp, _, hr, rfl⟩

theorem removes_of_scope {r : Record} (h : (scopeOf source t n n' x).removes r) : Removes x r := by
  cases x with
  | account a => exact h
  | user u => exact h

theorem space_of_writesAt {id : String} (h : WritesAt id x loc) : loc.space = x.metadata.space := by
  cases x with
  | account a =>
    obtain ⟨-, role, -, rfl⟩ := h
    rfl
  | user u =>
    obtain ⟨-, rfl⟩ := h
    rfl

theorem space_of_labelsAt (h : LabelsAt x loc) : loc.space = x.metadata.space := by
  cases x with
  | account a =>
    obtain ⟨-, role, -, rfl⟩ := h
    rfl
  | user u =>
    obtain ⟨-, role, -, rfl⟩ := h
    rfl

theorem space_of_removes {r : Record} (h : Removes x r) : r.space = x.metadata.space := by
  cases x with
  | account a => exact h.2.1
  | user u => exact congrArg Location.space h.2

/-- A resource is written, labelled or removed at different names or under different plans. -/
theorem apart_scopeOf : (scopeOf source t n n' x).Apart := by
  constructor
  · intro loc l d l' hw hr
    have hlabels := labelsAt_of_scope hr
    cases x with
    | account a =>
      obtain ⟨hp, -⟩ := hw
      obtain ⟨hp', -⟩ := hlabels
      rw [hp] at hp'
      exact absurd hp' (by decide)
    | user u =>
      obtain ⟨-, rfl, -⟩ := hw
      obtain ⟨-, role, -, hloc⟩ := hlabels
      exact fixedName_ne_bundleName _ _ u (congrArg Location.name hloc).symm
  · intro loc l d r hw hr
    cases x with
    | account a =>
      have hp := hw.1.symm.trans hr.1
      exact absurd hp (by decide)
    | user u =>
      have hp := hw.1.symm.trans hr.1
      exact absurd hp (by decide)
  · intro loc l r hl hr
    cases x with
    | account a =>
      have hp := hl.1
      rw [hr.1] at hp
      exact absurd hp (by decide)
    | user u =>
      have hp := hl.1.symm.trans hr.1
      exact absurd hp (by decide)

theorem framed_of_steps {t' : Table} (h : Steps (scopeOf source t n n' x) t t') :
    Framed x (newKeys source n).accountId t t' := by
  have hfate := fate_of_steps apart_scopeOf h
  constructor
  · intro loc hs
    have hf := hfate loc
    generalize t.find? loc = o, t'.find? loc = o' at hf
    cases hf with
    | kept => rfl
    | created r hw => exact absurd (space_of_writesAt (writesAt_of_scope hw)) hs
    | written r' hm hw => exact absurd (space_of_writesAt (writesAt_of_scope hw)) hs
    | labelled hr => exact absurd (space_of_labelsAt (labelsAt_of_scope hr)) hs
    | removed hl hr =>
      rw [← hl] at hs
      exact absurd (space_of_removes (removes_of_scope hr)) hs
  · intro loc r r' hf hm hf'
    have hl := hfate loc
    rw [hf, hf'] at hl
    cases hl with
    | kept => rfl
    | written _ hm' => exact absurd (hm.symm.trans hm') (by decide)
    | labelled _ hd => exact hd
  · intro loc r' hf hf'
    have hl := hfate loc
    rw [hf, hf'] at hl
    cases hl with
    | created _ hw => exact writesAt_of_scope hw
  · intro loc r r' hf hf' hne
    have hl := hfate loc
    rw [hf, hf'] at hl
    cases hl with
    | kept => exact absurd rfl hne
    | written _ _ hw => exact writesAt_of_scope hw
    | labelled _ hd => exact absurd hd hne
  · intro loc r r' hf hf' hne hw
    have hl := hfate loc
    rw [hf, hf'] at hl
    cases hl with
    | kept => exact absurd rfl hne
    | written _ _ hw' => exact absurd (writesAt_of_scope hw') hw
    | labelled hr hd ho => exact ⟨labelsAt_of_scope hr, hd, ho⟩
  · intro loc r hf hf'
    have hl := hfate loc
    rw [hf, hf'] at hl
    cases hl with
    | removed _ hr => exact removes_of_scope hr

/-- Whatever is reconciled, whatever the cluster answers and however it ends, a reconcile stays in
the namespace of its resource and changes only records that are its own. -/
theorem reconcile_framed {κ : Type} [Control κ] (setting : Setting) (catalog : Catalog)
    (x : Resource) (w : World Table (Fleet κ)) :
    Framed x (newKeys setting.keySource w.drawn).accountId w.secrets
      (leaves (reconcile setting catalog x w)).secrets :=
  framed_of_steps (leads_reconcile setting catalog x w).steps

end Lifecycle

end CredentialEngine
