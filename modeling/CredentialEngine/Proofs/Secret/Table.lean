import CredentialEngine.Secret.Table
import Mathlib.Data.List.Nodup

/-!
# Laws of tables

A table is determined by what is at its locations: what each operation answers and leaves is told
by the record found at each location.
-/
namespace CredentialEngine.Secret.Table

variable {t : Table} {r r' : Record} {loc : Location}

/-! ## What is at a location -/

theorem eq_of_location_eq (hr : r ∈ t.records) (hr' : r' ∈ t.records)
    (h : r.location = r'.location) : r = r' :=
  List.inj_on_of_nodup_map t.distinct hr hr' h

theorem found (h : t.find? loc = some r) : r ∈ t.records ∧ r.location = loc := by
  have hl := List.find?_some h
  exact ⟨List.mem_of_find?_eq_some h, of_decide_eq_true hl⟩

theorem find?_eq_some_iff : t.find? loc = some r ↔ r ∈ t.records ∧ r.location = loc := by
  constructor
  · exact found
  · rintro ⟨hr, rfl⟩
    cases hf : t.find? r.location with
    | none => exact absurd (decide_eq_true rfl) (List.find?_eq_none.mp hf r hr)
    | some r' =>
      obtain ⟨hr', hl⟩ := found hf
      rw [eq_of_location_eq hr' hr hl]

theorem find?_eq_none_iff : t.find? loc = none ↔ ∀ r ∈ t.records, r.location ≠ loc := by
  rw [find?, List.find?_eq_none]
  simp only [decide_eq_true_eq, ne_eq]

theorem mem_put : r' ∈ (t.put r).records ↔ r' = r ∨ r' ∈ t.records ∧ r'.location ≠ r.location := by
  unfold put
  split
  · rename_i h
    obtain ⟨r₀, hr₀, hl₀⟩ := List.mem_map.mp h
    constructor
    · intro hm
      obtain ⟨r₁, hr₁, rfl⟩ := List.mem_map.mp hm
      by_cases hl : r₁.location = r.location
      · exact .inl (if_pos hl)
      · rw [revised, if_neg hl]
        exact .inr ⟨hr₁, hl⟩
    · rintro (rfl | ⟨hm, hl⟩)
      · exact List.mem_map.mpr ⟨r₀, hr₀, if_pos hl₀⟩
      · exact List.mem_map.mpr ⟨r', hm, if_neg hl⟩
  · rename_i h
    constructor
    · intro hm
      rcases List.mem_append.mp hm with hm | hm
      · exact .inr ⟨hm, fun hl => h (List.mem_map.mpr ⟨r', hm, hl⟩)⟩
      · exact .inl (List.mem_singleton.mp hm)
    · rintro (rfl | ⟨hm, -⟩)
      · exact List.mem_append_right _ (List.mem_singleton.mpr rfl)
      · exact List.mem_append_left _ hm

theorem mem_keep {test : Record → Bool} :
    r ∈ (t.keep test).records ↔ r ∈ t.records ∧ test r = true :=
  List.mem_filter

theorem find?_put (t : Table) (r : Record) (loc : Location) :
    (t.put r).find? loc = if r.location = loc then some r else t.find? loc := by
  split
  · rename_i h
    exact find?_eq_some_iff.mpr ⟨mem_put.mpr (.inl rfl), h⟩
  · rename_i h
    cases hf : t.find? loc with
    | none =>
      refine find?_eq_none_iff.mpr fun r' hr' => ?_
      rcases mem_put.mp hr' with rfl | ⟨hm, -⟩
      · exact h
      · exact find?_eq_none_iff.mp hf r' hm
    | some r' =>
      obtain ⟨hm, hl⟩ := find?_eq_some_iff.mp hf
      exact find?_eq_some_iff.mpr ⟨mem_put.mpr (.inr ⟨hm, fun he => h (he.symm.trans hl)⟩), hl⟩

theorem find?_keep (t : Table) (test : Record → Bool) (loc : Location) :
    (t.keep test).find? loc = (t.find? loc).filter test := by
  cases hf : t.find? loc with
  | none =>
    refine find?_eq_none_iff.mpr fun r hr => ?_
    exact find?_eq_none_iff.mp hf r (mem_keep.mp hr).1
  | some r =>
    obtain ⟨hm, hl⟩ := find?_eq_some_iff.mp hf
    by_cases ht : test r = true
    · rw [Option.filter_some_pos ht]
      exact find?_eq_some_iff.mpr ⟨mem_keep.mpr ⟨hm, ht⟩, hl⟩
    · rw [Option.filter_some_neg (Bool.eq_false_iff.mpr ht)]
      refine find?_eq_none_iff.mpr fun r' hr' he => ?_
      obtain ⟨hm', ht'⟩ := mem_keep.mp hr'
      rw [eq_of_location_eq hm' hm (he.trans hl.symm)] at ht'
      exact ht ht'

theorem mem_selected {space : String} {selector : Labels} :
    r ∈ t.selected space selector ↔
      r ∈ t.records ∧ r.space = space ∧ r.selectedBy selector = true := by
  rw [selected, List.mem_mergeSort, List.mem_filter, Bool.and_eq_true, beq_iff_eq]

theorem nodup_selected (t : Table) (space : String) (selector : Labels) :
    (t.selected space selector).Nodup := by
  rw [selected, (List.mergeSort_perm _ _).nodup_iff]
  exact (List.Nodup.of_map _ t.distinct).filter _

theorem selected_eq_singleton {space : String} {selector : Labels}
    (h : ∀ r', r' ∈ t.records ∧ r'.space = space ∧ r'.selectedBy selector = true ↔ r' = r) :
    t.selected space selector = [r] := by
  refine List.perm_singleton.mp ((List.perm_ext_iff_of_nodup ?_ (List.nodup_singleton r)).mpr ?_)
  · exact nodup_selected t space selector
  · intro r'
    rw [List.mem_singleton, mem_selected, h]

theorem ext_records {t t' : Table} (h : t.records = t'.records) : t = t' := by
  cases t
  cases t'
  congr

theorem keep_of_absent (h : t.find? loc = none) : (t.keep fun r => r.location ≠ loc) = t := by
  refine ext_records (List.filter_eq_self.mpr fun r hr => ?_)
  exact decide_eq_true (find?_eq_none_iff.mp h r hr)

/-! ## What the operations answer and leave -/

theorem get_eq (loc : Location) (t : Table) :
    get loc t =
      match t.find? loc with
      | some r => .ok r t
      | none => .error (.failed (.secretNotFound loc)) t := by
  change (match t.find? loc with
    | some r => (pure r : Action Table Record)
    | none => Action.fail (.secretNotFound loc)) t = _
  cases t.find? loc <;> rfl

theorem list_eq (space : String) (selector : Labels) (t : Table) :
    list space selector t = .ok (t.selected space selector) t := rfl

theorem create_eq (r : Record) (t : Table) :
    create r t =
      match t.find? r.location with
      | some _ => .error (.failed (.store (.secretExists r.location : Cause))) t
      | none => .ok () (t.put r) := by
  change (match t.find? r.location with
    | some _ => Action.fail (.store (.secretExists r.location : Cause))
    | none => EStateM.set (t.put r)) t = _
  cases t.find? r.location <;> rfl

theorem update_eq (r : Record) (t : Table) :
    update r t =
      match t.find? r.location with
      | some _ => .ok () (t.put r)
      | none => .error (.failed (.secretNotFound r.location)) t := by
  change (match t.find? r.location with
    | some _ => EStateM.set (t.put r)
    | none => Action.fail (.secretNotFound r.location)) t = _
  cases t.find? r.location <;> rfl

theorem delete_eq (loc : Location) (t : Table) :
    delete loc t =
      match t.find? loc with
      | some _ => .ok () (t.keep fun r => r.location ≠ loc)
      | none => .error (.failed (.secretNotFound loc)) t := by
  change (match t.find? loc with
    | some _ => EStateM.set (t.keep fun r => r.location ≠ loc)
    | none => Action.fail (.secretNotFound loc)) t = _
  cases t.find? loc <;> rfl

theorem deleteSelected_eq (space : String) (selector : Labels) (t : Table) :
    deleteSelected space selector t =
      let kept := t.keep fun r => !(r.space == space && r.selectedBy selector)
      .ok (t.records.length - kept.records.length) kept := rfl

end CredentialEngine.Secret.Table
