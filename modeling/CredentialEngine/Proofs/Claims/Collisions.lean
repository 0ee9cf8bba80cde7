import CredentialEngine.Proofs.Claims.Imports
import Mathlib.Data.List.Sort

/-!
# Collisions among imports

Whether imports are accepted, and which subjects they conflict about, depends on the imports as a
multiset. Fewer imports never conflict about more, so what is accepted is accepted in every part,
and what is rejected stays rejected whatever is added to it.
-/
namespace CredentialEngine.Claims

/-- The imports remain as they are and nothing is reported. -/
def Accepts (imports : List ImportClaim) : Prop :=
  checkImports imports = (imports, [])

/-- No import remains, and some subjects are reported as conflicting, each once, in this order. -/
def Rejects (imports : List ImportClaim) (subjects : List String) : Prop :=
  subjects ≠ [] ∧ checkImports imports = ([], subjects.map .conflictingSubject)

/-- Two of the imports are visible under the subject. -/
def Collide (imports : List ImportClaim) (subject : String) : Prop :=
  ∃ i j, [i, j].Sublist imports ∧ i.effectiveSubject = subject ∧ j.effectiveSubject = subject

variable {imports others : List ImportClaim} {subjects : List String}

/-! ## Conflicts of two lists -/

theorem mem_conflicts_iff_collide {s : String} : s ∈ conflicts imports ↔ Collide imports s :=
  mem_conflicts.trans pair_sublist_map

theorem pairwise_conflicts (imports : List ImportClaim) :
    (conflicts imports).Pairwise (· < ·) :=
  Dict.pairwise_keys _

/-- A subject that occurs twice occurs twice in any order. -/
theorem mem_conflicts_of_perm (h : imports.Perm others) {s : String} :
    s ∈ conflicts imports ↔ s ∈ conflicts others := by
  rw [mem_conflicts_iff_count, mem_conflicts_iff_count,
    (h.map ImportClaim.effectiveSubject).count_eq]

/-- Fewer imports conflict about fewer subjects. -/
theorem conflicts_sublist (h : imports.Sublist others) :
    (conflicts imports).Sublist (conflicts others) := by
  have hsubset : conflicts imports ⊆ conflicts others := fun s hs =>
    mem_conflicts.mpr ((mem_conflicts.mp hs).trans (h.map ImportClaim.effectiveSubject))
  have hnodup : (conflicts imports).Nodup := (pairwise_conflicts imports).imp String.ne_of_lt
  exact List.sublist_of_subperm_of_pairwise (List.subperm_of_subset hnodup hsubset)
    (pairwise_conflicts imports) (pairwise_conflicts others)

/-- The order of the imports does not matter: the conflicts have an order of their own. -/
theorem conflicts_of_perm (h : imports.Perm others) : conflicts imports = conflicts others := by
  have hnodup (is : List ImportClaim) : (conflicts is).Nodup :=
    (pairwise_conflicts is).imp String.ne_of_lt
  have hsame : (conflicts imports).Perm (conflicts others) :=
    (List.perm_ext_iff_of_nodup (hnodup imports) (hnodup others)).mpr fun _ =>
      mem_conflicts_of_perm h
  exact hsame.eq_of_pairwise (fun _ _ _ _ hlt hgt => absurd hgt (String.lt_asymm hlt))
    (pairwise_conflicts imports) (pairwise_conflicts others)

/-! ## Acceptance -/

theorem accepts_iff : Accepts imports ↔ conflicts imports = [] := by
  unfold Accepts checkImports
  cases conflicts imports with
  | nil => simp
  | cons s ss => simp

theorem rejects_iff : Rejects imports subjects ↔ subjects ≠ [] ∧ conflicts imports = subjects := by
  have hinj : Function.Injective Issue.conflictingSubject := fun _ _ h =>
    Issue.conflictingSubject.inj h
  unfold Rejects checkImports
  refine and_congr_right fun hne => ?_
  cases conflicts imports with
  | nil =>
    constructor
    · intro h
      exact absurd (List.map_eq_nil_iff.mp (Prod.mk.inj h).2.symm) hne
    · intro h
      exact absurd h.symm hne
  | cons s ss =>
    rw [Prod.mk.injEq, eq_self, true_and, (List.map_injective_iff.mpr hinj).eq_iff]

/-- Imports are accepted as they are if no two are visible under one subject. Otherwise none
remains, and the subjects of two or more are reported in ascending order. Any other order of the
imports is answered alike; every part of accepted imports is accepted; rejected imports with any
others among them stay rejected, for all the subjects that there were. -/
theorem checkImports_hereditary (imports : List ImportClaim) :
    ((Accepts imports ∧ ∀ s, ¬ Collide imports s) ∨
      ∃ subjects, Rejects imports subjects ∧ subjects.Pairwise (· < ·) ∧
        ∀ s, s ∈ subjects ↔ Collide imports s) ∧
    (∀ others, others.Perm imports →
      (checkImports others).2 = (checkImports imports).2 ∧ (Accepts others ↔ Accepts imports) ∧
        ∀ subjects, Rejects others subjects ↔ Rejects imports subjects) ∧
    (Accepts imports → ∀ part, part.Sublist imports → Accepts part) ∧
    ∀ subjects, Rejects imports subjects → ∀ more, imports.Sublist more →
      ∃ subjects', Rejects more subjects' ∧ subjects.Sublist subjects' := by
  refine ⟨?_, fun others hperm => ?_, fun haccepts part hpart => ?_,
    fun subjects hrejects more hmore => ?_⟩
  · by_cases hnil : conflicts imports = []
    · refine .inl ⟨accepts_iff.mpr hnil, fun s hs => ?_⟩
      rw [← mem_conflicts_iff_collide, hnil] at hs
      exact List.not_mem_nil hs
    · exact .inr ⟨conflicts imports, rejects_iff.mpr ⟨hnil, rfl⟩, pairwise_conflicts imports,
        fun s => mem_conflicts_iff_collide⟩
  · have hconflicts := conflicts_of_perm hperm
    refine ⟨?_, ?_, fun subjects => ?_⟩
    · unfold checkImports
      rw [hconflicts]
      cases conflicts imports <;> rfl
    · rw [accepts_iff, accepts_iff, hconflicts]
    · rw [rejects_iff, rejects_iff, hconflicts]
  · have hsub := conflicts_sublist hpart
    rw [accepts_iff.mp haccepts] at hsub
    exact accepts_iff.mpr (List.sublist_nil.mp hsub)
  · obtain ⟨hne, rfl⟩ := rejects_iff.mp hrejects
    have hsub := conflicts_sublist hmore
    refine ⟨conflicts more, rejects_iff.mpr ⟨fun hnil => hne ?_, rfl⟩, hsub⟩
    rw [hnil] at hsub
    exact List.sublist_nil.mp hsub

/-- A subject and another import's local subject are one subject; a third import has nothing to do
with them. -/
example : checkImports [
      { subject := "orders.new", account := "A", flow := "stream" },
      { subject := "stock", account := "B", flow := "stream" },
      { subject := "sales", account := "B", localSubject := "orders.new", flow := "service" }] =
    ([], [.conflictingSubject "orders.new"]) := by
  decide +kernel

end CredentialEngine.Claims
