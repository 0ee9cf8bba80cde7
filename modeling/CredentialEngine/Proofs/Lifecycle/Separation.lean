import CredentialEngine.Proofs.Catalog
import CredentialEngine.Proofs.Lifecycle.Histories
import CredentialEngine.Proofs.Manifest
import CredentialEngine.Proofs.Secret.Apart

/-!
# Runs with the secrets apart

When the secrets are kept apart from the manifests, every reconcile of a run returns and leaves the
manifests alone. Their files then change in their own turns only, where nothing stands in the way.
-/
namespace CredentialEngine.Estate

open CredentialEngine.Action FileTree

variable {σ κ : Type} [Storage σ] [Filed σ] [Control κ] {setting : Setting} {e e' : Estate σ κ}
  {results : List (Manifest × Reconciled)} {d : Directory} {defaults : Manifest.Defaults}
  {ms : List Manifest} {inOrder : σ → Prop} {names : List String}

/-- With a storage apart, a reconcile returns and leaves the files of manifests alone. -/
theorem reconcile_of_apart (hs : Apart σ inOrder d.path names)
    (hc : Control.Maintain κ (· ≠ .crashed) fun _ => True) (setting : Setting) (x : Resource)
    (hdir : e.files.resolve [] d.path = .ok .dir) (he : inOrder e.world.secrets) :
    ∃ r e', reconcile setting x e = .ok r e' ∧ inOrder e'.world.secrets ∧
      ∀ y ∈ names, AgreeOn (d.path ++ [y]) e.files e'.files := by
  have hmaintains := maintains_reconcile (hs.maintain _ hdir) hc (fun _ => nofun) setting x
  have hnow : World.Both (fun s => inOrder s ∧
      ∀ y ∈ names, AgreeOn (d.path ++ [y]) e.files (Filed.files s))
      (Fleet.Each fun _ : κ => True) e.world :=
    ⟨⟨he, fun y _ => .refl _ _⟩, fun _ _ _ => trivial⟩
  cases hr : reconcile setting x e with
  | error halt e' =>
    obtain ⟨⟨hlives, hdead⟩, -⟩ := hmaintains.of_error hnow hr
    exact absurd hdead hlives
  | ok r e' => exact ⟨r, e', rfl, (hmaintains.of_ok hnow hr).1⟩

/-- A run has left the storage in order, the directory in its place, and the files of manifests that
have not had their turn as they were. -/
structure Steady (inOrder : σ → Prop) (d : Path) (names : List String) (t : FileTree)
    (before : List Manifest) (e : Estate σ κ) : Prop where
  secrets : inOrder e.world.secrets
  directory : e.files.resolve [] d = .ok .dir
  agree : ∀ y ∈ names, (∀ m ∈ before, m.path ≠ d ++ [y]) → AgreeOn (d ++ [y]) t e.files

theorem Ran.steady [LawfulFiled σ] (hs : Apart σ inOrder d.path names)
    (hc : Control.Maintain κ (· ≠ .crashed) fun _ => True) (h : Ran setting e results e')
    (hpaths : ∀ x ∈ results, ∃ y ∈ names, x.1.path = d.path ++ [y])
    (hdir : e.files.resolve [] d.path = .ok .dir) (he : inOrder e.world.secrets) :
    Steady inOrder d.path names e.files (results.map (·.1)) e' := by
  induction h with
  | start => exact ⟨he, hdir, fun y _ _ => .refl _ _⟩
  | @turn results e₁ e₂ m r t h hreconcile hfile ih =>
    have hsteady := ih fun x hx => hpaths x (List.mem_append_left _ hx)
    obtain ⟨y, hy, hpath⟩ : ∃ y ∈ names, m.path = d.path ++ [y] := hpaths (m, r) (by simp)
    obtain ⟨r', e₂', hr, hsecrets, hagree⟩ := reconcile_of_apart hs hc setting m.resource
      hsteady.directory hsteady.secrets
    obtain ⟨rfl, rfl⟩ := EStateM.Result.ok.inj (hr.symm.trans hreconcile)
    have hset : (e₂'.setFiles t).files = t := LawfulFiled.files_setFiles t _
    refine ⟨hs.setFiles t _ hsecrets, ?_, fun y' hy' hne => ?_⟩
    · have habove : AgreeOn d.path e₂'.files t := by
        refine Manifest.agreeOn_conclude ?_ hfile
        rw [hpath]
        exact not_prefix_below d.path y
      rw [hset, habove.resolve, ((hagree y hy).above (List.prefix_append _ _)).resolve]
      exact hsteady.directory
    · rw [List.map_append, List.map_singleton] at hne
      have hearlier := hsteady.agree y' hy' fun m' hm' => hne m' (List.mem_append_left _ hm')
      rw [hset]
      refine (hearlier.trans (hagree y' hy')).trans (Manifest.agreeOn_conclude ?_ hfile)
      rw [hpath, concat_prefix_concat]
      rintro rfl
      exact hne m (by simp) hpath

section Turns

variable [LawfulFiled σ] (hs : Apart σ inOrder d.path names)
  (hc : Control.Maintain κ (· ≠ .crashed) fun _ => True)
  (hload : Manifest.loadAll e.files d defaults = .ok ms)
  (hlisted : Manifest.Listed e.files d names ms) (he : inOrder e.world.secrets)

include hs hc hload hlisted he

theorem Turn.steady {before : List Manifest} {m : Manifest} {e₁ : Estate σ κ}
    (h : Turn setting d defaults e ms before m e₁) :
    Steady inOrder d.path names e.files before e₁ := by
  obtain ⟨n, hreached⟩ := h.reached
  obtain ⟨after, horder⟩ := h.order
  obtain ⟨results, rfl, hran⟩ := exists_ran_of_ok hreached
  have hdir : (declared ms e).files.resolve [] d.path = .ok .dir :=
    Manifest.resolve_of_loadAll hload
  have hmem : ∀ x ∈ results, x.1 ∈ ms := by
    intro x hx
    refine Manifest.mem_inOrder ?_
    rw [horder]
    exact List.mem_append_left _ (List.mem_map_of_mem hx)
  have hsteady : Steady inOrder d.path names (declared ms e).files _ e₁ :=
    hran.steady hs hc (fun x hx => hlisted.path (hmem x hx)) hdir he
  exact hsteady

/-- In every turn the reconcile leaves the files of all manifests alone. -/
theorem Turn.agree {before : List Manifest} {m : Manifest} {e₁ e₂ : Estate σ κ} {r : Reconciled}
    (h : Turn setting d defaults e ms before m e₁)
    (hreconcile : reconcile setting m.resource e₁ = .ok r e₂) :
    ∀ y ∈ names, AgreeOn (d.path ++ [y]) e₁.files e₂.files := by
  have hsteady := h.steady hs hc hload hlisted he
  obtain ⟨r', e₂', hr, -, hagree⟩ := reconcile_of_apart hs hc setting m.resource
    hsteady.directory hsteady.secrets
  obtain ⟨rfl, rfl⟩ := EStateM.Result.ok.inj (hr.symm.trans hreconcile)
  exact hagree

theorem lives_of_apart : Lives setting d defaults e ms := by
  intro before m e₁ e₂ hturn hdead
  have hsteady := hturn.steady hs hc hload hlisted he
  obtain ⟨r, e₂', hr, -⟩ := reconcile_of_apart hs hc setting m.resource
    hsteady.directory hsteady.secrets
  exact nomatch hr.symm.trans hdead

/-- When the turn of a manifest comes, its file is still the one that was loaded. -/
theorem files_of_apart : Files setting d defaults e ms := by
  intro before m e₁ r e₂ hturn hreconcile
  obtain ⟨after, horder⟩ := hturn.order
  have hm : m ∈ ms := Manifest.mem_inOrder (horder ▸ List.mem_append_right _ List.mem_cons_self)
  obtain ⟨y, hy, hpath⟩ := hlisted.path hm
  have hfirst : ∀ m' ∈ before, m'.path ≠ d.path ++ [y] :=
    fun m' hm' => hpath ▸ Manifest.path_ne_of_inOrder hlisted.nodup horder hm'
  have hearlier := (hturn.steady hs hc hload hlisted he).agree y hy hfirst
  have hagree := hturn.agree hs hc hload hlisted he hreconcile y hy
  obtain ⟨bytes, hbytes⟩ := Manifest.read_of_loadAll hload hm
  have hread : e₂.files.read m.path = .ok bytes := by
    rw [← hbytes, hpath]
    exact (hearlier.trans hagree).read
  exact Manifest.exists_conclude hread

theorem spares_of_apart {m : Manifest} (hm : m ∈ ms) : Spares setting d defaults e ms m := by
  intro before m' e₁ r e₂ hturn _ hreconcile
  obtain ⟨y, hy, hpath⟩ := hlisted.path hm
  rw [hpath]
  exact (hturn.agree hs hc hload hlisted he hreconcile y hy).read

end Turns

end CredentialEngine.Estate
