import CredentialEngine.Catalog
import CredentialEngine.Claims.Account
import CredentialEngine.Proofs.Dict
import CredentialEngine.Proofs.Text.Order
import Mathlib.Data.List.Forall2
import Mathlib.Data.List.Nodup

/-!
# Imports are sound or reported

The imports of an account are sound when each names an account with an id and no two are visible
under one subject. A build accepts exactly the sound ones, each becoming one claim at its place, and
otherwise lists every import that names no such account and every subject that others share.
-/
namespace CredentialEngine

theorem Account.id?_eq_some {a : Account} {id : String} :
    a.id? = some id ↔ a.metadata.labels.get? Label.accountId = some id ∧ id ≠ "" := by
  simp [Account.id?, Metadata.label?, Option.filter_eq_some_iff]

namespace Claims

/-- The account that an import names has an id: the one that the catalog labels the referenced
account with or, without a reference, the one that is given. -/
inductive Resolves (c : Catalog) (space : String) (i : Import) (id : String) : Prop
  | reference (r : Reference) (a : Account) (hsource : i.source = some r)
      (hfound : c.account? (r.space.getD space) r.name = some a)
      (hid : a.metadata.labels.get? Label.accountId = some id) (hne : id ≠ "")
  | direct (hsource : i.source = none) (hid : i.account = some id)
      (hkey : Key.isPublicText id Key.accountLead = true)

/-- Why the account that an import names has no id. -/
inductive Unresolvable (c : Catalog) (space : String) (i : Import) : Unresolved → Prop
  | unknown (r : Reference) (hsource : i.source = some r)
      (habsent : c.account? (r.space.getD space) r.name = none) :
      Unresolvable c space i (.unknown (r.space.getD space) r.name)
  | notReady (r : Reference) (a : Account) (hsource : i.source = some r)
      (hfound : c.account? (r.space.getD space) r.name = some a)
      (hid : ∀ id, a.metadata.labels.get? Label.accountId = some id → id = "") :
      Unresolvable c space i (.notReady (r.space.getD space) r.name)
  | noValidId (hsource : i.source = none)
      (hid : ∀ id, i.account = some id → Key.isPublicText id Key.accountLead = false) :
      Unresolvable c space i (.noValidId i.account)

/-- One issue for each import that names no account with an id, in the order of the imports. -/
inductive Reported (c : Catalog) (space : String) : List Import → List Issue → Prop
  | nil : Reported c space [] []
  | resolved {i : Import} {is : List Import} {id : String} {issues : List Issue}
      (hi : Resolves c space i id) (his : Reported c space is issues) :
      Reported c space (i :: is) issues
  | unresolvable {i : Import} {is : List Import} {cause : Unresolved} {issues : List Issue}
      (hno : ∀ id, ¬ Resolves c space i id) (hi : Unresolvable c space i cause)
      (his : Reported c space is issues) :
      Reported c space (i :: is) (.unresolvedImport (importLabel i) cause :: issues)

/-- Two imports that resolve are visible under the subject. -/
def Shared (c : Catalog) (space : String) (imports : List Import) (subject : String) : Prop :=
  ∃ i j, [i, j].Sublist imports ∧ (∃ id, Resolves c space i id) ∧ (∃ id, Resolves c space j id) ∧
    i.effectiveSubject = subject ∧ j.effectiveSubject = subject

/-- Every import resolves and no two are visible under one subject. -/
structure Sound (c : Catalog) (space : String) (imports : List Import) : Prop where
  resolves : ∀ i ∈ imports, ∃ id, Resolves c space i id
  distinct : (imports.map Import.effectiveSubject).Nodup

/-- Everything wrong with imports that are not sound: the unresolvable ones in their order, then the
shared subjects in the order of their bytes. -/
structure Report (c : Catalog) (space : String) (imports : List Import) (issues : List Issue)
    (subjects : List String) : Prop where
  reported : Reported c space imports issues
  shared : ∀ subject, subject ∈ subjects ↔ Shared c space imports subject
  ascending : subjects.Pairwise fun s t => Key.textBytes s < Key.textBytes t

/-! ## Resolution -/

variable {c : Catalog} {space : String}

theorem standing_eq_issued {sourceSpace name id : String} :
    c.standing sourceSpace name = .issued id ↔ ∃ a, c.account? sourceSpace name = some a ∧
      a.metadata.labels.get? Label.accountId = some id ∧ id ≠ "" := by
  simp only [← Account.id?_eq_some]
  unfold Catalog.standing
  cases c.account? sourceSpace name with
  | none => simp
  | some a => cases ha : a.id? <;> simp [ha]

theorem standing_eq_unknown {sourceSpace name : String} :
    c.standing sourceSpace name = .unknown ↔ c.account? sourceSpace name = none := by
  unfold Catalog.standing
  cases c.account? sourceSpace name with
  | none => simp
  | some a => cases ha : a.id? <;> simp [ha]

theorem standing_eq_notReady {sourceSpace name : String} :
    c.standing sourceSpace name = .notReady ↔ ∃ a, c.account? sourceSpace name = some a ∧
      ∀ id, a.metadata.labels.get? Label.accountId = some id → id = "" := by
  unfold Catalog.standing
  cases c.account? sourceSpace name with
  | none => simp
  | some a =>
    simp only [Option.some.injEq, exists_eq_left']
    cases ha : a.id? with
    | none =>
      have hnone : ∀ id, a.metadata.labels.get? Label.accountId = some id → id = "" := by
        intro id hid
        by_contra hne
        rw [Account.id?_eq_some.mpr ⟨hid, hne⟩] at ha
        cases ha
      exact ⟨fun _ => hnone, fun _ => rfl⟩
    | some id =>
      obtain ⟨hid, hne⟩ := Account.id?_eq_some.mp ha
      exact ⟨nofun, fun h => absurd (h id hid) hne⟩

theorem resolveSource_eq_ok {i : Import} {id : String} :
    resolveSource space c.standing i = .ok id ↔ Resolves c space i id := by
  unfold resolveSource
  constructor
  · intro h
    split at h
    · rename_i r hsource
      dsimp only at h
      split at h
      · rename_i id' hstanding
        obtain rfl := Except.ok.inj h
        obtain ⟨a, hfound, hid, hne⟩ := standing_eq_issued.mp hstanding
        exact .reference r a hsource hfound hid hne
      · cases h
      · cases h
    · rename_i hsource
      split at h
      · rename_i id' hid
        split at h
        · rename_i hkey
          obtain rfl := Except.ok.inj h
          exact .direct hsource hid hkey
        · cases h
      · cases h
  · rintro (⟨r, a, hsource, hfound, hid, hne⟩ | ⟨hsource, hid, hkey⟩)
    · simp only [hsource, standing_eq_issued.mpr ⟨a, hfound, hid, hne⟩]
    · simp only [hsource, hid, hkey, if_true]

theorem unresolvable_of_error {i : Import} {cause : Unresolved}
    (h : resolveSource space c.standing i = .error cause) : Unresolvable c space i cause := by
  unfold resolveSource at h
  split at h
  · rename_i r hsource
    dsimp only at h
    split at h
    · cases h
    · rename_i hstanding
      obtain rfl := Except.error.inj h
      obtain ⟨a, hfound, hid⟩ := standing_eq_notReady.mp hstanding
      exact .notReady r a hsource hfound hid
    · rename_i hstanding
      obtain rfl := Except.error.inj h
      exact .unknown r hsource (standing_eq_unknown.mp hstanding)
  · rename_i hsource
    split at h
    · rename_i id hid
      split at h
      · cases h
      · rename_i hkey
        obtain rfl := Except.error.inj h
        rw [← hid]
        refine .noValidId hsource fun id' hid' => ?_
        rw [hid, Option.some.injEq] at hid'
        rw [← hid']
        exact Bool.eq_false_iff.mpr hkey
    · rename_i hid
      obtain rfl := Except.error.inj h
      rw [← hid]
      refine .noValidId hsource fun id' hid' => ?_
      rw [hid] at hid'
      cases hid'

/-- An import as it appears in claims: at the account that it resolves to, its other fields kept. -/
structure Imported (resolver : Resolver) (space : String) (i : Import) (j : ImportClaim) : Prop where
  account : resolveSource space resolver i = .ok j.account
  claim : j = importClaim i j.account

/-- Resolution succeeds for an import. -/
def resolvable (resolver : Resolver) (space : String) (i : Import) : Bool :=
  (resolveSource space resolver i).isOk

theorem resolvable_iff {i : Import} :
    resolvable c.standing space i = true ↔ ∃ id, Resolves c space i id := by
  simp only [← resolveSource_eq_ok, resolvable]
  cases resolveSource space c.standing i <;> simp [Except.isOk, Except.toBool]

theorem effectiveSubject_importClaim (i : Import) (account : String) :
    (importClaim i account).effectiveSubject = i.effectiveSubject := by
  unfold ImportClaim.effectiveSubject Import.effectiveSubject importClaim
  cases i.localSubject with
  | none => rfl
  | some s => rfl

theorem subjects_of_imported {resolver : Resolver} {imports : List Import}
    {claims : List ImportClaim} (h : List.Forall₂ (Imported resolver space) imports claims) :
    claims.map ImportClaim.effectiveSubject = imports.map Import.effectiveSubject := by
  induction h with
  | nil => rfl
  | cons hij _ ih =>
    rw [List.map_cons, List.map_cons, ih, hij.claim, effectiveSubject_importClaim]

/-- The imports that resolve become one claim each, in their order. -/
theorem imported_resolveImports (resolver : Resolver) (space : String) (imports : List Import) :
    List.Forall₂ (Imported resolver space) (imports.filter (resolvable resolver space))
      (resolveImports space resolver imports).imports := by
  induction imports with
  | nil => exact .nil
  | cons i is ih =>
    rw [resolveImports, List.filter_cons]
    cases hi : resolveSource space resolver i with
    | ok id =>
      have hres : resolvable resolver space i = true := by rw [resolvable, hi]; rfl
      rw [if_pos hres]
      exact .cons ⟨hi, rfl⟩ ih
    | error cause =>
      have hres : resolvable resolver space i = false := by rw [resolvable, hi]; rfl
      rw [hres]
      exact ih

theorem no_issues_iff {resolver : Resolver} {imports : List Import} :
    (resolveImports space resolver imports).issues = [] ↔
      ∀ i ∈ imports, resolvable resolver space i = true := by
  induction imports with
  | nil => exact ⟨fun _ => nofun, fun _ => rfl⟩
  | cons i is ih =>
    rw [List.forall_mem_cons, resolveImports, ← ih, resolvable]
    cases resolveSource space resolver i with
    | ok id => exact ⟨fun h => ⟨rfl, h⟩, fun h => h.2⟩
    | error cause => exact ⟨nofun, fun h => absurd h.1 Bool.false_ne_true⟩

/-- Where nothing is to be reported every import becomes one claim. -/
theorem imported_of_no_issues (resolver : Resolver) (space : String) (imports : List Import)
    (h : (resolveImports space resolver imports).issues = []) :
    List.Forall₂ (Imported resolver space) imports
      (resolveImports space resolver imports).imports := by
  have hall : imports.filter (resolvable resolver space) = imports :=
    List.filter_eq_self.mpr (no_issues_iff.mp h)
  have hkept := imported_resolveImports resolver space imports
  rwa [hall] at hkept

theorem reported_resolveImports (imports : List Import) :
    Reported c space imports (resolveImports space c.standing imports).issues := by
  induction imports with
  | nil => exact .nil
  | cons i is ih =>
    rw [resolveImports]
    cases hi : resolveSource space c.standing i with
    | ok id => exact .resolved (resolveSource_eq_ok.mp hi) ih
    | error cause =>
      refine .unresolvable (fun id hres => ?_) (unresolvable_of_error hi) ih
      cases hi.symm.trans (resolveSource_eq_ok.mpr hres)

/-! ## Conflicts -/

theorem mem_conflicts_iff_count {imports : List ImportClaim} {s : String} :
    s ∈ conflicts imports ↔ 2 ≤ (imports.map ImportClaim.effectiveSubject).count s := by
  rw [conflicts, Dict.mem_keys_ofList]
  simp only [List.map_map, Function.comp_def, List.map_id', List.mem_filter, decide_eq_true_eq]
  constructor
  · exact fun h => h.2
  · exact fun h => ⟨List.count_pos_iff.mp (by omega), h⟩

theorem mem_conflicts {imports : List ImportClaim} {s : String} :
    s ∈ conflicts imports ↔ [s, s].Sublist (imports.map ImportClaim.effectiveSubject) :=
  mem_conflicts_iff_count.trans (List.replicate_sublist_iff (n := 2)).symm

theorem ascending_conflicts (imports : List ImportClaim) :
    (conflicts imports).Pairwise fun s t => Key.textBytes s < Key.textBytes t :=
  (Dict.pairwise_keys _).imp Text.textBytes_lt

theorem conflicts_eq_nil {imports : List ImportClaim} :
    conflicts imports = [] ↔ (imports.map ImportClaim.effectiveSubject).Nodup := by
  rw [List.eq_nil_iff_forall_not_mem, List.nodup_iff_sublist]
  simp only [mem_conflicts]

theorem pair_sublist_filter {α : Type} {p : α → Bool} {x y : α} {xs : List α} :
    [x, y].Sublist (xs.filter p) ↔ [x, y].Sublist xs ∧ p x = true ∧ p y = true := by
  constructor
  · intro h
    have hx := List.mem_filter.mp (h.subset (List.mem_cons_self ..))
    have hy := List.mem_filter.mp (h.subset (List.mem_cons_of_mem _ (List.mem_cons_self ..)))
    exact ⟨h.trans List.filter_sublist, hx.2, hy.2⟩
  · rintro ⟨h, hx, hy⟩
    have hf := h.filter p
    rwa [List.filter_cons_of_pos hx, List.filter_cons_of_pos hy, List.filter_nil] at hf

theorem pair_sublist_map {α β : Type} {f : α → β} {s : β} {xs : List α} :
    [s, s].Sublist (xs.map f) ↔ ∃ i j, [i, j].Sublist xs ∧ f i = s ∧ f j = s := by
  rw [List.sublist_map_iff]
  constructor
  · rintro ⟨pair, hsub, hpair⟩
    obtain ⟨i, rest, rfl, hi, hrest⟩ := List.map_eq_cons_iff.mp hpair.symm
    obtain ⟨j, rest, rfl, hj, hnil⟩ := List.map_eq_cons_iff.mp hrest
    obtain rfl := List.map_eq_nil_iff.mp hnil
    exact ⟨i, j, hsub, hi, hj⟩
  · rintro ⟨i, j, hsub, hi, hj⟩
    exact ⟨[i, j], hsub, by rw [List.map_cons, List.map_singleton, hi, hj]⟩

/-- The conflicts among resolved imports are the subjects that two of the declared ones share. -/
theorem mem_conflicts_resolveImports {imports : List Import} {s : String} :
    s ∈ conflicts (resolveImports space c.standing imports).imports ↔
      Shared c space imports s := by
  rw [mem_conflicts, subjects_of_imported (imported_resolveImports c.standing space imports),
    pair_sublist_map]
  simp only [pair_sublist_filter, resolvable_iff, and_assoc, Shared]

/-! ## Building -/

theorem append_conflicts_eq_nil {resolved : Resolution} :
    resolved.issues ++ (conflicts resolved.imports).map .conflictingSubject = [] ↔
      resolved.issues = [] ∧ conflicts resolved.imports = [] := by
  rw [List.append_eq_nil_iff, List.map_eq_nil_iff]

/-- A build accepts resolved imports as they are if there is nothing to report. -/
theorem buildAccount_of_clean (name id : String) (spec : AccountSpec) (signingKeys : List String)
    {resolved : Resolution} (hissues : resolved.issues = [])
    (hconflicts : conflicts resolved.imports = []) :
    buildAccount name id spec resolved signingKeys =
      .ok ⟨name, id, none, {
        limits := limitSet spec
        exports := spec.exports.map exportClaim
        imports := resolved.imports
        signingKeys := signingKeys
        kind := accountKind
        version := layoutVersion }⟩ := by
  simp only [buildAccount, checkImports, hconflicts, hissues, List.append_nil]

/-- A build fails with all that there is to report. -/
theorem buildAccount_of_issues (name id : String) (spec : AccountSpec) (signingKeys : List String)
    {resolved : Resolution} {issues : List Issue}
    (hall : resolved.issues ++ (conflicts resolved.imports).map .conflictingSubject = issues)
    (hne : issues ≠ []) :
    buildAccount name id spec resolved signingKeys = .error (.invalid issues) := by
  have hchecked : (checkImports resolved.imports).2 =
      (conflicts resolved.imports).map .conflictingSubject := by
    unfold checkImports
    cases conflicts resolved.imports <;> rfl
  rw [← hchecked] at hall
  unfold buildAccount
  dsimp only
  rw [hall]
  cases issues with
  | nil => exact absurd rfl hne
  | cons issue issues => rfl

/-- What is built has nothing to report. -/
theorem clean_of_buildAccount {name id : String} {spec : AccountSpec} {resolved : Resolution}
    {signingKeys : List String} {claims : AccountClaims}
    (h : buildAccount name id spec resolved signingKeys = .ok claims) :
    resolved.issues = [] ∧ conflicts resolved.imports = [] := by
  by_contra hclean
  have hne := mt append_conflicts_eq_nil.mp hclean
  cases (buildAccount_of_issues name id spec signingKeys rfl hne).symm.trans h

theorem resolves_iff_no_issues {imports : List Import} :
    (∀ i ∈ imports, ∃ id, Resolves c space i id) ↔
      (resolveImports space c.standing imports).issues = [] := by
  simp only [no_issues_iff, resolvable_iff]

theorem sound_iff (c : Catalog) (space : String) (imports : List Import) :
    Sound c space imports ↔
      (resolveImports space c.standing imports).issues = [] ∧
        conflicts (resolveImports space c.standing imports).imports = [] := by
  have hsubjects (h : (resolveImports space c.standing imports).issues = []) :=
    subjects_of_imported (imported_of_no_issues c.standing space imports h)
  constructor
  · intro h
    have hissues := resolves_iff_no_issues.mp h.resolves
    refine ⟨hissues, conflicts_eq_nil.mpr ?_⟩
    rw [hsubjects hissues]
    exact h.distinct
  · rintro ⟨hissues, hconflicts⟩
    refine ⟨resolves_iff_no_issues.mpr hissues, ?_⟩
    rw [← hsubjects hissues]
    exact conflicts_eq_nil.mp hconflicts

theorem report_resolveImports (c : Catalog) (space : String) (imports : List Import) :
    Report c space imports (resolveImports space c.standing imports).issues
      (conflicts (resolveImports space c.standing imports).imports) where
  reported := reported_resolveImports imports
  shared _ := mem_conflicts_resolveImports
  ascending := ascending_conflicts _

/-- Resolving the imports of an account and building its claims succeeds exactly for sound imports.
The claims then hold one import for each declared one, in order and visible under the same subject;
otherwise the error is the whole report and nothing else. -/
theorem buildAccount_ok_iff_sound (c : Catalog) (space name id : String) (spec : AccountSpec)
    (signingKeys : List String) :
    ((∃ claims, buildAccount name id spec (resolveImports space c.standing spec.imports)
        signingKeys = .ok claims) ↔ Sound c space spec.imports) ∧
    (∀ claims, buildAccount name id spec (resolveImports space c.standing spec.imports)
        signingKeys = .ok claims →
      List.Forall₂ (fun i j => Resolves c space i j.account ∧ j = importClaim i j.account ∧
          j.effectiveSubject = i.effectiveSubject)
        spec.imports claims.body.imports) ∧
    (∀ error, buildAccount name id spec (resolveImports space c.standing spec.imports)
        signingKeys = .error error →
      ∃ issues subjects, Report c space spec.imports issues subjects ∧
        error = .invalid (issues ++ subjects.map .conflictingSubject)) := by
  have hreport := report_resolveImports c space spec.imports
  have hsound := sound_iff c space spec.imports
  have himported := imported_of_no_issues c.standing space spec.imports
  generalize resolveImports space c.standing spec.imports = resolved at hreport hsound himported ⊢
  refine ⟨⟨?_, fun h => ?_⟩, fun claims h => ?_, fun error h => ?_⟩
  · rintro ⟨claims, h⟩
    exact hsound.mpr (clean_of_buildAccount h)
  · obtain ⟨hissues, hconflicts⟩ := hsound.mp h
    exact ⟨_, buildAccount_of_clean name id spec signingKeys hissues hconflicts⟩
  · obtain ⟨hissues, hconflicts⟩ := clean_of_buildAccount h
    rw [buildAccount_of_clean name id spec signingKeys hissues hconflicts] at h
    obtain rfl := Except.ok.inj h
    refine (himported hissues).imp fun i j hij => ⟨resolveSource_eq_ok.mp hij.account, hij.claim, ?_⟩
    rw [hij.claim, effectiveSubject_importClaim]
  · have hne : resolved.issues ++ (conflicts resolved.imports).map .conflictingSubject ≠ [] := by
      intro hnil
      obtain ⟨hissues, hconflicts⟩ := append_conflicts_eq_nil.mp hnil
      rw [buildAccount_of_clean name id spec signingKeys hissues hconflicts] at h
      cases h
    rw [buildAccount_of_issues name id spec signingKeys rfl hne] at h
    obtain rfl := Except.error.inj h
    exact ⟨_, _, hreport, rfl⟩

end Claims

end CredentialEngine
