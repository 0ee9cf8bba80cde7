import CredentialEngine.Proofs.Lifecycle.Deletions
import CredentialEngine.Proofs.Lifecycle.Separation

/-!
# Outcomes of runs

A run of the manifests of a directory gives each of them one turn, whatever becomes of the others,
and counts those that fail. The file of each tells what became of its resource, as long as the
storage does not lay hands on the file later in the run.
-/
namespace CredentialEngine.Estate

open CredentialEngine.Action FileTree

section Runs

variable {σ κ : Type} [Storage σ] [Filed σ] [Control κ] {setting : Setting} {e e' : Estate σ κ}
  {results : List (Manifest × Reconciled)} {d : Directory} {defaults : Manifest.Defaults}
  {ms : List Manifest}

/-- As long as nothing dies and all files can be brought up to date, the turns go on. -/
theorem exists_ran (hload : Manifest.loadAll e.files d defaults = .ok ms)
    (hlives : Lives setting d defaults e ms) (hfiles : Files setting d defaults e ms)
    {before after : List Manifest} (horder : Manifest.inOrder ms = before ++ after) :
    ∃ results e', results.map (·.1) = before ∧ Ran setting (declared ms e) results e' := by
  induction before using List.reverseRecOn generalizing after with
  | nil => exact ⟨[], _, rfl, .start⟩
  | append_singleton before m ih =>
    have horder' : Manifest.inOrder ms = before ++ m :: after := by
      rw [horder, List.append_assoc, List.singleton_append]
    obtain ⟨results, e₁, rfl, hran⟩ := ih horder'
    have hturn := hran.turn_of_order hload horder'
    cases hr : reconcile setting m.resource e₁ with
    | error halt e₂ =>
      obtain rfl := crashed_of_reconcile hr
      exact absurd hr (hlives _ _ _ _ hturn)
    | ok r e₂ =>
      obtain ⟨t, ht⟩ := hfiles _ _ _ _ _ hturn hr
      exact ⟨results ++ [(m, r)], _, by rw [List.map_append, List.map_singleton],
        .turn hran hr ht⟩

/-- The file of a manifest that has had its turn tells what became of its resource, as long as it
has been spared. -/
theorem Ran.tells [LawfulFiled σ] (hload : Manifest.loadAll e.files d defaults = .ok ms)
    (hpaths : ∀ m ∈ ms, ∃ x, m.path = d.path ++ [x]) (hnodup : (ms.map (·.path)).Nodup)
    (h : Ran setting (declared ms e) results e') {after : List Manifest}
    (horder : Manifest.inOrder ms = results.map (·.1) ++ after) {x : Manifest × Reconciled}
    (hx : x ∈ results) (hspares : Spares setting d defaults e ms x.1) :
    x.1.Tells x.2 e'.files := by
  induction h generalizing after with
  | start => exact absurd hx List.not_mem_nil
  | @turn results e₁ e₂ m r t h hreconcile hfile ih =>
    rw [List.map_append, List.map_singleton, List.append_assoc, List.singleton_append] at horder
    have hmem : ∀ m' ∈ results.map (·.1) ++ m :: after, m' ∈ ms :=
      fun m' hm' => Manifest.mem_inOrder (horder ▸ hm')
    obtain ⟨name, hpath⟩ := hpaths m (hmem m (by simp))
    have hset : (e₂.setFiles t).files = t := LawfulFiled.files_setFiles t _
    rw [hset]
    rcases List.mem_append.mp hx with hx | hx
    · have hbefore : x.1 ∈ results.map (·.1) := List.mem_map_of_mem hx
      obtain ⟨name', hpath'⟩ := hpaths x.1 (hmem x.1 (List.mem_append_left _ hbefore))
      have hne := Manifest.path_ne_of_inOrder hnodup horder hbefore
      have hread : t.read x.1.path = e₂.files.read x.1.path := by
        refine (Manifest.agreeOn_conclude ?_ hfile).read
        rw [hpath, hpath', concat_prefix_concat]
        exact fun he => hne (by rw [hpath, hpath', he])
      have hkept := hspares _ _ _ _ _ (h.turn_of_order hload horder) hbefore hreconcile
      exact (ih horder hx).of_read (hread.trans hkept)
    · obtain rfl := List.mem_singleton.mp hx
      have hsame := ((ends_reconcile m.resource).returned hreconcile).2.1
      exact Manifest.tells_of_conclude hpath hsame.metadata.isDeleting hfile

/-- How a run of the manifests of a directory has ended. -/
structure Outcome (setting : Setting) (d : Directory) (defaults : Manifest.Defaults)
    (e : Estate σ κ) (ms : List Manifest) (results : List (Manifest × Reconciled))
    (e' : Estate σ κ) : Prop where
  /-- The run has returned the number of reconciles that failed. -/
  returned : runDirectory setting d defaults e = .ok (failures results) e'
  /-- It would have done so by looking at every manifest in every phase. -/
  phases : runPhases setting Phase.all ms (declared ms e) = .ok (failures results) e'
  /-- Each manifest was reconciled in its turn, on the estate that those before it have left. -/
  history : Ran setting (declared ms e) results e'
  order : results.map (·.1) = Manifest.selected "Account" false ms ++
    Manifest.selected "User" false ms ++ Manifest.selected "User" true ms ++
    Manifest.selected "Account" true ms
  once : (results.map (·.1)).Perm ms ∧ (results.map (·.1)).Nodup
  tells : ∀ x ∈ results, Spares setting d defaults e ms x.1 → x.1.Tells x.2 e'.files

/-- A history of all manifests is a run. -/
theorem Ran.outcome [LawfulFiled σ] {names : List String}
    (hload : Manifest.loadAll e.files d defaults = .ok ms)
    (hlisted : Manifest.Listed e.files d names ms) (h : Ran setting (declared ms e) results e')
    (hall : results.map (·.1) = Manifest.inOrder ms) :
    Outcome setting d defaults e ms results e' := by
  have hrun : runManifests setting (Manifest.inOrder ms) (declared ms e) =
      .ok (failures results) e' := hall ▸ h.runManifests_eq
  have hperm : (results.map (·.1)).Perm ms := hall ▸ Manifest.inOrder_perm ms
  have hpaths : ∀ m ∈ ms, ∃ x, m.path = d.path ++ [x] := by
    intro m hm
    obtain ⟨x, -, hx⟩ := hlisted.path hm
    exact ⟨x, hx⟩
  have horder : Manifest.inOrder ms = results.map (·.1) ++ [] := by rw [hall, List.append_nil]
  exact {
    returned := (runDirectory_of_loaded hload).trans hrun
    phases := (congrFun (runPhases_all ms) _).trans hrun
    history := h
    order := hall.trans (Manifest.inOrder_eq ms)
    once := ⟨hperm, hperm.nodup_iff.mpr (hlisted.nodup.of_map _)⟩
    tells := fun x hx hspares => h.tells hload hpaths hlisted.nodup horder hx hspares }

/-- Whatever the storage, the clusters and the manifests of a directory, as long as no operation
dies and no file of a manifest refuses to be written or removed: the run reconciles all manifests in
the order of their phases, each once, and returns how many reconciles failed. In the end the file of
a manifest tells what became of its resource, unless the storage has laid hands on it since. -/
theorem outcome_of_runDirectory [LawfulFiled σ] (setting : Setting) (d : Directory)
    (defaults : Manifest.Defaults) (e : Estate σ κ) (hdistinct : e.files.Distinct)
    (ms : List Manifest) (hload : Manifest.loadAll e.files d defaults = .ok ms)
    (hlives : Lives setting d defaults e ms) (hfiles : Files setting d defaults e ms) :
    (∃ names, Manifest.Listed e.files d names ms) ∧
      ∃ results e', Outcome setting d defaults e ms results e' := by
  obtain ⟨names, hlisted⟩ := Manifest.listed_of_loadAll hdistinct hload
  obtain ⟨results, e', hall, hran⟩ :=
    exists_ran hload hlives hfiles (List.append_nil (Manifest.inOrder ms)).symm
  exact ⟨⟨names, hlisted⟩, results, e', hran.outcome hload hlisted hall⟩

end Runs

section Closing

open Lifecycle Cluster Secret

theorem agreeing_lives : Control.Maintain Agreeing (· ≠ .crashed) fun _ => True :=
  ⟨fun _ _ => maintains_pure _, fun _ _ => trivial, fun _ => maintains_pure _,
    fun _ => maintains_pure _, fun _ => maintains_pure _⟩

/-- When the shop closes, both of its manifests tell what became of them. -/
theorem outcome_of_runDirectory_closing :
    closingShop.files.Distinct ∧
      Lives shopSetting closingDirectory closingDefaults closingShop
        [leavingManifest, closedManifest] ∧
      Files shopSetting closingDirectory closingDefaults closingShop
        [leavingManifest, closedManifest] ∧
      ∃ results e', Outcome shopSetting closingDirectory closingDefaults closingShop
          [leavingManifest, closedManifest] results e' ∧
        ∀ x ∈ results, x.1.Tells x.2 e'.files := by
  have hdistinct : closingShop.files.Distinct := by
    change List.Nodup _
    decide
  obtain ⟨names, hlisted⟩ := Manifest.listed_of_loadAll hdistinct loadAll_closing
  have hapart := Beside.apart Table.maintain closingDirectory.path names
  have hcluster := Recorded.maintain agreeing_lives
  have hlives : Lives shopSetting closingDirectory closingDefaults closingShop _ :=
    lives_of_apart hapart hcluster loadAll_closing hlisted trivial
  have hfiles : Files shopSetting closingDirectory closingDefaults closingShop _ :=
    files_of_apart hapart hcluster loadAll_closing hlisted trivial
  obtain ⟨-, results, e', houtcome⟩ := outcome_of_runDirectory shopSetting closingDirectory
    closingDefaults closingShop hdistinct _ loadAll_closing hlives hfiles
  refine ⟨hdistinct, hlives, hfiles, results, e', houtcome, fun x hx => houtcome.tells x hx ?_⟩
  have hx' := houtcome.once.1.mem_iff.mp (List.mem_map_of_mem hx)
  exact spares_of_apart hapart hcluster loadAll_closing hlisted trivial hx'

end Closing

/-! ## Secrets outside the manifests -/

/-- With the secrets in a folder outside the manifests and clusters behind links, a run always ends,
and the files of all manifests tell what became of them. -/
theorem outcome_of_folder {τ : Type} [Cluster.Transport τ] (setting : Setting) {d : Directory}
    {defaults : Manifest.Defaults} {e : Estate Secret.Folder (Cluster.Link τ)}
    {ms : List Manifest} (hdistinct : e.files.Distinct)
    (hload : Manifest.loadAll e.files d defaults = .ok ms)
    (hout : ∀ x, Manifest.isName x = true →
      Secret.Folder.Outside e.world.secrets.root d.path x) :
    ∃ results e', Outcome setting d defaults e ms results e' ∧
      ∀ x ∈ results, x.1.Tells x.2 e'.files := by
  obtain ⟨names, hlisted⟩ := Manifest.listed_of_loadAll hdistinct hload
  have hapart : Apart Secret.Folder (fun f => f.root = e.world.secrets.root) d.path names :=
    Secret.Folder.apart fun x hx => hout x ((hlisted.complete x).mp hx).1
  obtain ⟨results, e', hall, hran⟩ := exists_ran hload
    (lives_of_apart hapart Cluster.Link.maintain hload hlisted rfl)
    (files_of_apart hapart Cluster.Link.maintain hload hlisted rfl)
    (List.append_nil (Manifest.inOrder ms)).symm
  have houtcome : Outcome setting d defaults e ms results e' := hran.outcome hload hlisted hall
  refine ⟨results, e', houtcome, fun x hx => houtcome.tells x hx ?_⟩
  have hx' := houtcome.once.1.mem_iff.mp (List.mem_map_of_mem hx)
  exact spares_of_apart hapart Cluster.Link.maintain hload hlisted rfl hx'

/-! ## Secrets among the manifests -/

section Crowded

open Lifecycle Cluster Secret

/-- The manifests of a user and of one that is leaving, among the secrets. The file of the first has
the name of the secret of the second. -/
def crowdedFiles : FileTree where
  nodes := [
    (["manifests"], .dir),
    (["manifests", "alice-nats-user-creds.json"], .file (Key.textBytes
      ("\x7b\"kind\":\"User\",\"metadata\":\x7b\"name\":\"carol\",\"namespace\":\"manifests\"," ++
        "\"uid\":\"u-carol\"\x7d,\"spec\":\x7b\"accountName\":\"orders\"\x7d\x7d"))
      FileTree.ordinaryMode),
    (["manifests", "leaving.yaml"], .file (Key.textBytes ("kind: User\nmetadata:\n  name: alice\n" ++
      "  namespace: manifests\n  uid: u-alice\n  deletionTimestamp: 2023-01-01T00:00:00Z\nspec:\n" ++
      "  accountName: orders\n")) FileTree.ordinaryMode)]

def crowdedDirectory : Directory := ⟨"manifests", ["manifests"]⟩

def crowdedDefaults : Manifest.Defaults := ⟨"default", fun _ => "1"⟩

def carolManifest : Manifest where
  path := ["manifests", "alice-nats-user-creds.json"]
  resource := .user {
    metadata := { name := "carol", space := "manifests", uid := "u-carol" }
    spec := { accountName := "orders" } }

def aliceManifest : Manifest where
  path := ["manifests", "leaving.yaml"]
  resource := .user {
    metadata := {
      name := "alice", space := "manifests", uid := "u-alice", deletion := some ⟨1672531200, 0⟩ }
    spec := { accountName := "orders" } }

def crowded : Estate Folder (Link Unreachable) where
  world := {
    secrets := { files := crowdedFiles }
    cluster := { default := { config := {}, transport := ⟨"refused"⟩ } } }

theorem load_carol :
    Manifest.load crowdedFiles crowdedDirectory crowdedDefaults 0 "alice-nats-user-creds.json" =
      .ok carolManifest := by
  decide +kernel

theorem load_alice :
    Manifest.load crowdedFiles crowdedDirectory crowdedDefaults 1 "leaving.yaml" =
      .ok aliceManifest := by
  decide +kernel

theorem loadAll_crowded : Manifest.loadAll crowded.files crowdedDirectory crowdedDefaults =
    .ok [carolManifest, aliceManifest] :=
  Manifest.loadAll_of_two rfl (by decide) rfl rfl load_carol load_alice

/-- With the secret of the user who leaves, the run removes the manifest of the one who stays. -/
theorem carol_lost : ∃ n e',
    Manifest.loadAll crowded.files crowdedDirectory crowdedDefaults =
      .ok [carolManifest, aliceManifest] ∧
    runDirectory shopSetting crowdedDirectory crowdedDefaults crowded = .ok n e' ∧
    carolManifest.resource.metadata.isDeleting = false ∧
    e'.files.read carolManifest.path = .error .missing ∧
    ∀ r, ¬ carolManifest.Tells r e'.files := by
  obtain ⟨n, e', hrun, hread⟩ : ∃ n e',
      runManifests shopSetting (Manifest.inOrder [carolManifest, aliceManifest])
        (declared [carolManifest, aliceManifest] crowded) = .ok n e' ∧
      e'.files.read carolManifest.path = .error .missing :=
    ⟨_, _, rfl, rfl⟩
  exact ⟨n, e', loadAll_crowded, (runDirectory_of_loaded loadAll_crowded).trans hrun, rfl, hread,
    fun r htells => nomatch (htells.gone.mp hread).1⟩

end Crowded

end CredentialEngine.Estate
