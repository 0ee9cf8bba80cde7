import CredentialEngine.Proofs.Secret.Folder

/-!
# Folders refine tables

Histories of requests to a storage, with their answers. A folder below which nothing lies answers a
history as an empty table does, unless the file system fails.
-/
namespace CredentialEngine.Secret

/-- A request to a storage. -/
inductive Request where
  | get (loc : Location)
  | list (space : String) (selector : Labels)
  | create (r : Record)
  | update (r : Record)
  | delete (loc : Location)
  | deleteSelected (space : String) (selector : Labels)

/-- What a request is answered with. -/
inductive Reply where
  | record (r : Record)
  | records (rs : List Record)
  | done
  | count (n : Nat)
  deriving DecidableEq

/-- A reply, or how the request ended without one. -/
abbrev Answer := Except Halt Reply

def Answer.reportsFault : Answer → Bool
  | .ok _ => false
  | .error e => e.reportsFault

namespace Request

/-- The namespaces and names of a request may stand in paths. -/
def isSafe : Request → Bool
  | get loc => loc.isSafe
  | list space _ => Folder.isSegment space
  | create r => r.location.isSafe
  | update r => r.location.isSafe
  | delete loc => loc.isSafe
  | deleteSelected space _ => Folder.isSegment space

variable {σ : Type} [Storage σ]

def perform : Request → Action σ Reply
  | get loc => .record <$> Storage.get loc
  | list space selector => .records <$> Storage.list space selector
  | create r => (fun _ => .done) <$> Storage.create r
  | update r => (fun _ => .done) <$> Storage.update r
  | delete loc => (fun _ => .done) <$> Storage.delete loc
  | deleteSelected space selector => .count <$> Storage.deleteSelected space selector

/-- The answers to a history of requests, and what it leaves. -/
def run : List Request → σ → List Answer × σ
  | [], s => ([], s)
  | q :: qs, s =>
    match q.perform s with
    | .ok a s => (.ok a :: (run qs s).1, (run qs s).2)
    | .error e s => (.error e :: (run qs s).1, (run qs s).2)

end Request

namespace Folder

open Request

theorem Agrees.map {root : Path} {α β : Type} (g : α → β) {act : Action Folder α}
    {act' : Action Table α} {f : Folder} {t : Table} (h : Agrees root (act f) (act' t)) :
    Agrees root ((g <$> act) f) ((g <$> act') t) := by
  change Agrees root (EStateM.map g act f) (EStateM.map g act' t)
  rw [EStateM.map, EStateM.map]
  cases hx : act f with
  | ok a f' =>
    rw [hx] at h
    cases hy : act' t with
    | ok b t' =>
      rw [hy] at h
      cases h with
      | ok h => exact .ok h
    | error e t' =>
      rw [hy] at h
      cases h
  | error e f' =>
    rw [hx] at h
    cases hy : act' t with
    | ok b t' =>
      rw [hy] at h
      cases h with
      | fault h => exact .fault h
    | error e t' =>
      rw [hy] at h
      cases h with
      | error h => exact .error h
      | fault h => exact .fault h

/-- A request is answered alike, and what it leaves stays alike. -/
theorem perform_agrees {root : Path} {f : Folder} {t : Table} (h : Represents root f t)
    {q : Request} (hs : q.isSafe = true) : Agrees root (q.perform f) (q.perform t) := by
  cases q with
  | get loc => exact (get_agrees h hs).map _
  | list space selector => exact (list_agrees h hs selector).map _
  | create r => exact (create_agrees h hs).map _
  | update r => exact (update_agrees h hs).map _
  | delete loc => exact (delete_agrees h hs).map _
  | deleteSelected space selector => exact (deleteSelected_agrees h hs selector).map _

/-- A history without faults is answered alike to its end. -/
theorem run_agrees {root : Path} {qs : List Request} (hs : ∀ q ∈ qs, q.isSafe = true) {f : Folder}
    {t : Table} (h : Represents root f t)
    (hf : ∀ a ∈ (run qs f).1, ¬ a.reportsFault = true) :
    (run qs f).1 = (run qs t).1 ∧ Represents root (run qs f).2 (run qs t).2 := by
  induction qs generalizing f t with
  | nil => exact ⟨rfl, h⟩
  | cons q qs ih =>
    rw [List.forall_mem_cons] at hs
    have hq := perform_agrees h hs.1
    rw [run] at hf ⊢
    rw [run]
    cases hx : q.perform f with
    | ok a f' =>
      rw [hx] at hq
      simp only [hx, List.forall_mem_cons] at hf
      cases hy : q.perform t with
      | ok b t' =>
        rw [hy] at hq
        cases hq with
        | ok h' =>
          obtain ⟨ha, hr⟩ := ih hs.2 h' hf.2
          exact ⟨congrArg _ ha, hr⟩
      | error e t' =>
        rw [hy] at hq
        cases hq
    | error e f' =>
      rw [hx] at hq
      simp only [hx, List.forall_mem_cons] at hf
      cases hy : q.perform t with
      | ok b t' =>
        rw [hy] at hq
        cases hq with
        | fault he => exact absurd he hf.1
      | error e' t' =>
        rw [hy] at hq
        cases hq with
        | error h' =>
          obtain ⟨ha, hr⟩ := ih hs.2 h' hf.2
          exact ⟨congrArg _ ha, hr⟩
        | fault he => exact absurd he hf.1

/-- Nothing lies below the root. -/
def IsEmpty (f : Folder) : Prop :=
  f.files.Distinct ∧ ∀ e ∈ f.files.nodes, f.root <+: e.1 → e.1 = f.root

theorem IsEmpty.represents {f : Folder} (h : f.IsEmpty) : Represents f.root f {} := by
  refine ⟨rfl, h.1, nofun, nofun, fun space x n hn => ?_⟩
  have hm := FileTree.mem_nodes_of_node? (by simp) hn
  have he := h.2 _ hm ⟨[space, x], by simp [directory]⟩
  have hl := congrArg List.length he
  simp [directory] at hl

/-- An empty folder answers every history of safe requests as an empty table does, as long as no
file operation fails except for want of the file. At its end every record is read back from its
own file as the table has it, and every document in a namespace's directory is one of a record. -/
theorem folder_refines_table (qs : List Request) (hs : ∀ q ∈ qs, q.isSafe = true) (f : Folder)
    (he : f.IsEmpty) (hf : ∀ a ∈ (run qs f).1, ¬ a.reportsFault = true) :
    (run qs f).1 = (run qs ({} : Table)).1 ∧
    (∀ r ∈ (run qs ({} : Table)).2.records, ∃ bytes,
      (run qs f).2.files.read (recordPath f.root r.location) = .ok bytes ∧
      (Json.ofBytes? bytes).bind Record.ofJson? = some r) ∧
    (∀ space names, (run qs f).2.files.names (directory f.root space) = .ok names →
      ∀ x ∈ names, FileTree.extension? x = some "json" →
        ∃ r ∈ (run qs ({} : Table)).2.records, r.space = space ∧ x = r.name ++ ".json") := by
  obtain ⟨ha, hr⟩ := run_agrees hs he.represents hf
  refine ⟨ha, fun r hm => ?_, fun space names hnames x hx hjson => ?_⟩
  · obtain ⟨mode, hp⟩ := hr.present r hm
    refine ⟨r.document, ?_, r.ofJson?_document⟩
    rw [FileTree.read, hp]
  · obtain ⟨n, hn⟩ := ((FileTree.names_ok hnames).1 x).mp hx
    refine (hr.named space x n hn).resolve_right fun htmp => ?_
    rw [hjson] at htmp
    exact absurd htmp (by decide)

def shopSeed : Record :=
  { space := "tenants", name := "shop", labels := .ofList [("kind", "root")],
    data := .ofList [("default", "a \"seed\"")] }

/-- A record is created, refused, listed and deleted. -/
def shopHistory : List Request :=
  [.create shopSeed, .create shopSeed, .list "tenants" .empty, .deleteSelected "tenants" .empty,
    .get shopSeed.location]

theorem folder_refines_table_shop :
    (run shopHistory ({ root := ["secrets"] } : Folder)).1 = (run shopHistory ({} : Table)).1 ∧
    (∀ r ∈ (run shopHistory ({} : Table)).2.records, ∃ bytes,
      (run shopHistory ({ root := ["secrets"] } : Folder)).2.files.read
        (recordPath ["secrets"] r.location) = .ok bytes ∧
      (Json.ofBytes? bytes).bind Record.ofJson? = some r) ∧
    (∀ space names, (run shopHistory ({ root := ["secrets"] } : Folder)).2.files.names
        (directory ["secrets"] space) = .ok names →
      ∀ x ∈ names, FileTree.extension? x = some "json" →
        ∃ r ∈ (run shopHistory ({} : Table)).2.records, r.space = space ∧ x = r.name ++ ".json") :=
  folder_refines_table shopHistory (by decide +kernel) { root := ["secrets"] }
    ⟨List.nodup_nil, nofun⟩ (by decide +kernel)

end Folder

end CredentialEngine.Secret
