import CredentialEngine.Lifecycle.Manifests
import CredentialEngine.Proofs.Dict
import Mathlib.Data.List.Nodup

/-!
# What the catalog lists

A user that is declared under a key of its own is listed in the catalog with its account, and stays
listed whatever is filed or taken out under other keys.
-/
namespace CredentialEngine

/-! ## Manifests with keys of their own -/

/-- The kind of a manifest's resource, and the key under which it is filed. -/
def Manifest.identity (m : Manifest) : String × String :=
  (m.resource.kind, m.resource.metadata.key)

/-- No two manifests of one kind have the same key. -/
def Manifest.Distinct (ms : List Manifest) : Prop :=
  (ms.map Manifest.identity).Nodup

theorem Manifest.identity_user {m : Manifest} {u : User} (h : m.resource = .user u) :
    m.identity = ("User", u.metadata.key) := by
  rw [identity, h]
  rfl

theorem Manifest.Distinct.key_ne {ms : List Manifest} (h : Manifest.Distinct ms)
    {m m' : Manifest} (hm : m ∈ ms) (hm' : m' ∈ ms) (hne : m' ≠ m) {u u' : User}
    (hu : m.resource = .user u) (hu' : m'.resource = .user u') :
    u'.metadata.key ≠ u.metadata.key := by
  intro hkey
  refine hne (List.inj_on_of_nodup_map h hm' hm ?_)
  rw [identity_user hu, identity_user hu', hkey]

theorem Manifest.mem_inOrder {ms : List Manifest} {m : Manifest} (h : m ∈ Manifest.inOrder ms) :
    m ∈ ms := by
  obtain ⟨p, -, hm⟩ := List.mem_flatMap.mp h
  exact (List.mem_filter.mp hm).1

/-! ## Users in the catalog -/

namespace Catalog

/-- The catalog lists a user with its account, whatever its labels and status are. -/
def Lists (c : Catalog) (u : User) : Prop :=
  ∃ u', c.users.get? u.metadata.key = some u' ∧ u'.metadata.space = u.metadata.space ∧
    u'.spec.accountName = u.spec.accountName

theorem lists_putUser {c : Catalog} {u u' : User} (hspace : u'.metadata.space = u.metadata.space)
    (hname : u'.metadata.name = u.metadata.name)
    (haccount : u'.spec.accountName = u.spec.accountName) : (c.putUser u').Lists u := by
  refine ⟨u', ?_, hspace, haccount⟩
  have hkey : u'.metadata.key = u.metadata.key := by
    rw [Metadata.key, Metadata.key, hspace, hname]
  change (c.users.insert u'.metadata.key u').get? u.metadata.key = some u'
  rw [hkey, Dict.get?_insert_self]

/-- Listed users do not depend on what is filed or taken out under other keys. -/
theorem users_put_of_ne {c : Catalog} {x : Resource} {k : String}
    (h : ∀ u, x = .user u → u.metadata.key ≠ k) : (c.put x).users.get? k = c.users.get? k := by
  cases x with
  | account a => rfl
  | user u => exact Dict.get?_insert_of_ne _ _ (h u rfl).symm

theorem users_remove_of_ne {c : Catalog} {x : Resource} {k : String}
    (h : ∀ u, x = .user u → u.metadata.key ≠ k) : (c.remove x).users.get? k = c.users.get? k := by
  cases x with
  | account a => rfl
  | user u =>
    change (c.users.erase u.metadata.key).get? k = c.users.get? k
    rw [Dict.get?_erase, if_neg (h u rfl).symm]

theorem Lists.file {c : Catalog} {u : User} (h : c.Lists u) {r : Reconciled}
    (hne : ∀ u', r.resource = .user u' → u'.metadata.key ≠ u.metadata.key) :
    (r.file c).Lists u := by
  obtain ⟨u', hget, hsame⟩ := h
  refine ⟨u', ?_, hsame⟩
  rw [Reconciled.file]
  split
  · rw [users_remove_of_ne hne]
    exact hget
  · rw [users_put_of_ne hne]
    exact hget

theorem users_foldl_put {ms : List Manifest} {k : String} (c : Catalog)
    (h : ∀ m ∈ ms, ∀ u, m.resource = .user u → u.metadata.key ≠ k) :
    (ms.foldl (fun c m => c.put m.resource) c).users.get? k = c.users.get? k := by
  induction ms generalizing c with
  | nil => rfl
  | cons m ms ih =>
    rw [List.foldl_cons, ih _ fun m' hm' => h m' (List.mem_cons_of_mem _ hm')]
    exact users_put_of_ne (h m List.mem_cons_self)

/-- A user that is declared under a key of its own is listed. -/
theorem lists_foldl_put {ms : List Manifest} (hdistinct : Manifest.Distinct ms) (c : Catalog)
    {m : Manifest} (hm : m ∈ ms) {u : User} (hu : m.resource = .user u) :
    (ms.foldl (fun c m => c.put m.resource) c).Lists u := by
  induction ms generalizing c with
  | nil => exact absurd hm List.not_mem_nil
  | cons m' ms ih =>
    obtain ⟨hfirst, hrest⟩ := List.nodup_cons.mp hdistinct
    rw [List.foldl_cons]
    rcases List.mem_cons.mp hm with rfl | hm
    · have hput : (c.put m.resource).Lists u := by
        rw [hu]
        exact lists_putUser rfl rfl rfl
      obtain ⟨u', hget, hsame⟩ := hput
      refine ⟨u', ?_, hsame⟩
      rw [users_foldl_put _ fun m' hm' u' hu' hkey => hfirst ?_]
      · exact hget
      · refine List.mem_map.mpr ⟨m', hm', ?_⟩
        rw [Manifest.identity_user hu, Manifest.identity_user hu', hkey]
    · exact ih hrest _ hm

end Catalog

end CredentialEngine
