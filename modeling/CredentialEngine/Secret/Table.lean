import CredentialEngine.Secret.Storage

/-!
# Secrets in memory

A table holds at most one record per location. Listing sorts by name.
-/
namespace CredentialEngine.Secret

/-- Records in memory, in the order of their first creation, no two at one location. -/
structure Table where
  records : List Record := []
  distinct : (records.map Record.location).Nodup := by exact List.nodup_nil

namespace Table

instance : Inhabited Table := ⟨{}⟩

def find? (t : Table) (loc : Location) : Option Record :=
  t.records.find? fun r => r.location = loc

/-- A record in place of the one at its location. -/
def revised (r r' : Record) : Record :=
  if r'.location = r.location then r else r'

theorem location_revised (r r' : Record) : (revised r r').location = r'.location := by
  unfold revised
  split
  · rename_i h
    exact h.symm
  · rfl

/-- Sets the record at its location; a new one comes last. -/
def put (t : Table) (r : Record) : Table :=
  if h : r.location ∈ t.records.map Record.location then
    { records := t.records.map (revised r)
      distinct := by
        have he : (Record.location ∘ revised r) = Record.location :=
          funext fun r' => location_revised r r'
        rw [List.map_map, he]
        exact t.distinct }
  else
    { records := t.records ++ [r]
      distinct := by
        rw [List.map_append, List.nodup_append]
        refine ⟨t.distinct, by simp, fun a ha b hb hab => h ?_⟩
        rw [List.map_singleton, List.mem_singleton] at hb
        rw [← hb, ← hab]
        exact ha }

def keep (t : Table) (test : Record → Bool) : Table where
  records := t.records.filter test
  distinct := t.distinct.sublist (List.filter_sublist.map _)

def get (loc : Location) : Action Table Record := do
  match (← EStateM.get).find? loc with
  | some r => return r
  | none => Action.fail (.secretNotFound loc)

/-- The records of a namespace that a selector picks, sorted by name. -/
def selected (t : Table) (space : String) (selector : Labels) : List Record :=
  (t.records.filter fun r => r.space == space && r.selectedBy selector).mergeSort
    fun a b => a.name ≤ b.name

def list (space : String) (selector : Labels) : Action Table (List Record) := do
  return (← EStateM.get).selected space selector

def create (r : Record) : Action Table Unit := do
  let t ← EStateM.get
  match t.find? r.location with
  | some _ => Action.fail (.store (.secretExists r.location : Cause))
  | none => EStateM.set (t.put r)

def update (r : Record) : Action Table Unit := do
  let t ← EStateM.get
  match t.find? r.location with
  | some _ => EStateM.set (t.put r)
  | none => Action.fail (.secretNotFound r.location)

def delete (loc : Location) : Action Table Unit := do
  let t ← EStateM.get
  match t.find? loc with
  | some _ => EStateM.set (t.keep fun r => r.location ≠ loc)
  | none => Action.fail (.secretNotFound loc)

def deleteSelected (space : String) (selector : Labels) : Action Table Nat := do
  let t ← EStateM.get
  let kept := t.keep fun r => !(r.space == space && r.selectedBy selector)
  EStateM.set kept
  return t.records.length - kept.records.length

instance : Storage Table where
  get := get
  list := list
  create := create
  update := update
  delete := delete
  deleteSelected := deleteSelected

end Table

end CredentialEngine.Secret
