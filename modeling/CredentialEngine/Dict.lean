/-!
# Dictionaries

Finite maps from texts to values, kept in ascending order of their keys. Texts compare by code
point, which is also the order of their UTF-8 bytes. Equal maps are equal values.
-/
namespace CredentialEngine

/-- Every key is smaller than the ones after it. -/
abbrev Ascending {α : Type} (entries : List (String × α)) : Prop :=
  entries.Pairwise fun a b => a.1 < b.1

/-- Puts an entry at its place; an entry of the same key is replaced. -/
def insertEntry {α : Type} (k : String) (v : α) : List (String × α) → List (String × α)
  | [] => [(k, v)]
  | (k', v') :: es =>
    if k < k' then (k, v) :: (k', v') :: es
    else if k = k' then (k, v) :: es
    else (k', v') :: insertEntry k v es

theorem mem_insertEntry {α : Type} {k : String} {v : α} {es : List (String × α)}
    {e : String × α} (h : e ∈ insertEntry k v es) : e = (k, v) ∨ e ∈ es := by
  induction es with
  | nil => simp_all [insertEntry]
  | cons x es ih =>
    obtain ⟨k', v'⟩ := x
    simp only [insertEntry] at h
    split at h
    · simp_all
    · split at h
      · simp_all; grind
      · rcases List.mem_cons.mp h with h | h
        · simp [h]
        · rcases ih h with h | h <;> simp [h]

theorem ascending_insertEntry {α : Type} (k : String) (v : α) {es : List (String × α)}
    (h : Ascending es) : Ascending (insertEntry k v es) := by
  induction es with
  | nil => simp [insertEntry]
  | cons x es ih =>
    obtain ⟨k', v'⟩ := x
    have hs := List.pairwise_cons.mp h
    simp only [insertEntry]
    split
    · rename_i hlt
      refine List.pairwise_cons.mpr ⟨?_, h⟩
      intro e he
      rcases List.mem_cons.mp he with rfl | he
      · exact hlt
      · exact String.lt_trans hlt (hs.1 e he)
    · split
      · rename_i heq
        subst heq
        exact List.pairwise_cons.mpr ⟨hs.1, hs.2⟩
      · rename_i hlt hne
        refine List.pairwise_cons.mpr ⟨?_, ih hs.2⟩
        intro e he
        rcases mem_insertEntry he with rfl | he
        · have hle : k' ≤ k := String.not_lt.mp hlt
          rcases Decidable.em (k' < k) with h' | h'
          · exact h'
          · exact absurd (String.le_antisymm (String.not_lt.mp h') hle) hne
        · exact hs.1 e he

structure Dict (α : Type) where
  entries : List (String × α) := []
  ascending : Ascending entries := by exact List.Pairwise.nil
  deriving DecidableEq

namespace Dict

variable {α : Type}

def empty : Dict α := {}

instance : Inhabited (Dict α) := ⟨empty⟩

def isEmpty (d : Dict α) : Bool :=
  d.entries.isEmpty

def toList (d : Dict α) : List (String × α) :=
  d.entries

def keys (d : Dict α) : List String :=
  d.entries.map (·.1)

def get? (d : Dict α) (k : String) : Option α :=
  d.entries.lookup k

def insert (d : Dict α) (k : String) (v : α) : Dict α :=
  ⟨insertEntry k v d.entries, ascending_insertEntry k v d.ascending⟩

def erase (d : Dict α) (k : String) : Dict α :=
  ⟨d.entries.filter fun e => e.1 ≠ k, d.ascending.filter _⟩

/-- Sets every entry of the second map in the first. -/
def overlay (d new : Dict α) : Dict α :=
  new.entries.foldl (fun d e => d.insert e.1 e.2) d

/-- The map of a list of entries, of which the later ones win. -/
def ofList (es : List (String × α)) : Dict α :=
  es.foldl (fun d e => d.insert e.1 e.2) empty

end Dict

end CredentialEngine
