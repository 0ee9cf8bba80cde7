import CredentialEngine.Dict

/-!
# Laws of dictionaries

What a key holds after an insertion, an overlay or a construction from pairs, that a dictionary is
rebuilt from its own entries, and that it is determined by what its keys hold.
-/
namespace CredentialEngine.Dict

variable {α : Type}

theorem lookup_cons_ite {κ : Type} [BEq κ] [LawfulBEq κ] [DecidableEq κ] (k l : κ) (u : α)
    (es : List (κ × α)) :
    ((l, u) :: es).lookup k = if k = l then some u else es.lookup k := by
  rw [List.lookup_cons]
  by_cases h : k = l
  · rw [if_pos h, beq_iff_eq.mpr h]
  · rw [if_neg h, beq_eq_false_iff_ne.mpr h]

theorem lookup_insertEntry (k k' : String) (v : α) (es : List (String × α)) :
    (insertEntry k v es).lookup k' = if k' = k then some v else es.lookup k' := by
  induction es with
  | nil => rw [insertEntry, lookup_cons_ite]
  | cons e es ih =>
    obtain ⟨l, u⟩ := e
    rw [insertEntry]
    split
    · rw [lookup_cons_ite]
    · split
      · rename_i hkl
        subst hkl
        by_cases h : k' = k <;> simp [lookup_cons_ite, h]
      · rename_i hkl
        rw [lookup_cons_ite, lookup_cons_ite, ih]
        by_cases hl : k' = l
        · have hk : k' ≠ k := fun h => hkl (h.symm.trans hl)
          rw [if_pos hl, if_neg hk, if_pos hl]
        · rw [if_neg hl, if_neg hl]

@[simp] theorem get?_empty (k : String) : (empty : Dict α).get? k = none := rfl

theorem get?_insert (d : Dict α) (k k' : String) (v : α) :
    (d.insert k v).get? k' = if k' = k then some v else d.get? k' :=
  lookup_insertEntry k k' v d.entries

@[simp] theorem get?_insert_self (d : Dict α) (k : String) (v : α) :
    (d.insert k v).get? k = some v := by
  rw [get?_insert, if_pos rfl]

theorem get?_insert_of_ne (d : Dict α) {k k' : String} (v : α) (h : k' ≠ k) :
    (d.insert k v).get? k' = d.get? k' := by
  rw [get?_insert, if_neg h]

theorem get?_erase (d : Dict α) (k k' : String) :
    (d.erase k).get? k' = if k' = k then none else d.get? k' := by
  obtain ⟨es, hes⟩ := d
  change (es.filter fun e => e.1 ≠ k).lookup k' = if k' = k then none else es.lookup k'
  clear hes
  induction es with
  | nil => simp
  | cons e es ih =>
    obtain ⟨l, v⟩ := e
    by_cases hl : l = k
    · subst hl
      rw [List.filter_cons_of_neg (by simp), ih, lookup_cons_ite]
      by_cases hk : k' = l
      · rw [if_pos hk, if_pos hk]
      · rw [if_neg hk, if_neg hk, if_neg hk]
    · rw [List.filter_cons_of_pos (by simpa using hl), lookup_cons_ite, lookup_cons_ite, ih]
      by_cases hk : k' = l
      · have hne : k' ≠ k := fun he => hl (hk.symm.trans he)
        rw [if_pos hk, if_neg hne, if_pos hk]
      · rw [if_neg hk, if_neg hk]

theorem mem_entries_of_get? {d : Dict α} {k : String} {v : α} (h : d.get? k = some v) :
    (k, v) ∈ d.entries := by
  obtain ⟨l₁, l₂, hl, -⟩ := List.lookup_eq_some_iff.mp h
  rw [hl]
  simp

/-- An entry larger than all others is put at the end. -/
theorem insertEntry_last {k : String} {v : α} {es : List (String × α)}
    (h : ∀ e ∈ es, e.1 < k) : insertEntry k v es = es ++ [(k, v)] := by
  induction es with
  | nil => rfl
  | cons e es ih =>
    obtain ⟨l, u⟩ := e
    have hl : l < k := h (l, u) (by simp)
    have hk : ¬ k < l := String.lt_asymm hl
    have hn : k ≠ l := fun he => String.lt_irrefl l (he ▸ hl)
    rw [insertEntry, if_neg hk, if_neg hn, ih fun e he => h e (List.mem_cons_of_mem _ he), List.cons_append]

theorem foldl_insert_entries (d : Dict α) {es : List (String × α)}
    (h : Ascending (d.entries ++ es)) :
    (es.foldl (fun d e => d.insert e.1 e.2) d).entries = d.entries ++ es := by
  induction es generalizing d with
  | nil => simp
  | cons e es ih =>
    have hlast : (d.insert e.1 e.2).entries = d.entries ++ [e] := by
      refine insertEntry_last fun e' he' => ?_
      exact (List.pairwise_append.mp h).2.2 e' he' e (by simp)
    rw [List.foldl_cons, ih (d.insert e.1 e.2) (by rw [hlast]; simpa using h), hlast]
    simp

theorem ext_entries {d d' : Dict α} (h : d.entries = d'.entries) : d = d' := by
  cases d
  cases d'
  congr

/-- A dictionary is rebuilt from its entries. -/
theorem ofList_entries (d : Dict α) : ofList d.entries = d := by
  apply ext_entries
  exact foldl_insert_entries empty d.ascending

/-! ## Extensionality -/

theorem get?_eq_some_iff {d : Dict α} {k : String} {v : α} :
    d.get? k = some v ↔ (k, v) ∈ d.entries := by
  refine ⟨mem_entries_of_get?, fun h => ?_⟩
  obtain ⟨es, hes⟩ := d
  change es.lookup k = some v
  induction es with
  | nil => contradiction
  | cons e es ih =>
    obtain ⟨l, u⟩ := e
    obtain ⟨hfirst, hrest⟩ := List.pairwise_cons.mp hes
    rw [lookup_cons_ite]
    rcases List.mem_cons.mp h with heq | hmem
    · obtain ⟨rfl, rfl⟩ := Prod.mk.inj heq
      exact if_pos rfl
    · have hne : k ≠ l := fun he => String.lt_irrefl l (he ▸ hfirst (k, v) hmem)
      rw [if_neg hne, ih hrest hmem]

/-- Maps that hold the same under every key are equal. -/
theorem ext_get? {d d' : Dict α} (h : ∀ k, d.get? k = d'.get? k) : d = d' := by
  have hnodup (d : Dict α) : d.entries.Nodup :=
    d.ascending.imp fun {a b} (hlt : a.1 < b.1) (he : a = b) => String.lt_irrefl b.1 (he ▸ hlt)
  have hsame : d.entries.Perm d'.entries := by
    refine (List.perm_ext_iff_of_nodup (hnodup d) (hnodup d')).mpr fun e => ?_
    rw [← get?_eq_some_iff, ← get?_eq_some_iff, h]
  exact ext_entries (hsame.eq_of_pairwise
    (fun _ _ _ _ hlt hgt => absurd hgt (String.lt_asymm hlt)) d.ascending d'.ascending)

/-! ## Overlays -/

theorem get?_foldl_insert (es : List (String × α)) (d : Dict α) (k : String) :
    (es.foldl (fun d e => d.insert e.1 e.2) d).get? k =
      (es.reverse.lookup k).or (d.get? k) := by
  induction es generalizing d with
  | nil => simp
  | cons e es ih =>
    obtain ⟨l, v⟩ := e
    rw [List.foldl_cons, ih, get?_insert, List.reverse_cons, List.lookup_append, lookup_cons_ite]
    by_cases h : k = l <;> simp [h]

theorem get?_overlay (d new : Dict α) (k : String) :
    (d.overlay new).get? k = (new.get? k).or (d.get? k) := by
  have hn := get?_foldl_insert new.entries empty k
  change (ofList new.entries).get? k = _ at hn
  rw [ofList_entries, get?_empty, Option.or_none] at hn
  rw [overlay, get?_foldl_insert, hn]

theorem ofList_entries_append (d : Dict α) (es : List (String × α)) :
    ofList (d.entries ++ es) = es.foldl (fun d e => d.insert e.1 e.2) d := by
  rw [ofList, List.foldl_append]
  exact congrArg (es.foldl _) (ofList_entries d)

theorem empty_overlay (d : Dict α) : empty.overlay d = d :=
  ofList_entries d

/-- A key that the overlay does not set may as well be set after it. -/
theorem overlay_insert {new : Dict α} {k : String} (h : new.get? k = none) (d : Dict α) (v : α) :
    (d.insert k v).overlay new = (d.overlay new).insert k v := by
  apply ext_get?
  intro k'
  rw [get?_overlay, get?_insert, get?_insert, get?_overlay]
  by_cases hk : k' = k
  · rw [if_pos hk, if_pos hk, hk, h, Option.none_or]
  · rw [if_neg hk, if_neg hk]

/-! ## Keys -/

theorem isSome_lookup (es : List (String × α)) (k : String) :
    (es.lookup k).isSome = true ↔ k ∈ es.map (·.1) := by
  rw [List.lookup_isSome_iff, List.mem_map]
  constructor
  · rintro ⟨e, he, hk⟩
    exact ⟨e, he, (beq_iff_eq.mp hk).symm⟩
  · rintro ⟨e, he, hk⟩
    exact ⟨e, he, beq_iff_eq.mpr hk.symm⟩

theorem mem_keys {d : Dict α} {k : String} : k ∈ d.keys ↔ (d.get? k).isSome = true :=
  (isSome_lookup d.entries k).symm

theorem pairwise_keys (d : Dict α) : d.keys.Pairwise (· < ·) :=
  List.pairwise_map.mpr d.ascending

theorem mem_keys_ofList {es : List (String × α)} {k : String} :
    k ∈ (ofList es).keys ↔ k ∈ es.map (·.1) := by
  have hget : (ofList es).get? k = es.reverse.lookup k := by
    rw [ofList, get?_foldl_insert, get?_empty, Option.or_none]
  rw [mem_keys, hget, isSome_lookup, List.map_reverse, List.mem_reverse]

end CredentialEngine.Dict
