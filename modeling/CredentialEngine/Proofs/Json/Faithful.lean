import CredentialEngine.Json.Shape
import CredentialEngine.Proofs.Dict
import CredentialEngine.Proofs.Json.Layout

/-!
# Shapes that lose nothing

A writer and a reader of one type are faithful when every value is read back from what is written
for it, and what is written has a text. Fields of a record may be left out; a faithful field is read
back from its absence as well. Records of faithful fields are faithful.
-/
namespace CredentialEngine.Json

variable {α : Type}

/-- Every value is written as something that is not null, has a text and reads back as the value. -/
structure Faithful (write : α → Json) (read : Json → Option α) : Prop where
  read_write : ∀ x, read (write x) = some x
  writable : ∀ x, (write x).isWritable = true
  ne_null : ∀ x, write x ≠ .null

/-- Every value is read back from its field, whether that is left out or not. -/
structure FaithfulField (put : α → Option Json) (get : Option Json → Option α) : Prop where
  get_put : ∀ x, get (put x) = some x
  writable : ∀ x, ∀ v ∈ put x, v.isWritable = true

/-- Reading goes on with the value that was put in a field. -/
theorem FaithfulField.bind_put {β : Type} {put : α → Option Json} {get : Option Json → Option α}
    (h : FaithfulField put get) (x : α) (k : α → Option β) : (get (put x) >>= k) = k x := by
  rw [h.get_put]
  rfl

/-! ## Atoms -/

theorem faithful_text : Faithful .str asText where
  read_write _ := rfl
  writable _ := rfl
  ne_null _ := nofun

theorem faithful_bool : Faithful .bool asBool where
  read_write _ := rfl
  writable _ := rfl
  ne_null _ := nofun

theorem isWritable_int {n : Int} (hlo : -2 ^ 64 ≤ n) (hhi : n ≤ 2 ^ 64) :
    (Json.int n).isWritable = true := by
  have hn : n.natAbs ≤ 2 ^ 64 := by omega
  rw [isWritable, decide_eq_true_eq]
  exact Nat.lt_of_le_of_lt hn two_pow_64_lt_intLimit

theorem faithful_int64 : Faithful ofInt64 asInt64 where
  read_write n := by
    have hlo := n.le_toInt
    have hhi := n.toInt_lt
    rw [ofInt64, asInt64, if_pos ⟨hlo, hhi⟩, Int64.ofInt_toInt]
  writable n := by
    have hlo := n.le_toInt
    have hhi := n.toInt_lt
    exact isWritable_int (by omega) (by omega)
  ne_null _ := nofun

theorem faithful_uint32 : Faithful (fun n : UInt32 => ofNat n.toNat) asUInt32 where
  read_write n := by
    have hn := n.toNat_lt
    have hp : Int.pow 2 32 = 2 ^ 32 := rfl
    show asUInt32 (.int (n.toNat : Int)) = some n
    rw [asUInt32, if_pos ⟨by omega, by omega⟩, Int.toNat_natCast, UInt32.ofNat_toNat]
  writable n := by
    have hn := n.toNat_lt
    exact isWritable_int (by omega) (by omega)
  ne_null _ := nofun

theorem faithful_uint8 : Faithful (fun n : UInt8 => ofNat n.toNat) asUInt8 where
  read_write n := by
    have hn := n.toNat_lt
    have hp : Int.pow 2 8 = 2 ^ 8 := rfl
    show asUInt8 (.int (n.toNat : Int)) = some n
    rw [asUInt8, if_pos ⟨by omega, by omega⟩, Int.toNat_natCast, UInt8.ofNat_toNat]
  writable n := by
    have hn := n.toNat_lt
    exact isWritable_int (by omega) (by omega)
  ne_null _ := nofun

/-! ## Lists, maps and fields -/

section Values

variable {write : α → Json} {read : Json → Option α}

theorem asList_ofList {xs : List α} (h : ∀ x ∈ xs, read (write x) = some x) :
    asList read (ofList write xs) = some xs := by
  change (xs.map write).mapM read = some xs
  induction xs with
  | nil => rfl
  | cons x xs ih =>
    rw [List.forall_mem_cons] at h
    simp [List.mapM_cons, h.1, ih h.2]

theorem mapM_entries {es : List (String × α)} (h : ∀ e ∈ es, read (write e.2) = some e.2) :
    (es.map fun e => (e.1, write e.2)).mapM (fun m => (read m.2).map fun v => (m.1, v)) =
      some es := by
  induction es with
  | nil => rfl
  | cons e es ih =>
    rw [List.forall_mem_cons] at h
    simp [List.mapM_cons, h.1, ih h.2]

theorem asDict_ofDict {d : Dict α} (h : ∀ e ∈ d.entries, read (write e.2) = some e.2) :
    asDict read (ofDict write d) = some d := by
  rw [ofDict, asDict, mapM_entries h, Option.map_some, Dict.ofList_entries]

theorem optional_map {o : Option α} (hnull : ∀ x ∈ o, write x ≠ .null)
    (h : ∀ x ∈ o, read (write x) = some x) : optional read (o.map write) = some o := by
  cases o with
  | none => rfl
  | some x =>
    have hn := hnull x rfl
    have hr := h x rfl
    rw [Option.map_some, Json.optional.eq_def]
    split
    · contradiction
    · rename_i he
      exact absurd (Option.some.inj he) hn
    · rename_i he
      rw [← Option.some.inj he, hr]
      rfl

theorem defaulted_unlessEmpty {xs : List α} (h : ∀ x ∈ xs, read (write x) = some x) :
    defaulted [] (asList read) (unlessEmpty write xs) = some xs := by
  cases xs with
  | nil => rfl
  | cons x xs => exact asList_ofList h

theorem defaulted_unlessEmptyDict {d : Dict α} (h : ∀ e ∈ d.entries, read (write e.2) = some e.2) :
    defaulted .empty (asDict read) (unlessEmptyDict write d) = some d := by
  unfold unlessEmptyDict
  split
  · rename_i he
    have hd : d = .empty := Dict.ext_entries (List.isEmpty_iff.mp he)
    rw [hd]
    rfl
  · exact asDict_ofDict h

theorem eq_of_mem_unlessEmpty {xs : List α} {v : Json} (hv : v ∈ unlessEmpty write xs) :
    v = ofList write xs := by
  unfold unlessEmpty at hv
  split at hv
  · contradiction
  · exact (Option.mem_some_iff.mp hv).symm

theorem eq_of_mem_unlessEmptyDict {d : Dict α} {v : Json} (hv : v ∈ unlessEmptyDict write d) :
    v = ofDict write d := by
  unfold unlessEmptyDict at hv
  split at hv
  · contradiction
  · exact (Option.mem_some_iff.mp hv).symm

end Values

section Containers

variable {write : α → Json} {read : Json → Option α} (h : Faithful write read)

include h

theorem Faithful.list : Faithful (ofList write) (asList read) where
  read_write _ := asList_ofList fun x _ => h.read_write x
  writable xs := by
    rw [ofList, isWritable, areWritable_iff]
    intro v hv
    obtain ⟨x, -, rfl⟩ := List.mem_map.mp hv
    exact h.writable x
  ne_null _ := nofun

theorem Faithful.dict : Faithful (ofDict write) (asDict read) where
  read_write _ := asDict_ofDict fun e _ => h.read_write e.2
  writable d := by
    rw [ofDict, isWritable, membersWritable_iff]
    intro m hm
    obtain ⟨e, -, rfl⟩ := List.mem_map.mp hm
    exact h.writable e.2
  ne_null _ := nofun

theorem Faithful.required : FaithfulField (fun x => some (write x)) (required read) where
  get_put x := h.read_write x
  writable x v hv := by
    obtain rfl := Option.mem_some_iff.mp hv
    exact h.writable x

theorem Faithful.defaulted (d : α) : FaithfulField (fun x => some (write x)) (defaulted d read) where
  get_put x := h.read_write x
  writable := h.required.writable

theorem Faithful.optional : FaithfulField (Option.map write) (optional read) where
  get_put _ := optional_map (fun x _ => h.ne_null x) fun x _ => h.read_write x
  writable x v hv := by
    obtain ⟨y, -, rfl⟩ := Option.map_eq_some_iff.mp hv
    exact h.writable y

theorem Faithful.unlessEmpty : FaithfulField (unlessEmpty write) (Json.defaulted [] (asList read)) where
  get_put _ := defaulted_unlessEmpty fun x _ => h.read_write x
  writable xs v hv := by
    rw [eq_of_mem_unlessEmpty hv]
    exact h.list.writable xs

theorem Faithful.unlessEmptyDict :
    FaithfulField (unlessEmptyDict write) (Json.defaulted .empty (asDict read)) where
  get_put _ := defaulted_unlessEmptyDict fun e _ => h.read_write e.2
  writable d v hv := by
    rw [eq_of_mem_unlessEmptyDict hv]
    exact h.dict.writable d

end Containers

theorem faithful_unlessBlank : FaithfulField unlessBlank (defaulted "" asText) where
  get_put s := by
    unfold unlessBlank
    split
    · rename_i he
      rw [String.isEmpty_iff.mp he]
      rfl
    · rfl
  writable s v hv := by
    unfold unlessBlank at hv
    split at hv
    · contradiction
    · obtain rfl := Option.mem_some_iff.mp hv
      rfl

theorem faithful_whenSet : FaithfulField whenSet (defaulted false asBool) where
  get_put b := by cases b <;> rfl
  writable b v hv := by
    unfold whenSet at hv
    split at hv
    · obtain rfl := Option.mem_some_iff.mp hv
      rfl
    · contradiction

/-! ## Records -/

theorem lookup_filterMap {fields : List (String × Option Json)}
    (hn : (fields.map (·.1)).Nodup) {f : String × Option Json} (hf : f ∈ fields) :
    (fields.filterMap fun f => f.2.map fun v => (f.1, v)).lookup f.1 = f.2 := by
  induction fields with
  | nil => contradiction
  | cons g fields ih =>
    obtain ⟨k, o⟩ := g
    rw [List.map_cons, List.nodup_cons] at hn
    have hrest : ∀ f ∈ fields, f.1 ≠ k := by
      intro f hf he
      exact hn.1 (List.mem_map.mpr ⟨f, hf, he⟩)
    rw [List.filterMap_cons]
    rcases List.mem_cons.mp hf with rfl | htail
    · cases o with
      | none =>
        -- no later field has this name
        rw [Option.map_none]
        refine List.lookup_eq_none_iff.mpr fun m hm => ?_
        obtain ⟨g, hg, he⟩ := List.mem_filterMap.mp hm
        obtain ⟨v, -, rfl⟩ := Option.map_eq_some_iff.mp he
        exact bne_iff_ne.mpr (hrest g hg).symm
      | some v =>
        rw [Option.map_some, Dict.lookup_cons_ite, if_pos rfl]
    · cases o with
      | none => exact ih hn.2 htail
      | some v =>
        rw [Option.map_some, Dict.lookup_cons_ite, if_neg (hrest f htail), ih hn.2 htail]

theorem keys_filterMap_sublist (fields : List (String × Option Json)) :
    ((fields.filterMap fun f => f.2.map fun v => (f.1, v)).map (·.1)).Sublist
      (fields.map (·.1)) := by
  induction fields with
  | nil => exact .slnil
  | cons g fields ih =>
    obtain ⟨k, o⟩ := g
    cases o with
    | none => exact ih.cons k
    | some v => exact ih.cons_cons k

theorem countP_filterMap_le {fields : List (String × Option Json)}
    (hn : (fields.map (·.1)).Nodup) (k : String) :
    (fields.filterMap fun f => f.2.map fun v => (f.1, v)).countP (fun m => m.1 == k) ≤ 1 := by
  have hd := (keys_filterMap_sublist fields).nodup hn
  have hc := List.nodup_iff_count.mp hd k
  rwa [List.count, List.countP_map] at hc

/-- The fields of a record, as they were given. -/
theorem fields?_record {fields : List (String × Option Json)} {names : List String}
    (hn : names.Nodup) (he : fields.map (·.1) = names) :
    (record fields).fields? names = some (fields.map (·.2)) := by
  subst he
  have hc : (fields.map (·.1)).all (fun n => (fields.filterMap fun f => f.2.map fun v => (f.1, v)).countP
      (fun m => m.1 == n) ≤ 1) = true :=
    List.all_eq_true.mpr fun k _ => decide_eq_true (countP_filterMap_le hn k)
  have hl : (fields.map (·.1)).map (fun n => (fields.filterMap fun f =>
      f.2.map fun v => (f.1, v)).lookup n) = fields.map (·.2) := by
    rw [List.map_map]
    exact List.map_congr_left fun f hf => lookup_filterMap hn hf
  change (if _ then _ else none) = _
  rw [if_pos hc, hl]

/-- Reading goes on with the fields that a record was written from. -/
theorem bind_fields?_record {β : Type} {fields : List (String × Option Json)} {names : List String}
    (hn : names.Nodup) (he : fields.map (·.1) = names) (k : List (Option Json) → Option β) :
    ((record fields).fields? names >>= k) = k (fields.map (·.2)) := by
  rw [fields?_record hn he]
  rfl

theorem isWritable_record {fields : List (String × Option Json)}
    (h : ∀ f ∈ fields, ∀ v ∈ f.2, v.isWritable = true) : (record fields).isWritable = true := by
  rw [record, isWritable, membersWritable_iff]
  intro m hm
  obtain ⟨f, hf, he⟩ := List.mem_filterMap.mp hm
  obtain ⟨v, hv, rfl⟩ := Option.map_eq_some_iff.mp he
  exact h f hf v hv

end CredentialEngine.Json
