import CredentialEngine.Json.Shape
import CredentialEngine.Proofs.Dict
import Mathlib.Data.List.Forall2

/-!
# The fields of shapes

What a JSON value has to hold to be of a shape, apart from how it is read: for each field of the
shape a requirement on the value under the field's name, or on its absence. The readers of shapes
accept exactly the values that meet the requirements.
-/
namespace CredentialEngine.Json

variable {α : Type}

/-! ## Requirements on a value -/

def IsText (j : Json) (s : String) : Prop :=
  j = .str s

def IsFlag (j : Json) (b : Bool) : Prop :=
  j = .bool b

def IsInt64 (j : Json) (n : Int64) : Prop :=
  j = .int n.toInt

def IsUInt32 (j : Json) (n : UInt32) : Prop :=
  j = .int n.toNat

def IsUInt8 (j : Json) (n : UInt8) : Prop :=
  j = .int n.toNat

/-- An array of values that have the shape of the list's, one by one. -/
def IsList (shaped : Json → α → Prop) (j : Json) (xs : List α) : Prop :=
  ∃ items, j = .arr items ∧ List.Forall₂ shaped items xs

/-- An object of entries whose values have the shape of the map's. The last entry of a key is the
one that the map holds. -/
def IsDict (shaped : Json → α → Prop) (j : Json) (d : Dict α) : Prop :=
  ∃ members entries, j = .obj members ∧
    List.Forall₂ (fun m e => m.1 = e.1 ∧ shaped m.2 e.2) members entries ∧
    ∀ k, d.get? k = entries.reverse.lookup k

theorem asText_eq_some (j : Json) (s : String) : asText j = some s ↔ IsText j s := by
  cases j <;> simp [asText, IsText]

theorem asBool_eq_some (j : Json) (b : Bool) : asBool j = some b ↔ IsFlag j b := by
  cases j <;> simp [asBool, IsFlag]

theorem asInt64_eq_some (j : Json) (n : Int64) : asInt64 j = some n ↔ IsInt64 j n := by
  cases j with
  | int i =>
    simp only [asInt64, IsInt64, Option.ite_none_right_eq_some, Option.some.injEq, int.injEq]
    constructor
    · rintro ⟨⟨hlow, hhigh⟩, rfl⟩
      exact (Int64.toInt_ofInt_of_le hlow hhigh).symm
    · rintro rfl
      exact ⟨⟨n.le_toInt, n.toInt_lt⟩, Int64.ofInt_toInt n⟩
  | _ => simp [asInt64, IsInt64]

theorem asUInt32_eq_some (j : Json) (n : UInt32) : asUInt32 j = some n ↔ IsUInt32 j n := by
  cases j with
  | int i =>
    have hpow : Int.pow 2 32 = 4294967296 := rfl
    simp only [asUInt32, IsUInt32, Option.ite_none_right_eq_some, Option.some.injEq, int.injEq, hpow]
    constructor
    · rintro ⟨⟨hlow, hhigh⟩, rfl⟩
      have hfits : i.toNat < 4294967296 := by omega
      rw [UInt32.toNat_ofNat_of_lt' hfits, Int.toNat_of_nonneg hlow]
    · rintro rfl
      have hfits := n.toNat_lt
      exact ⟨⟨by omega, by omega⟩, by simp⟩
  | _ => simp [asUInt32, IsUInt32]

theorem asUInt8_eq_some (j : Json) (n : UInt8) : asUInt8 j = some n ↔ IsUInt8 j n := by
  cases j with
  | int i =>
    have hpow : Int.pow 2 8 = 256 := rfl
    simp only [asUInt8, IsUInt8, Option.ite_none_right_eq_some, Option.some.injEq, int.injEq, hpow]
    constructor
    · rintro ⟨⟨hlow, hhigh⟩, rfl⟩
      have hfits : i.toNat < 256 := by omega
      rw [UInt8.toNat_ofNat_of_lt' hfits, Int.toNat_of_nonneg hlow]
    · rintro rfl
      have hfits := n.toNat_lt
      exact ⟨⟨by omega, by omega⟩, by simp⟩
  | _ => simp [asUInt8, IsUInt8]

section Compound

variable {read : Json → Option α} {shaped : Json → α → Prop}

theorem mapM_eq_some {β γ : Type} {f : β → Option γ} {xs : List β} {ys : List γ} :
    xs.mapM f = some ys ↔ List.Forall₂ (fun x y => f x = some y) xs ys := by
  induction xs generalizing ys with
  | nil => simp [eq_comm]
  | cons x xs ih =>
    simp only [List.mapM_cons, Option.bind_eq_bind, Option.bind_eq_some_iff, Option.pure_def,
      Option.some.injEq, List.forall₂_cons_left_iff, ih]
    constructor
    · rintro ⟨y, hy, ys, hys, rfl⟩
      exact ⟨y, ys, hy, hys, rfl⟩
    · rintro ⟨y, ys, hy, hys, rfl⟩
      exact ⟨y, hy, ys, hys, rfl⟩

theorem asList_eq_some (h : ∀ j x, read j = some x ↔ shaped j x) (j : Json) (xs : List α) :
    asList read j = some xs ↔ IsList shaped j xs := by
  cases j with
  | arr items => simp [asList, IsList, mapM_eq_some, h]
  | _ => simp [asList, IsList]

theorem ofList_eq_iff {es : List (String × α)} {d : Dict α} :
    Dict.ofList es = d ↔ ∀ k, d.get? k = es.reverse.lookup k := by
  have hget (k : String) : (Dict.ofList es).get? k = es.reverse.lookup k := by
    rw [Dict.ofList, Dict.get?_foldl_insert, Dict.get?_empty, Option.or_none]
  constructor
  · rintro rfl
    exact hget
  · intro h
    exact Dict.ext_get? fun k => (hget k).trans (h k).symm

theorem asDict_eq_some (h : ∀ j x, read j = some x ↔ shaped j x) (j : Json) (d : Dict α) :
    asDict read j = some d ↔ IsDict shaped j d := by
  cases j with
  | obj members =>
    have hentry (m : String × Json) (e : String × α) :
        (read m.2).map (fun v => (m.1, v)) = some e ↔ m.1 = e.1 ∧ shaped m.2 e.2 := by
      obtain ⟨k, x⟩ := e
      simp only [Option.map_eq_some_iff, Prod.mk.injEq, h]
      constructor
      · rintro ⟨x, hx, hk, rfl⟩
        exact ⟨hk, hx⟩
      · rintro ⟨hk, hx⟩
        exact ⟨x, hx, hk, rfl⟩
    simp only [asDict, IsDict, Option.map_eq_some_iff, mapM_eq_some, hentry, ofList_eq_iff,
      obj.injEq, exists_and_left, exists_eq_left']
  | _ => simp [asDict, IsDict]

end Compound

/-! ## Requirements on a field -/

/-- What a shape requires of its fields, by their names and in their order. A field that is left out
is looked at as nothing. -/
abbrev Fields := List (String × (Option Json → Prop))

/-- The field is given. -/
def Required (shaped : Json → α → Prop) (x : α) (field : Option Json) : Prop :=
  ∃ j, field = some j ∧ shaped j x

/-- The field is given, or it is left out and means its default. -/
def Defaulted (default : α) (shaped : Json → α → Prop) (x : α) (field : Option Json) : Prop :=
  Required shaped x field ∨ field = none ∧ x = default

/-- The field is given, or it is left out or null and means nothing. -/
def Nullable (shaped : Json → α → Prop) (o : Option α) (field : Option Json) : Prop :=
  (∃ x, field ≠ some .null ∧ Required shaped x field ∧ o = some x) ∨
    (field = none ∨ field = some .null) ∧ o = none

section Field

variable {read : Json → Option α} {shaped : Json → α → Prop}

theorem required_eq_some (h : ∀ j x, read j = some x ↔ shaped j x) {field : Option Json} {x : α} :
    required read field = some x ↔ Required shaped x field := by
  simp only [required, Required, Option.bind_eq_some_iff, h]

theorem defaulted_eq_some (h : ∀ j x, read j = some x ↔ shaped j x) {default : α}
    {field : Option Json} {x : α} :
    defaulted default read field = some x ↔ Defaulted default shaped x field := by
  cases field with
  | none => simp [defaulted, Defaulted, Required, eq_comm]
  | some j => simp [defaulted, Defaulted, Required, h]

theorem optional_eq_some (h : ∀ j x, read j = some x ↔ shaped j x) {field : Option Json}
    {o : Option α} : optional read field = some o ↔ Nullable shaped o field := by
  rcases field with _ | j
  · simp [optional, Nullable, Required, eq_comm]
  · cases j with
    | null => simp [optional, Nullable, eq_comm]
    | _ => simp [optional, Nullable, Required, h, @eq_comm _ o]

end Field

/-! ## Values with fields -/

/-- Among the members there is one of the key at most, and its value or its absence is as required.
The other members are not looked at. -/
def MemberMeets {κ : Type} [BEq κ] (members : List (κ × Json)) (key : κ)
    (requirement : Option Json → Prop) : Prop :=
  ∃ v : Option Json, members.filter (fun m => m.1 == key) = (v.map fun j => (key, j)).toList ∧
    requirement v

/-- A value has the fields: an object by their names, or an array by their order, which may leave
out the last ones. -/
inductive HasFields (fields : Fields) : Json → Prop
  | object {members : List (String × Json)} (meets : ∀ f ∈ fields, MemberMeets members f.1 f.2) :
    HasFields fields (.obj members)
  | array {items : List Json} (fits : items.length ≤ fields.length)
    (meets : ∀ (i : Nat) (h : i < fields.length), fields[i].2 items[i]?) :
    HasFields fields (.arr items)
  /-- A member that is named by a position stands for the field there. -/
  | numbered {members : List ((String ⊕ Nat) × Json)}
    (meets : ∀ f ∈ fields, MemberMeets
      (members.map fun m => (m.1.elim some fun i => (fields.map (·.1))[i]?, m.2)) (some f.1) f.2) :
    HasFields fields (.numbered members)

theorem filter_key_eq_iff {κ : Type} [BEq κ] [LawfulBEq κ] {members : List (κ × Json)} {key : κ}
    {v : Option Json} :
    members.filter (fun m => m.1 == key) = (v.map fun j => (key, j)).toList ↔
      members.countP (fun m => m.1 == key) ≤ 1 ∧ members.lookup key = v := by
  rw [List.countP_eq_length_filter]
  induction members with
  | nil => cases v <;> simp
  | cons m ms ih =>
    obtain ⟨k, w⟩ := m
    by_cases hk : k = key
    · subst hk
      cases v with
      | none => simp
      | some j =>
        simp only [List.filter_cons, List.lookup_cons, beq_self_eq_true, if_true, Option.map_some,
          Option.toList_some, List.cons.injEq, Prod.mk.injEq, true_and, List.length_cons,
          Option.some.injEq, Nat.succ_le_succ_iff, Nat.le_zero, List.length_eq_zero_iff]
        exact and_comm
    · have hkn : (k == key) = false := beq_false_of_ne hk
      have hnk : (key == k) = false := beq_false_of_ne (Ne.symm hk)
      simp only [List.filter_cons, List.lookup_cons, hkn, hnk, Bool.false_eq_true, if_false, ih]

theorem memberMeets_iff {κ : Type} [BEq κ] [LawfulBEq κ] {members : List (κ × Json)} {key : κ}
    {requirement : Option Json → Prop} :
    MemberMeets members key requirement ↔
      members.countP (fun m => m.1 == key) ≤ 1 ∧ requirement (members.lookup key) := by
  simp only [MemberMeets, filter_key_eq_iff]
  constructor
  · rintro ⟨_, ⟨hcount, rfl⟩, hmeets⟩
    exact ⟨hcount, hmeets⟩
  · rintro ⟨hcount, hmeets⟩
    exact ⟨_, ⟨hcount, rfl⟩, hmeets⟩

/-- Each key has its value found, and the values meet the requirements in their order. -/
theorem forall_memberMeets_iff {κ : Type} [BEq κ] [LawfulBEq κ] (members : List (κ × Json))
    (fields : Fields) (key : String → κ) :
    (∀ f ∈ fields, MemberMeets members (key f.1) f.2) ↔
      (∀ n ∈ fields.map (·.1), members.countP (fun m => m.1 == key n) ≤ 1) ∧
        List.Forall₂ (fun f v => f.2 v) fields
          ((fields.map (·.1)).map fun n => members.lookup (key n)) := by
  simp only [memberMeets_iff, List.forall_mem_map, List.map_map, List.forall₂_map_right_iff,
    List.forall₂_same, Function.comp_apply]
  exact forall₂_and

/-- The items of an array meet the requirements in their order, those that are cut off as
nothing. -/
theorem forall₂_padded_iff {fields : Fields} {items : List Json}
    (fits : items.length ≤ fields.length) :
    List.Forall₂ (fun f v => f.2 v) fields
        (items.map some ++ List.replicate (fields.length - items.length) none) ↔
      ∀ (i : Nat) (h : i < fields.length), fields[i].2 items[i]? := by
  have hlength : fields.length =
      (items.map some ++ List.replicate (fields.length - items.length) none).length := by
    simp only [List.length_append, List.length_map, List.length_replicate]
    omega
  have hitem {i : Nat} (h : i < fields.length) :
      (items.map some ++ List.replicate (fields.length - items.length) none)[i] = items[i]? := by
    grind
  rw [List.forall₂_iff_get]
  constructor
  · rintro ⟨-, hmeets⟩ i h
    rw [← hitem h]
    exact hmeets i h (hlength ▸ h)
  · intro hmeets
    refine ⟨hlength, fun i h _ => ?_⟩
    rw [List.get_eq_getElem, List.get_eq_getElem, hitem h]
    exact hmeets i h

theorem length_of_fields? {names : List String} {j : Json} {values : List (Option Json)}
    (h : j.fields? names = some values) : values.length = names.length := by
  cases j with
  | obj members =>
    rw [fields?, Option.ite_none_right_eq_some] at h
    rw [← Option.some.inj h.2, List.length_map]
  | numbered members =>
    rw [fields?, Option.ite_none_right_eq_some] at h
    rw [← Option.some.inj h.2, List.length_map]
  | arr items =>
    rw [fields?, Option.ite_none_right_eq_some] at h
    rw [← Option.some.inj h.2, List.length_append, List.length_map, List.length_replicate]
    omega
  | _ => contradiction

/-- A value has the fields just when values are found under their names that are as required. -/
theorem hasFields_iff {fields : Fields} {j : Json} :
    HasFields fields j ↔ ∃ values, j.fields? (fields.map (·.1)) = some values ∧
      List.Forall₂ (fun f v => f.2 v) fields values := by
  constructor
  · intro h
    cases h with
    | object meets =>
      obtain ⟨hcount, hmeets⟩ := (forall_memberMeets_iff _ fields id).mp meets
      exact ⟨_, if_pos (by simpa using hcount), hmeets⟩
    | array fits meets =>
      rw [fields?, List.length_map, if_pos fits]
      exact ⟨_, rfl, (forall₂_padded_iff fits).mpr meets⟩
    | numbered meets =>
      obtain ⟨hcount, hmeets⟩ := (forall_memberMeets_iff _ fields some).mp meets
      exact ⟨_, if_pos (by simpa using hcount), hmeets⟩
  · rintro ⟨values, hvalues, hmeets⟩
    cases j with
    | obj members =>
      rw [fields?, Option.ite_none_right_eq_some] at hvalues
      obtain ⟨hcount, hvalues⟩ := hvalues
      obtain rfl := Option.some.inj hvalues
      exact .object ((forall_memberMeets_iff _ fields id).mpr ⟨by simpa using hcount, hmeets⟩)
    | numbered members =>
      rw [fields?, Option.ite_none_right_eq_some] at hvalues
      obtain ⟨hcount, hvalues⟩ := hvalues
      obtain rfl := Option.some.inj hvalues
      exact .numbered ((forall_memberMeets_iff _ fields some).mpr ⟨by simpa using hcount, hmeets⟩)
    | arr items =>
      rw [fields?, List.length_map, Option.ite_none_right_eq_some] at hvalues
      obtain ⟨fits, hvalues⟩ := hvalues
      obtain rfl := Option.some.inj hvalues
      exact .array fits ((forall₂_padded_iff fits).mp hmeets)
    | _ => contradiction

/-- A step of a reading, as `do` writes it. The same for `Option.bind` would have simp first rewrite
the bind, and with it the steps after it once for every step before. -/
theorem step_eq_some {β γ : Type} {x : Option β} {f : β → Option γ} {c : γ} :
    x >>= f = some c ↔ ∃ b, x = some b ∧ f b = some c :=
  Option.bind_eq_some_iff

/-- A shape is read from the values of its fields just when the fields are as required. -/
theorem bind_fields?_eq_some {fields : Fields} {names : List String}
    {read : List (Option Json) → Option α} {x : α} (hnames : fields.map (·.1) = names)
    (hread : ∀ values, values.length = names.length →
      (read values = some x ↔ List.Forall₂ (fun f v => f.2 v) fields values)) {j : Json} :
    (j.fields? names >>= read) = some x ↔ HasFields fields j := by
  rw [hasFields_iff, hnames, Option.bind_eq_bind, Option.bind_eq_some_iff]
  refine exists_congr fun values => and_congr_right fun hvalues => ?_
  exact hread values (length_of_fields? hvalues)

end CredentialEngine.Json
