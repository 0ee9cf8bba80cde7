import CredentialEngine.Proofs.Json.Faithful

/-!
# Documents that keep one value

Not every duration and not every point in time is read back, so a shape that holds some keeps only
the values whose parts are kept. A document keeps a value when it has a text, nests no deeper than a
reader allows and is read as the value. Lists, maps and records go one level deeper than their
parts, and at any level an atom is kept.
-/
namespace CredentialEngine.Json

variable {α β : Type} {n : Nat}

/-- A value with a text, nested at most `n` deep. -/
structure Fits (n : Nat) (v : Json) : Prop where
  writable : v.isWritable = true
  readable : v.isReadable n = true

/-- The document `v` can be written and is read as `x`. -/
structure Keeps (n : Nat) (read : Json → Option α) (v : Json) (x : α) : Prop where
  fits : Fits n v
  read_eq : read v = some x
  ne_null : v ≠ .null

/-- The field `o`, left out or not, is read as `x`. -/
structure KeepsField (n : Nat) (get : Option Json → Option α) (o : Option Json) (x : α) : Prop where
  fits : ∀ v ∈ o, Fits n v
  get_eq : get o = some x

/-- Reading goes on with the value that a field keeps. -/
theorem KeepsField.bind_get {get : Option Json → Option α} {o : Option Json} {x : α}
    (h : KeepsField n get o x) (k : α → Option β) : (get o >>= k) = k x := by
  rw [h.get_eq]
  rfl

/-! ## Nesting -/

theorem areReadable_iff {vs : List Json} :
    areReadable n vs = true ↔ ∀ v ∈ vs, v.isReadable n = true := by
  induction vs with
  | nil => simp [areReadable]
  | cons v vs ih => simp [areReadable, ih]

theorem membersReadable_iff {ms : List (String × Json)} :
    membersReadable n ms = true ↔ ∀ m ∈ ms, m.2.isReadable n = true := by
  induction ms with
  | nil => simp [membersReadable]
  | cons m ms ih => simp [membersReadable, ih]

theorem fits_arr {vs : List Json} (h : ∀ v ∈ vs, Fits n v) : Fits (n + 1) (.arr vs) where
  writable := by
    rw [isWritable, areWritable_iff]
    exact fun v hv => (h v hv).writable
  readable := by
    rw [isReadable, Nat.add_sub_cancel, decide_eq_true (Nat.succ_ne_zero n), Bool.true_and,
      areReadable_iff]
    exact fun v hv => (h v hv).readable

theorem fits_obj {ms : List (String × Json)} (h : ∀ m ∈ ms, Fits n m.2) :
    Fits (n + 1) (.obj ms) where
  writable := by
    rw [isWritable, membersWritable_iff]
    exact fun m hm => (h m hm).writable
  readable := by
    rw [isReadable, Nat.add_sub_cancel, decide_eq_true (Nat.succ_ne_zero n), Bool.true_and,
      membersReadable_iff]
    exact fun m hm => (h m hm).readable

theorem Fits.cons {ms : List (String × Json)} (h : Fits (n + 1) (.obj ms)) (k : String) {v : Json}
    (hv : Fits n v) : Fits (n + 1) (.obj ((k, v) :: ms)) := by
  obtain ⟨hwritable, hreadable⟩ := h
  rw [isWritable] at hwritable
  rw [isReadable, Bool.and_eq_true, Nat.add_sub_cancel] at hreadable
  constructor
  · rw [isWritable, membersWritable, hv.writable, hwritable]
    rfl
  · rw [isReadable, Nat.add_sub_cancel, membersReadable, hv.readable, hreadable.2]
    exact hreadable.1

theorem fits_record {fields : List (String × Option Json)}
    (h : ∀ f ∈ fields, ∀ v ∈ f.2, Fits n v) : Fits (n + 1) (record fields) := by
  refine fits_obj fun m hm => ?_
  obtain ⟨f, hf, he⟩ := List.mem_filterMap.mp hm
  obtain ⟨v, hv, rfl⟩ := Option.map_eq_some_iff.mp he
  exact h f hf v hv

/-! ## Atoms -/

/-- A faithful shape keeps every value whose document does not nest too deep. -/
theorem Faithful.keeps {write : α → Json} {read : Json → Option α} (h : Faithful write read)
    {x : α} (hr : (write x).isReadable n = true) : Keeps n read (write x) x :=
  ⟨⟨h.writable x, hr⟩, h.read_write x, h.ne_null x⟩

theorem keeps_text (n : Nat) (s : String) : Keeps n asText (.str s) s :=
  faithful_text.keeps (by simp [isReadable])

theorem keeps_bool (n : Nat) (b : Bool) : Keeps n asBool (.bool b) b :=
  faithful_bool.keeps (by simp [isReadable])

theorem keeps_int64 (n : Nat) (i : Int64) : Keeps n asInt64 (ofInt64 i) i :=
  faithful_int64.keeps (by simp [ofInt64, isReadable])

theorem keeps_uint32 (n : Nat) (i : UInt32) : Keeps n asUInt32 (ofNat i.toNat) i :=
  faithful_uint32.keeps (by simp [ofNat, isReadable])

/-! ## Lists and maps -/

section Containers

variable {write : α → Json} {read : Json → Option α}

theorem keeps_list {xs : List α} (h : ∀ x ∈ xs, Keeps n read (write x) x) :
    Keeps (n + 1) (asList read) (ofList write xs) xs where
  fits := fits_arr fun v hv => by
    obtain ⟨x, hx, rfl⟩ := List.mem_map.mp hv
    exact (h x hx).fits
  read_eq := asList_ofList fun x hx => (h x hx).read_eq
  ne_null := nofun

theorem keeps_dict {d : Dict α} (h : ∀ e ∈ d.entries, Keeps n read (write e.2) e.2) :
    Keeps (n + 1) (asDict read) (ofDict write d) d where
  fits := fits_obj fun m hm => by
    obtain ⟨e, he, rfl⟩ := List.mem_map.mp hm
    exact (h e he).fits
  read_eq := asDict_ofDict fun e he => (h e he).read_eq
  ne_null := nofun

/-! ## Fields -/

theorem Keeps.required {v : Json} {x : α} (h : Keeps n read v x) :
    KeepsField n (required read) (some v) x where
  fits w hw := by
    obtain rfl := Option.mem_some_iff.mp hw
    exact h.fits
  get_eq := h.read_eq

theorem Keeps.defaulted {v : Json} {x : α} (h : Keeps n read v x) (d : α) :
    KeepsField n (defaulted d read) (some v) x :=
  ⟨h.required.fits, h.read_eq⟩

theorem keepsField_optional {o : Option α} (h : ∀ x ∈ o, Keeps n read (write x) x) :
    KeepsField n (optional read) (o.map write) o where
  fits v hv := by
    obtain ⟨x, hx, rfl⟩ := Option.map_eq_some_iff.mp hv
    exact (h x hx).fits
  get_eq := optional_map (fun x hx => (h x hx).ne_null) fun x hx => (h x hx).read_eq

theorem keepsField_unlessEmpty {xs : List α} (h : ∀ x ∈ xs, Keeps n read (write x) x) :
    KeepsField (n + 1) (defaulted [] (asList read)) (unlessEmpty write xs) xs where
  fits v hv := by
    rw [eq_of_mem_unlessEmpty hv]
    exact (keeps_list h).fits
  get_eq := defaulted_unlessEmpty fun x hx => (h x hx).read_eq

theorem keepsField_unlessEmptyDict {d : Dict α}
    (h : ∀ e ∈ d.entries, Keeps n read (write e.2) e.2) :
    KeepsField (n + 1) (defaulted .empty (asDict read)) (unlessEmptyDict write d) d where
  fits v hv := by
    rw [eq_of_mem_unlessEmptyDict hv]
    exact (keeps_dict h).fits
  get_eq := defaulted_unlessEmptyDict fun e he => (h e he).read_eq

end Containers

/-! ## Records -/

/-- A record keeps what is read from its fields. -/
theorem keeps_record {fields : List (String × Option Json)} {names : List String}
    {k : List (Option Json) → Option α} {x : α} (hn : names.Nodup)
    (he : fields.map (·.1) = names) (hfits : ∀ f ∈ fields, ∀ v ∈ f.2, Fits n v)
    (hread : k (fields.map (·.2)) = some x) :
    Keeps (n + 1) (fun j => j.fields? names >>= k) (record fields) x where
  fits := fits_record hfits
  read_eq := (bind_fields?_record hn he k).trans hread
  ne_null := nofun

end CredentialEngine.Json
