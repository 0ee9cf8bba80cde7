import CredentialEngine.Digest.Sha2

/-!
# Hashes by natural arithmetic

The members of the family with 64-bit words, computed on natural numbers below `2 ^ 64`. The message
schedule becomes a window of sixteen words that moves by one in each round, so no array is kept.
-/
namespace CredentialEngine.Digest

/-! ## Words -/

/-- The number of 64-bit words. -/
def wordCount : Nat := 18446744073709551616

namespace Plain

def plus (x y : Nat) : Nat :=
  Nat.mod (Nat.add x y) wordCount

def rotate (x n : Nat) : Nat :=
  Nat.lor (Nat.shiftRight x (Nat.mod n 64))
    (Nat.mod (Nat.shiftLeft x (Nat.mod (Nat.sub 64 n) 64)) wordCount)

def sumOf (x : Nat) (r : Nat × Nat × Nat) : Nat :=
  Nat.xor (Nat.xor (rotate x r.1) (rotate x r.2.1)) (rotate x r.2.2)

def mixOf (x : Nat) (r : Nat × Nat × Nat) : Nat :=
  Nat.xor (Nat.xor (rotate x r.1) (rotate x r.2.1)) (Nat.shiftRight x (Nat.mod r.2.2 64))

def complement (x : Nat) : Nat :=
  Nat.sub (Nat.sub wordCount 1) x

end Plain

theorem toNat_ofNat_mod (n : Nat) : (UInt64.ofNat n).toNat % 64 = n % 64 := by
  rw [UInt64.toNat_ofNat']
  omega

theorem toNat_rotate (x : UInt64) (n : Nat) : (rotate x n).toNat = Plain.rotate x.toNat n := by
  change ((x >>> UInt64.ofNat n) ||| (x <<< UInt64.ofNat (8 * 8 - n))).toNat = _
  rw [UInt64.toNat_or, UInt64.toNat_shiftRight, UInt64.toNat_shiftLeft, toNat_ofNat_mod,
    toNat_ofNat_mod]
  rfl

theorem toNat_sumOf (x : UInt64) (r : Nat × Nat × Nat) :
    (sumOf x r).toNat = Plain.sumOf x.toNat r := by
  rw [sumOf, UInt64.toNat_xor, UInt64.toNat_xor, toNat_rotate, toNat_rotate, toNat_rotate]
  rfl

theorem toNat_mixOf (x : UInt64) (r : Nat × Nat × Nat) :
    (mixOf x r).toNat = Plain.mixOf x.toNat r := by
  change (rotate x r.1 ^^^ rotate x r.2.1 ^^^ (x >>> UInt64.ofNat r.2.2)).toNat = _
  rw [UInt64.toNat_xor, UInt64.toNat_xor, toNat_rotate, toNat_rotate, UInt64.toNat_shiftRight,
    toNat_ofNat_mod]
  rfl

theorem toNat_plus (x y : UInt64) : (x + y).toNat = Plain.plus x.toNat y.toNat := by
  rw [UInt64.toNat_add]
  rfl

theorem toNat_complement (x : UInt64) : (~~~x).toNat = Plain.complement x.toNat := by
  rw [UInt64.toNat_not]
  rfl

/-! ## Rounds -/

/-- The eight working variables. -/
structure Working (α : Type) where
  a : α
  b : α
  c : α
  d : α
  e : α
  f : α
  g : α
  h : α

namespace Working

variable {α β : Type}

def map (m : α → β) (s : Working α) : Working β :=
  ⟨m s.a, m s.b, m s.c, m s.d, m s.e, m s.f, m s.g, m s.h⟩

def toArray (s : Working α) : Array α :=
  #[s.a, s.b, s.c, s.d, s.e, s.f, s.g, s.h]

def zip (m : α → α → α) (s t : Working α) : Working α :=
  ⟨m s.a t.a, m s.b t.b, m s.c t.c, m s.d t.d, m s.e t.e, m s.f t.f, m s.g t.g, m s.h t.h⟩

/-- One round on machine words. -/
def step (v : Variant UInt64) (k w : UInt64) (s : Working UInt64) : Working UInt64 :=
  let t₁ := s.h + Digest.sumOf s.e v.sumE + ((s.e &&& s.f) ^^^ (~~~s.e &&& s.g)) + k + w
  let t₂ := Digest.sumOf s.a v.sumA + ((s.a &&& s.b) ^^^ (s.a &&& s.c) ^^^ (s.b &&& s.c))
  ⟨t₁ + t₂, s.a, s.b, s.c, s.d + t₁, s.e, s.f, s.g⟩

/-- One round on numbers. -/
def plainStep (v : Variant UInt64) (k w : Nat) (s : Working Nat) : Working Nat :=
  let t₁ := Plain.plus (Plain.plus (Plain.plus (Plain.plus s.h (Plain.sumOf s.e v.sumE))
    (Nat.xor (Nat.land s.e s.f) (Nat.land (Plain.complement s.e) s.g))) k) w
  let t₂ := Plain.plus (Plain.sumOf s.a v.sumA)
    (Nat.xor (Nat.xor (Nat.land s.a s.b) (Nat.land s.a s.c)) (Nat.land s.b s.c))
  ⟨Plain.plus t₁ t₂, s.a, s.b, s.c, Plain.plus s.d t₁, s.e, s.f, s.g⟩

theorem roundStep_toArray (v : Variant UInt64) (k w : UInt64) (s : Working UInt64) :
    roundStep v k w s.toArray = (step v k w s).toArray := rfl

theorem plainStep_toNat (v : Variant UInt64) (k w : UInt64) (s : Working UInt64) :
    plainStep v k.toNat w.toNat (s.map UInt64.toNat) = (step v k w s).map UInt64.toNat := by
  simp only [step, map, toNat_plus, toNat_sumOf, UInt64.toNat_xor, UInt64.toNat_and,
    toNat_complement]
  rfl

end Working

/-! ## The message schedule -/

/-- The word that follows the words at these distances: sixteen, fifteen, seven and two. -/
def nextWord (v : Variant UInt64) (w₁₆ w₁₅ w₇ w₂ : UInt64) : UInt64 :=
  w₁₆ + mixOf w₁₅ v.mixFar + w₇ + mixOf w₂ v.mixNear

def Plain.nextWord (v : Variant UInt64) (w₁₆ w₁₅ w₇ w₂ : Nat) : Nat :=
  plus (plus (plus w₁₆ (mixOf w₁₅ v.mixFar)) w₇) (mixOf w₂ v.mixNear)

/-- The word at a place of the schedule, which is unbounded here. -/
def scheduled (v : Variant UInt64) (block : Array UInt64) (t : Nat) : UInt64 :=
  if t < 16 then block[t]!
  else nextWord v (scheduled v block (t - 16)) (scheduled v block (t - 15))
    (scheduled v block (t - 7)) (scheduled v block (t - 2))
termination_by t

theorem scheduled_of_lt (v : Variant UInt64) (block : Array UInt64) {t : Nat} (h : t < 16) :
    scheduled v block t = block[t]! := by
  rw [scheduled, if_pos h]

theorem scheduled_add (v : Variant UInt64) (block : Array UInt64) (t : Nat) :
    scheduled v block (t + 16) = nextWord v (scheduled v block t) (scheduled v block (t + 1))
      (scheduled v block (t + 9)) (scheduled v block (t + 14)) := by
  rw [scheduled, if_neg (by omega)]
  rfl

/-- The words that have been computed are those of the schedule. -/
structure Holds (v : Variant UInt64) (block w : Array UInt64) (n : Nat) : Prop where
  size : w.size = n
  get : ∀ t < n, w[t]! = scheduled v block t

theorem Holds.push {v : Variant UInt64} {block w : Array UInt64} {n : Nat}
    (h : Holds v block w n) : Holds v block (w.push (scheduled v block n)) (n + 1) where
  size := by rw [Array.size_push, h.size]
  get t ht := by
    rw [getElem!_pos _ t (by rw [Array.size_push, h.size]; exact ht), Array.getElem_push]
    split
    · rename_i hlt
      rw [← getElem!_pos w t hlt, h.get t (h.size ▸ hlt)]
    · rename_i hge
      rw [h.size] at hge
      rw [show t = n by omega]

theorem holds_schedule (v : Variant UInt64) {block : Array UInt64} (hb : block.size = 16) :
    Holds v block (schedule v block) (16 + (v.rounds.size - 16)) := by
  unfold schedule
  generalize v.rounds.size - 16 = n
  induction n with
  | zero => exact ⟨hb, fun t ht => (scheduled_of_lt v block ht).symm⟩
  | succ n ih =>
    rw [List.range_succ, List.foldl_append, List.foldl_cons, List.foldl_nil]
    generalize (List.range n).foldl _ block = w at ih ⊢
    have hnext : w[n + 16 - 16]! + mixOf w[n + 16 - 15]! v.mixFar + w[n + 16 - 7]! +
        mixOf w[n + 16 - 2]! v.mixNear = scheduled v block (16 + n) := by
      rw [Nat.add_comm 16 n, scheduled_add, ih.get _ (by omega), ih.get _ (by omega),
        ih.get _ (by omega), ih.get _ (by omega)]
      rfl
    dsimp only
    rw [hnext]
    exact ih.push

/-! ## Blocks -/

/-- The rounds of a block on numbers. The window holds the next sixteen words. -/
def plainRounds (v : Variant UInt64) : List Nat → List Nat → Working Nat → Working Nat
  | k :: ks, [w₀, w₁, w₂, w₃, w₄, w₅, w₆, w₇, w₈, w₉, w₁₀, w₁₁, w₁₂, w₁₃, w₁₄, w₁₅], s =>
    plainRounds v ks [w₁, w₂, w₃, w₄, w₅, w₆, w₇, w₈, w₉, w₁₀, w₁₁, w₁₂, w₁₃, w₁₄, w₁₅,
      Plain.nextWord v w₀ w₁ w₉ w₁₄] (Working.plainStep v k w₀ s)
  | _, _, s => s

/-- The sixteen words of the schedule from a place on. -/
def window (v : Variant UInt64) (block : Array UInt64) (t : Nat) : List Nat :=
  [scheduled v block t, scheduled v block (t + 1), scheduled v block (t + 2),
    scheduled v block (t + 3), scheduled v block (t + 4), scheduled v block (t + 5),
    scheduled v block (t + 6), scheduled v block (t + 7), scheduled v block (t + 8),
    scheduled v block (t + 9), scheduled v block (t + 10), scheduled v block (t + 11),
    scheduled v block (t + 12), scheduled v block (t + 13), scheduled v block (t + 14),
    scheduled v block (t + 15)].map UInt64.toNat

theorem toNat_nextWord (v : Variant UInt64) (w₁₆ w₁₅ w₇ w₂ : UInt64) :
    (nextWord v w₁₆ w₁₅ w₇ w₂).toNat =
      Plain.nextWord v w₁₆.toNat w₁₅.toNat w₇.toNat w₂.toNat := by
  rw [nextWord, toNat_plus, toNat_plus, toNat_plus, toNat_mixOf, toNat_mixOf]
  rfl

theorem plainRounds_window (v : Variant UInt64) (block : Array UInt64) (ks : List UInt64) (t : Nat)
    (s : Working UInt64) :
    plainRounds v (ks.map UInt64.toNat) (window v block t) (s.map UInt64.toNat) =
      ((ks.zipIdx t).foldl (fun s p => s.step v p.1 (scheduled v block p.2)) s).map
        UInt64.toNat := by
  induction ks generalizing t s with
  | nil => rfl
  | cons k ks ih =>
    rw [List.zipIdx_cons, List.foldl_cons, ← ih]
    have hlast : (scheduled v block (t + 1 + 15)).toNat = Plain.nextWord v
        (scheduled v block t).toNat (scheduled v block (t + 1)).toNat
        (scheduled v block (t + 9)).toNat (scheduled v block (t + 14)).toNat := by
      rw [show t + 1 + 15 = t + 16 by omega, scheduled_add, toNat_nextWord]
    rw [← Working.plainStep_toNat]
    conv => rhs; rw [window]
    simp only [List.map_cons, List.map_nil, hlast, Nat.add_assoc, Nat.reduceAdd]
    rfl

/-- The chaining value after a block of sixteen words. -/
def plainCompress (v : Variant UInt64) (hash : Working Nat) (block : List Nat) : Working Nat :=
  hash.zip Plain.plus (plainRounds v (v.rounds.toList.map UInt64.toNat) block hash)

theorem window_zero (v : Variant UInt64) {block : Array UInt64} (hb : block.size = 16) :
    window v block 0 = block.toList.map UInt64.toNat := by
  have hwords : block.toList = (List.range 16).map (scheduled v block) := by
    apply List.ext_getElem
    · rw [List.length_map, List.length_range, Array.length_toList, hb]
    · intro t h _
      rw [Array.length_toList] at h
      rw [List.getElem_map, List.getElem_range, scheduled_of_lt v block (hb ▸ h),
        getElem!_pos block t h, Array.getElem_toList]
  rw [hwords]
  rfl

theorem foldl_roundStep (v : Variant UInt64) (block : Array UInt64) {w : Nat → UInt64}
    {ts : List Nat} (hw : ∀ t ∈ ts, w t = scheduled v block t) (s : Working UInt64) :
    ts.foldl (fun s t => roundStep v v.rounds[t]! (w t) s) s.toArray =
      (ts.foldl (fun s t => s.step v v.rounds[t]! (scheduled v block t)) s).toArray := by
  induction ts generalizing s with
  | nil => rfl
  | cons t ts ih =>
    rw [List.forall_mem_cons] at hw
    rw [List.foldl_cons, List.foldl_cons, hw.1, Working.roundStep_toArray, ih hw.2]

theorem zipIdx_toList (ks : Array UInt64) :
    ks.toList.zipIdx = (List.range ks.size).map fun t => (ks[t]!, t) := by
  apply List.ext_getElem
  · rw [List.length_zipIdx, List.length_map, List.length_range, Array.length_toList]
  · intro t h _
    rw [List.length_zipIdx, Array.length_toList] at h
    rw [List.getElem_zipIdx, List.getElem_map, List.getElem_range, getElem!_pos ks t h,
      Array.getElem_toList, Nat.zero_add]

theorem compress_toArray (v : Variant UInt64) (hash : Working UInt64) {block : Array UInt64}
    (hb : block.size = 16) :
    ∃ after : Working UInt64, compress v hash.toArray block = after.toArray ∧
      after.map UInt64.toNat =
        plainCompress v (hash.map UInt64.toNat) (block.toList.map UInt64.toNat) := by
  have hschedule := holds_schedule v hb
  have hw : ∀ t ∈ List.range v.rounds.size, (schedule v block)[t]! = scheduled v block t := by
    intro t ht
    exact hschedule.get t (by have := List.mem_range.mp ht; omega)
  have hrounds := foldl_roundStep v block hw hash
  have hplain := plainRounds_window v block v.rounds.toList 0 hash
  rw [zipIdx_toList, List.foldl_map] at hplain
  generalize (List.range v.rounds.size).foldl (fun s t => s.step v v.rounds[t]!
    (scheduled v block t)) hash = last at hrounds hplain
  refine ⟨hash.zip (· + ·) last, ?_, ?_⟩
  · rw [compress, hrounds, ← Array.toList_inj]
    simp [Working.zip, Working.toArray]
  · rw [plainCompress, ← window_zero v hb, hplain]
    simp only [Working.zip, Working.map, toNat_plus]

/-! ## Messages -/

/-- The number whose bytes are given, most significant first, cut to 64 bits. -/
def plainWord (bytes : List UInt8) : Nat :=
  bytes.foldl (fun w b => Nat.lor (Nat.mod (Nat.shiftLeft w 8) wordCount) b.toNat) 0

/-- The first `n` words of a message. -/
def words : Nat → List UInt8 → List UInt64
  | 0, _ => []
  | n + 1, bytes => wordOfBytes (bytes.take 8) :: words n (bytes.drop 8)

def plainWords : Nat → List UInt8 → List Nat
  | 0, _ => []
  | n + 1, bytes => plainWord (bytes.take 8) :: plainWords n (bytes.drop 8)

theorem toNat_wordOfBytes (bytes : List UInt8) :
    (wordOfBytes bytes : UInt64).toNat = plainWord bytes := by
  have hfold (w : UInt64) :
      (bytes.foldl (fun w b => (w <<< UInt64.ofNat 8) ||| UInt64.ofNat b.toNat) w).toNat =
        bytes.foldl (fun w b => Nat.lor (Nat.mod (Nat.shiftLeft w 8) wordCount) b.toNat)
          w.toNat := by
    induction bytes generalizing w with
    | nil => rfl
    | cons b bytes ih =>
      have hb : (UInt64.ofNat b.toNat).toNat = b.toNat := by
        have hlt : b.toNat < 2 ^ 8 := b.toNat_lt
        rw [UInt64.toNat_ofNat']
        omega
      rw [List.foldl_cons, List.foldl_cons, ih, UInt64.toNat_or, UInt64.toNat_shiftLeft,
        toNat_ofNat_mod, hb]
      rfl
  exact hfold 0

theorem map_words (n : Nat) (bytes : List UInt8) :
    (words n bytes).map UInt64.toNat = plainWords n bytes := by
  induction n generalizing bytes with
  | zero => rfl
  | succ n ih => rw [words, plainWords, List.map_cons, ih, toNat_wordOfBytes]

theorem length_words (n : Nat) (bytes : List UInt8) : (words n bytes).length = n := by
  induction n generalizing bytes with
  | zero => rfl
  | succ n ih => rw [words, List.length_cons, ih]

/-- Words are taken from the front of a message one after the other. -/
theorem foldl_words (n : Nat) (acc : Array UInt64) (bytes : List UInt8) :
    (List.range n).foldl (fun (acc : Array UInt64 × List UInt8) _ =>
        (acc.1.push (wordOfBytes (acc.2.take 8)), acc.2.drop 8)) (acc, bytes) =
      (acc ++ (words n bytes).toArray, bytes.drop (8 * n)) := by
  induction n generalizing acc bytes with
  | zero => simp [words]
  | succ n ih =>
    rw [List.range_succ_eq_map, List.foldl_cons, List.foldl_map, ih, words, List.drop_drop]
    simp only [Array.push_eq_append, Array.append_assoc, List.append_toArray, Nat.mul_succ,
      Nat.add_comm 8, List.singleton_append]

/-- The chaining value after `n` blocks. -/
def plainBlocks (v : Variant UInt64) : Nat → Working Nat → List UInt8 → Working Nat
  | 0, hash, _ => hash
  | n + 1, hash, bytes =>
    plainBlocks v n (plainCompress v hash (plainWords 16 bytes)) (bytes.drop 128)

theorem foldBlocks_toArray (v : Variant UInt64) (n : Nat) (hash : Working UInt64)
    (bytes : List UInt8) :
    ∃ after : Working UInt64, foldBlocks v n hash.toArray bytes = after.toArray ∧
      after.map UInt64.toNat = plainBlocks v n (hash.map UInt64.toNat) bytes := by
  induction n generalizing hash bytes with
  | zero => exact ⟨hash, rfl, rfl⟩
  | succ n ih =>
    have hsize : (words 16 bytes).toArray.size = 16 := length_words 16 bytes
    obtain ⟨mid, hmid, hplain⟩ := compress_toArray v hash hsize
    obtain ⟨after, hafter, hlast⟩ := ih mid (bytes.drop 128)
    refine ⟨after, ?_, ?_⟩
    · have hword : Word.size UInt64 = 8 := rfl
      rw [← hafter, ← hmid, foldBlocks]
      simp only [hword, foldl_words, Array.empty_append]
    · rw [hlast, hplain, map_words, plainBlocks]

def plainBytes (w : Nat) : List UInt8 :=
  (List.range 8).map fun i => UInt8.ofNat (Nat.shiftRight w (Nat.mod (8 * (7 - i)) 64))

theorem bytesOfWord_eq (w : UInt64) : bytesOfWord w = plainBytes w.toNat := by
  apply List.map_congr_left
  intro i _
  change UInt8.ofNat (w >>> UInt64.ofNat (8 * (8 - 1 - i))).toNat = _
  rw [UInt64.toNat_shiftRight, toNat_ofNat_mod]
  rfl

/-- Eight words as working variables. -/
def Working.ofArray (w : Array UInt64) : Working UInt64 :=
  ⟨w[0]!, w[1]!, w[2]!, w[3]!, w[4]!, w[5]!, w[6]!, w[7]!⟩

theorem Working.toArray_ofArray {w : Array UInt64} (hw : w.size = 8) : (ofArray w).toArray = w := by
  obtain ⟨words⟩ := w
  match words, hw with
  | [_, _, _, _, _, _, _, _], _ => rfl

/-- The hash of a message on numbers. -/
def plainHash (v : Variant UInt64) (message : List UInt8) : List UInt8 :=
  let padded := message ++ padding 8 message.length
  let last := plainBlocks v (padded.length / 128)
    ((Working.ofArray v.initial).map UInt64.toNat) padded
  [last.a, last.b, last.c, last.d, last.e, last.f, last.g, last.h].flatMap plainBytes

/-- The hash of a message is the one that is computed on numbers. -/
theorem hash_eq_plainHash {v : Variant UInt64} (hv : v.initial.size = 8) (message : List UInt8) :
    v.hash message = plainHash v message := by
  have hword : Word.size UInt64 = 8 := rfl
  unfold Variant.hash plainHash
  simp only [hword]
  generalize message ++ padding 8 message.length = padded
  obtain ⟨after, hafter, hplain⟩ :=
    foldBlocks_toArray v (padded.length / 128) (Working.ofArray v.initial) padded
  rw [Working.toArray_ofArray hv] at hafter
  rw [hafter, ← hplain, funext bytesOfWord_eq]
  rfl

theorem sha512_eq (message : List UInt8) : sha512 message = plainHash variant512 message :=
  hash_eq_plainHash rfl message

theorem sha512to256_eq (message : List UInt8) :
    sha512to256 message = (plainHash variant512to256 message).take 32 := by
  rw [sha512to256, hash_eq_plainHash rfl]

end CredentialEngine.Digest
