import CredentialEngine.Proofs.Digest.Sha2
import CredentialEngine.Proofs.Key.Text

/-!
# Checking that a key accepts its own signature

Whether a key accepts its signature of a given message is a computation. Here it is arranged so that
each number is worked out before it is used, with hashes by natural arithmetic.
-/
namespace CredentialEngine.Key

namespace Curve

/-- Applies a function to a number that is worked out first. -/
def worked {α : Type} (n : Nat) (f : Nat → α) : α :=
  Nat.rec (f 0) (fun k _ => f (k + 1)) n

@[simp] theorem worked_eq {α : Type} (n : Nat) (f : Nat → α) : worked n f = f n := by
  cases n <;> rfl

/-- Applies a function to bytes that are worked out first. -/
def workedBytes {α : Type} : List UInt8 → (List UInt8 → α) → α
  | [], f => f []
  | b :: bs, f => worked b.toNat fun n => workedBytes bs fun bs => f (UInt8.ofNat n :: bs)

@[simp] theorem workedBytes_eq {α : Type} (bs : List UInt8) (f : List UInt8 → α) :
    workedBytes bs f = f bs := by
  induction bs generalizing f with
  | nil => rfl
  | cons b bs ih => rw [workedBytes, worked_eq, ih, UInt8.ofNat_toNat]

theorem length_littleEndian (n value : Nat) : (littleEndian n value).length = n := by
  rw [littleEndian, List.length_map, List.length_range]

theorem littleEndian_succ (n value : Nat) :
    littleEndian (n + 1) value = UInt8.ofNat value :: littleEndian n (value / 256) := by
  rw [littleEndian, List.range_succ_eq_map, List.map_cons, List.map_map, littleEndian]
  congr 1
  · exact congrArg UInt8.ofNat (Nat.div_one value)
  · refine List.map_congr_left fun i _ => ?_
    have hdiv : value / Nat.pow 256 (i + 1) = value / 256 / Nat.pow 256 i := by
      rw [Nat.div_div_eq_div_mul, Nat.mul_comm]
      rfl
    exact congrArg UInt8.ofNat hdiv

theorem ofLittleEndian_littleEndian {n value : Nat} (h : value < 256 ^ n) :
    ofLittleEndian (littleEndian n value) = value := by
  induction n generalizing value with
  | zero =>
    rw [Nat.pow_zero, Nat.lt_one_iff] at h
    rw [h]
    rfl
  | succ n ih =>
    have hrest : value / 256 < 256 ^ n :=
      Nat.div_lt_of_lt_mul (by rwa [Nat.pow_succ, Nat.mul_comm] at h)
    have hfirst : (UInt8.ofNat value).toNat = value % 256 := UInt8.toNat_ofNat'
    rw [littleEndian_succ, ofLittleEndian, List.foldr_cons, ← ofLittleEndian, ih hrest, hfirst]
    omega

/-- The number whose bytes encode a point. -/
def pointCode (p : Point) : Nat :=
  let zInv := fieldInverse p.z
  p.y * zInv % fieldPrime + p.x * zInv % fieldPrime % 2 * Nat.pow 2 255

theorem encode_eq (p : Point) : p.encode = littleEndian 32 (pointCode p) := rfl

theorem length_encode (p : Point) : p.encode.length = 32 :=
  length_littleEndian 32 _

/-- A signature in two parts is checked against its first part. -/
theorem verify_append (pub message : List UInt8) {rPoint : List UInt8} {s : Nat}
    (hr : rPoint.length = 32) (hs : s < order) :
    verify pub message (rPoint ++ littleEndian 32 s) =
      (Point.decode? pub).any fun a =>
        ((Point.mul s Point.base).add (Point.mul
          (ofLittleEndian (Digest.sha512 (rPoint ++ pub ++ message)) % order) a.neg)).encode =
            rPoint := by
  have hfits : s < 256 ^ 32 := Nat.lt_trans hs (by decide)
  have hlength : (rPoint ++ littleEndian 32 s).length = 64 := by
    rw [List.length_append, hr, length_littleEndian]
  have hfirst : (rPoint ++ littleEndian 32 s).take 32 = rPoint := by
    rw [← hr, List.take_left]
  have hlast : ofLittleEndian ((rPoint ++ littleEndian 32 s).drop 32) = s := by
    rw [← hr, List.drop_left, hr, ofLittleEndian_littleEndian hfits]
  have hvalid : ¬ ((rPoint ++ littleEndian 32 s).length ≠ 64 ∨ order ≤ s) := by
    rw [hlength]
    omega
  simp only [verify, hfirst, hlast, if_neg hvalid]

/-- The public key of a seed, worked out in steps. -/
def workedPublicKey (seed : List UInt8) : List UInt8 :=
  workedBytes (Digest.plainHash Digest.variant512 seed) fun expanded =>
  worked (ofLittleEndian (expanded.take 32) / 8 % Nat.pow 2 251 * 8 + Nat.pow 2 254) fun a =>
  worked (pointCode (Point.mul a Point.base)) fun pub => littleEndian 32 pub

theorem workedPublicKey_eq (seed : List UInt8) : workedPublicKey seed = publicKey seed := by
  simp only [workedPublicKey, worked_eq, workedBytes_eq, ← encode_eq, ← Digest.sha512_eq]
  rfl

/-- Whether the key of a seed accepts the signature of a message that the seed makes. -/
def acceptsOwn (seed message : List UInt8) : Bool :=
  workedBytes message fun message =>
  workedBytes (Digest.plainHash Digest.variant512 seed) fun expanded =>
  worked (ofLittleEndian (expanded.take 32) / 8 % Nat.pow 2 251 * 8 + Nat.pow 2 254) fun a =>
  worked (pointCode (Point.mul a Point.base)) fun pub =>
  worked (ofLittleEndian (Digest.plainHash Digest.variant512 (expanded.drop 32 ++ message)) % order)
    fun r =>
  worked (pointCode (Point.mul r Point.base)) fun rCode =>
  worked (ofLittleEndian (Digest.plainHash Digest.variant512
    (littleEndian 32 rCode ++ littleEndian 32 pub ++ message)) % order) fun k =>
  worked ((r + k * a) % order) fun s =>
  (Point.decode? (littleEndian 32 pub)).any fun p =>
    ((Point.mul s Point.base).add (Point.mul k p.neg)).encode = littleEndian 32 rCode

theorem verify_sign_eq (seed message : List UInt8) :
    verify (publicKey seed) message (sign seed message) = acceptsOwn seed message := by
  simp only [acceptsOwn, worked_eq, workedBytes_eq, ← encode_eq, ← Digest.sha512_eq]
  rw [sign, verify_append _ _ (length_encode _) (Nat.mod_lt _ (by decide))]
  rfl

end Curve

/-- The public text of a seed, its key worked out in steps. -/
theorem Pair.publicText_ofSeed (role : Role) (seed : List UInt8) :
    (Pair.ofSeed role seed).publicText =
      checkedText (role.byte :: Curve.workedPublicKey seed) := by
  rw [Curve.workedPublicKey_eq]
  rfl

/-- A key whose acceptance was worked out accepts its own signature. -/
theorem Pair.acceptsOwn_of_worked {role : Role} {seed message : List UInt8}
    (h : Curve.acceptsOwn seed message = true) : (Pair.ofSeed role seed).AcceptsOwn message := by
  intro signature hsign
  obtain rfl := Except.ok.inj hsign
  exact (Curve.verify_sign_eq seed message).trans h

end CredentialEngine.Key
