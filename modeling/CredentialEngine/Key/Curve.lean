import CredentialEngine.Digest.Sha2

/-!
# Signatures on the Edwards curve

Ed25519 over natural numbers: arithmetic modulo the field prime, points of the twisted Edwards
curve in extended coordinates, keys, signatures. A signature is checked by comparing the encoding of
the recomputed point with the one in the signature, and its scalar must be reduced.
-/
namespace CredentialEngine.Key.Curve

/-- The field prime `2 ^ 255 - 19`. -/
def fieldPrime : Nat := Nat.pow 2 255 - 19

/-- The order of the base point. -/
def order : Nat := Nat.pow 2 252 + 27742317777372353535851937790883648493

/-- `base ^ exponent` modulo `modulus`. -/
def powMod (base exponent modulus : Nat) : Nat :=
  if h : exponent = 0 then 1 % modulus
  else
    let half := powMod (base * base % modulus) (exponent / 2) modulus
    if exponent % 2 = 1 then base * half % modulus else half
termination_by exponent
decreasing_by omega

def fieldInverse (a : Nat) : Nat :=
  powMod a (fieldPrime - 2) fieldPrime

def fieldNeg (a : Nat) : Nat :=
  (fieldPrime - a % fieldPrime) % fieldPrime

def fieldSub (a b : Nat) : Nat :=
  (a + (fieldPrime - b)) % fieldPrime

/-- The curve constant `-121665 / 121666`. -/
def curveD : Nat :=
  37095705934669439343138083508754565189542113879843219016388785533085940283555

/-- A square root of minus one. -/
def rootOfMinusOne : Nat :=
  19681161376707505956807079304988542015446066515923890162744021073123829784752

/-- A point in extended coordinates: `x / z`, `y / z`, with `t = x * y / z`. -/
structure Point where
  x : Nat
  y : Nat
  z : Nat
  t : Nat

namespace Point

def zero : Point := ⟨0, 1, 1, 0⟩

def base : Point where
  x := 15112221349535400772501151409588531511454012693041857206046113283949847762202
  y := 46316835694926478169428394003475163141307993866256225615783033603165251855960
  z := 1
  t := 15112221349535400772501151409588531511454012693041857206046113283949847762202 *
    46316835694926478169428394003475163141307993866256225615783033603165251855960 % fieldPrime

def add (p q : Point) : Point :=
  let a := fieldSub p.y p.x * fieldSub q.y q.x % fieldPrime
  let b := (p.y + p.x) * (q.y + q.x) % fieldPrime
  let c := 2 * curveD * (p.t * q.t % fieldPrime) % fieldPrime
  let d := 2 * p.z * q.z % fieldPrime
  let e := fieldSub b a
  let f := fieldSub d c
  let g := d + c
  let h := b + a
  ⟨e * f % fieldPrime, g * h % fieldPrime, f * g % fieldPrime, e * h % fieldPrime⟩

def neg (p : Point) : Point :=
  ⟨fieldNeg p.x, p.y, p.z, fieldNeg p.t⟩

/-- The `n`-fold sum of a point. -/
def mul (n : Nat) (p : Point) : Point :=
  if h : n = 0 then zero
  else
    let rest := mul (n / 2) (p.add p)
    if n % 2 = 1 then p.add rest else rest
termination_by n
decreasing_by omega

end Point

/-- A number as `n` bytes, least significant first. -/
def littleEndian (n value : Nat) : List UInt8 :=
  (List.range n).map fun i => UInt8.ofNat (value / Nat.pow 256 i)

/-- The number with the given bytes, least significant first. -/
def ofLittleEndian (bytes : List UInt8) : Nat :=
  bytes.foldr (fun b n => b.toNat + 256 * n) 0

/-- A point as its second coordinate and the parity of the first. -/
def Point.encode (p : Point) : List UInt8 :=
  let zInv := fieldInverse p.z
  let x := p.x * zInv % fieldPrime
  let y := p.y * zInv % fieldPrime
  littleEndian 32 (y + x % 2 * Nat.pow 2 255)

/-- The point with the given encoding. A second coordinate beyond the prime is reduced. -/
def Point.decode? (bytes : List UInt8) : Option Point :=
  let n := ofLittleEndian bytes
  let y := n % Nat.pow 2 255 % fieldPrime
  let sign := n / Nat.pow 2 255 % 2
  let y2 := y * y % fieldPrime
  let u := fieldSub y2 1
  let v := (curveD * y2 + 1) % fieldPrime
  let v3 := v * v % fieldPrime * v % fieldPrime
  let v7 := v3 * v3 % fieldPrime * v % fieldPrime
  let r := u * v3 % fieldPrime * powMod (u * v7 % fieldPrime) ((fieldPrime - 5) / 8) fieldPrime
    % fieldPrime
  let check := v * (r * r % fieldPrime) % fieldPrime
  let root? : Option Nat :=
    if check = u then some r
    else if check = fieldNeg u then some (r * rootOfMinusOne % fieldPrime)
    else none
  root?.map fun x =>
    let x := if x % 2 = sign then x else fieldNeg x
    ⟨x, y, 1, x * y % fieldPrime⟩

/-- The secret scalar and the nonce key that a 32-byte seed expands to. -/
def expand (seed : List UInt8) : Nat × List UInt8 :=
  let h := Digest.sha512 seed
  let n := ofLittleEndian (h.take 32)
  (n / 8 % Nat.pow 2 251 * 8 + Nat.pow 2 254, h.drop 32)

def publicKey (seed : List UInt8) : List UInt8 :=
  (Point.mul (expand seed).1 Point.base).encode

/-- The signature of a message: an encoded point and a scalar. -/
def sign (seed message : List UInt8) : List UInt8 :=
  let (a, nonceKey) := expand seed
  let pub := publicKey seed
  let r := ofLittleEndian (Digest.sha512 (nonceKey ++ message)) % order
  let rPoint := (Point.mul r Point.base).encode
  let k := ofLittleEndian (Digest.sha512 (rPoint ++ pub ++ message)) % order
  rPoint ++ littleEndian 32 ((r + k * a) % order)

/-- Whether a signature of a message is by the holder of a public key. -/
def verify (pub message signature : List UInt8) : Bool :=
  (Point.decode? pub).any fun a =>
    let rPoint := signature.take 32
    let s := ofLittleEndian (signature.drop 32)
    if signature.length ≠ 64 ∨ order ≤ s then false
    else
      let k := ofLittleEndian (Digest.sha512 (rPoint ++ pub ++ message)) % order
      ((Point.mul s Point.base).add (Point.mul k a.neg)).encode = rPoint

end CredentialEngine.Key.Curve
