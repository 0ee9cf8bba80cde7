/-!
# Rounding to binary64

The nearest binary64 number to a non-negative fraction, ties to the even significand. A rounded
value is kept as `significand · 2 ^ exponent`, so that later arithmetic on it stays exact.
-/
namespace CredentialEngine.Decimal

/-- A non-negative binary64 value. -/
inductive Binary64 where
  /-- The value `significand · 2 ^ exponent`. -/
  | finite (significand : Nat) (exponent : Int)
  | infinite
  deriving DecidableEq, Repr

/-- The quotient rounded to the nearest natural number, ties to even. -/
def divRoundEven (num den : Nat) : Nat :=
  let q := num / den
  let r := num % den
  if 2 * r < den then q
  else if den < 2 * r then q + 1
  else q + q % 2

/-- The exponent of the leading binary digit of a positive fraction. -/
def leadingExponent (num den : Nat) : Int :=
  let k : Int := (Nat.log2 num : Int) - (Nat.log2 den : Int)
  if num * Nat.pow 2 (-k).toNat < den * Nat.pow 2 k.toNat then k - 1 else k

namespace Binary64

/-- The nearest value to `num / den`. Values from the middle above the largest one are infinite. -/
def round (num den : Nat) : Binary64 :=
  if num = 0 then .finite 0 0
  else
    let e := max (-1074) (leadingExponent num den - 52)
    let m := divRoundEven (num * Nat.pow 2 (-e).toNat) (den * Nat.pow 2 e.toNat)
    if Nat.pow 2 1024 ≤ m * Nat.pow 2 e.toNat ∧ 0 ≤ e then .infinite else .finite m e

/-- The rounded product of a value and a natural number. -/
def scale (x : Binary64) (n : Nat) : Binary64 :=
  match x with
  | .finite m e => round (m * n * Nat.pow 2 e.toNat) (Nat.pow 2 (-e).toNat)
  | .infinite => .infinite

/-- The whole part of a value, no larger than `limit`. -/
def toNatClamped (x : Binary64) (limit : Nat) : Nat :=
  match x with
  | .finite m e => min limit (m * Nat.pow 2 e.toNat / Nat.pow 2 (-e).toNat)
  | .infinite => limit

end Binary64

end CredentialEngine.Decimal
