/-!
# Texts over bytes by groups of bits

Base16, base32 and base64 write the bits of a byte string, most significant first, in groups of a
fixed width, one letter per group, and fill the last group with zeros. Reading is strict: only
letters of the alphabet, no padding, no letter beyond the last byte, and the filling must be zero.
-/
namespace CredentialEngine.Encoding

/-- The lowest `width` bits of a number, most significant first. -/
def bitsOf (width n : Nat) : List Bool :=
  (List.range width).map fun i => n.testBit (width - 1 - i)

/-- The number with the given bits, most significant first. -/
def ofBits (bs : List Bool) : Nat :=
  bs.foldl (fun n b => 2 * n + b.toNat) 0

/-- Consecutive groups of `k` items; the last may be shorter. -/
def groups (k : Nat) (bs : List Bool) : List (List Bool) :=
  if _h : k = 0 ∨ bs = [] then []
  else bs.take k :: groups k (bs.drop k)
termination_by bs.length
decreasing_by
  have hb : bs.length ≠ 0 := fun e => _h (.inr (List.length_eq_zero_iff.mp e))
  have hk : k ≠ 0 := fun e => _h (.inl e)
  simp only [List.length_drop]
  omega

/-- A code of letters for groups of bits. -/
structure Radix where
  /-- The number of bits in a group. -/
  width : Nat
  /-- The letter of each group value. -/
  alphabet : List Char

namespace Radix

/-- Hexadecimal, lower case. -/
def base16 : Radix where
  width := 4
  alphabet := "0123456789abcdef".toList

/-- RFC 4648 base32, upper case, without padding. -/
def base32 : Radix where
  width := 5
  alphabet := "ABCDEFGHIJKLMNOPQRSTUVWXYZ234567".toList

/-- RFC 4648 base64 with the URL-safe alphabet, without padding. -/
def base64url : Radix where
  width := 6
  alphabet := "ABCDEFGHIJKLMNOPQRSTUVWXYZabcdefghijklmnopqrstuvwxyz0123456789-_".toList

/-- The letter of one group, filled with zeros on the right. -/
def letter (r : Radix) (group : List Bool) : Char :=
  r.alphabet.getD (ofBits (group ++ List.replicate (r.width - group.length) false)) 'A'

def encode (r : Radix) (bytes : List UInt8) : List Char :=
  (groups r.width (bytes.flatMap fun b => bitsOf 8 b.toNat)).map r.letter

def bits? (r : Radix) (cs : List Char) : Option (List Bool) :=
  (cs.mapM fun c => r.alphabet.idxOf? c).map fun ns => ns.flatMap (bitsOf r.width)

def decode? (r : Radix) (cs : List Char) : Option (List UInt8) :=
  match r.bits? cs with
  | none => none
  | some bs =>
    let whole := bs.length / 8 * 8
    let filling := bs.drop whole
    if filling.length < r.width && filling.all (!·) then
      some ((groups 8 (bs.take whole)).map fun g => UInt8.ofNat (ofBits g))
    else none

end Radix

end CredentialEngine.Encoding
