import CredentialEngine.Json.Reader
import CredentialEngine.Text.Blank
import CredentialEngine.Text.Numeral

/-!
# Network addresses

IPv4 and IPv6 addresses in text form and networks written as an address, a slash and a prefix
length. An IPv6 address has eight groups; one run of zero groups may be left out as two colons, and
the last two groups may be written as an IPv4 address.
-/
namespace CredentialEngine.Net

/-- A decimal number of at most three digits below 256, without a leading zero. -/
def octet? (cs : List Char) : Option (Nat × List Char) :=
  let run := cs.takeWhile Char.isDigit
  if run.isEmpty ∨ 3 < run.length ∨ (run.head? = some '0' ∧ 1 < run.length) then none
  else
    let n := Text.digitsVal 0 run
    if n < 256 then some (n, cs.drop run.length) else none

/-- Drops a fixed character. -/
def after? (c : Char) : List Char → Option (List Char)
  | d :: cs => if d = c then some cs else none
  | [] => none

/-- An IPv4 address at the head of a text, and the rest. -/
def ipv4? (cs : List Char) : Option (List Nat × List Char) := do
  let (a, r) ← octet? cs
  let (b, r) ← octet? (← after? '.' r)
  let (c, r) ← octet? (← after? '.' r)
  let (d, r) ← octet? (← after? '.' r)
  return ([a, b, c, d], r)

/-- A group of an IPv6 address: one to four hexadecimal digits. -/
def group? (cs : List Char) : Option (Nat × List Char) :=
  let run := cs.takeWhile fun c => (Json.hexVal? c).isSome
  if run.isEmpty ∨ 4 < run.length then none
  else some (run.foldl (fun n c => n * 16 + (Json.hexVal? c).getD 0) 0, cs.drop run.length)

/-- At most `limit` groups, with a colon before each but the first of an address part. The last two
may be an IPv4 address, which ends the part and is reported. -/
def groups (first : Bool) : Nat → List Char → List Nat × Bool × List Char
  | 0, cs => ([], false, cs)
  | limit + 1, cs =>
    match if first then some cs else after? ':' cs with
    | none => ([], false, cs)
    | some inner =>
      match if limit = 0 then none else ipv4? inner with
      | some ([a, b, c, d], r) => ([a * 256 + b, c * 256 + d], true, r)
      | _ =>
        match group? inner with
        | none => ([], false, cs)
        | some (g, r) =>
          let (gs, v4, r) := groups false limit r
          (g :: gs, v4, r)

/-- An IPv6 address at the head of a text, and the rest. -/
def ipv6? (cs : List Char) : Option (List Nat × List Char) :=
  let (front, v4, r) := groups true 8 cs
  if front.length = 8 then some (front, r)
  else if v4 then none
  else
    match r with
    | ':' :: ':' :: r =>
      let (back, _, r) := groups true (7 - front.length) r
      some (front ++ List.replicate (8 - front.length - back.length) 0 ++ back, r)
    | _ => none

/-- The number of address bits of the family that a text is an address of. -/
def addressBits? (cs : List Char) : Option Nat :=
  match ipv4? cs with
  | some (_, r) => if r.isEmpty then some 32 else none
  | none =>
    match ipv6? cs with
    | some (_, r) => if r.isEmpty then some 128 else none
    | none => none

/-- Whether a text, blanks around it ignored, is a network. The prefix length may carry a plus. -/
def isNetwork (s : String) : Bool :=
  let cs := Text.trimChars s.toList
  match cs.dropWhile (· ≠ '/') with
  | [] => false
  | _ :: length =>
    match addressBits? (cs.takeWhile (· ≠ '/')), Text.natOfSigned? length with
    | some bits, some n => n ≤ bits
    | _, _ => false

end CredentialEngine.Net
