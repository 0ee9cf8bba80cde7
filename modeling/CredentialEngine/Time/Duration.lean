import CredentialEngine.Decimal.Binary64
import CredentialEngine.Text.Blank
import CredentialEngine.Text.Numeral
import CredentialEngine.Text.Quoted

/-!
# Durations

Durations are written as numbers with units, such as `1m30s`. Each number passes through binary64
and is cut to whole nanoseconds before the parts are added; a duration is written back in the
largest unit that divides it.
-/
namespace CredentialEngine

/-- A span of time in whole nanoseconds. -/
structure Duration where
  nanos : Nat
  deriving DecidableEq, Repr, Inhabited

namespace Duration

/-- Why a text is no duration. The text is the whole one, trimmed. -/
inductive ParseError where
  | empty
  | missingUnit (text : String)
  /-- A part does not begin with a number. -/
  | malformed (text : String)
  | badNumber (text : String)
  | unknownUnit (unit : String) (text : String)
  deriving DecidableEq, Repr

def ParseError.message : ParseError → String
  | .empty => "empty duration"
  | .missingUnit t => "missing unit in duration " ++ Text.quoted t
  | .malformed t => "invalid duration " ++ Text.quoted t
  | .badNumber t => "invalid number in duration " ++ Text.quoted t
  | .unknownUnit u t => "unknown unit " ++ Text.quoted u ++ " in duration " ++ Text.quoted t

/-- The characters of a number in a duration. -/
def isNumeric (c : Char) : Bool :=
  c.isDigit || c == '.'

/-- A number as the digits before and after its point, at most one point and at least one digit. -/
def decimal? (cs : List Char) : Option (List Char × List Char) :=
  let whole := cs.takeWhile (· ≠ '.')
  let frac := (cs.dropWhile (· ≠ '.')).drop 1
  if frac.contains '.' || (whole.isEmpty && frac.isEmpty) then none else some (whole, frac)

def unitNanos? (unit : List Char) : Option Nat :=
  match unit with
  | ['h'] => some 3600000000000
  | ['m'] => some 60000000000
  | ['s'] => some 1000000000
  | ['m', 's'] => some 1000000
  | ['u', 's'] => some 1000
  | ['µ', 's'] => some 1000
  | ['n', 's'] => some 1
  | _ => none

/-- The largest number of nanoseconds that one part can contribute. -/
def maxPart : Nat := Nat.pow 2 64 - 1

/-- The nanoseconds of one part: the number and the product with the unit are each rounded to
binary64, then the fraction is cut off. -/
def partNanos (whole frac : List Char) (unit : Nat) : Nat :=
  ((Decimal.Binary64.round (Text.digitsVal 0 (whole ++ frac)) (Nat.pow 10 frac.length)).scale
    unit).toNatClamped maxPart

/-- The sum of the parts of a duration; `text` is what errors quote. -/
def sum (text : String) : List Char → Except ParseError Nat
  | [] => .ok 0
  | c :: cs =>
    if !isNumeric c then .error (.malformed text)
    else
      let afterNumber := cs.dropWhile isNumeric
      if afterNumber.isEmpty then .error (.missingUnit text)
      else
        match decimal? (c :: cs.takeWhile isNumeric) with
        | none => .error (.badNumber text)
        | some (whole, frac) =>
          let unit := afterNumber.takeWhile fun d => !d.isDigit
          match unitNanos? unit with
          | none => .error (.unknownUnit (String.ofList unit) text)
          | some nanos => do
            let rest ← sum text (afterNumber.dropWhile fun d => !d.isDigit)
            return partNanos whole frac nanos + rest
termination_by cs => cs.length
decreasing_by
  have h₁ := (List.dropWhile_sublist (fun d : Char => !d.isDigit)
    (l := cs.dropWhile isNumeric)).length_le
  have h₂ := (List.dropWhile_sublist isNumeric (l := cs)).length_le
  simp only [List.length_cons]
  omega

/-- Reads a duration. A lone zero needs no unit. -/
def parse (s : String) : Except ParseError Duration :=
  let text := Text.trim s
  if text = "" then .error .empty
  else if text = "0" then .ok ⟨0⟩
  else (sum text text.toList).map fun n => ⟨n⟩

/-- Writes a duration in the largest unit that divides it. -/
def format (d : Duration) : String :=
  let n := d.nanos
  if n = 0 then "0s"
  else if n % 1000000000 = 0 then Text.natText (n / 1000000000) ++ "s"
  else if n % 1000000 = 0 then Text.natText (n / 1000000) ++ "ms"
  else if n % 1000 = 0 then Text.natText (n / 1000) ++ "us"
  else Text.natText n ++ "ns"

end Duration

end CredentialEngine
