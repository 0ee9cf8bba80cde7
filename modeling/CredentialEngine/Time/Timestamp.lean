import CredentialEngine.Text.Blank
import CredentialEngine.Text.Numeral

/-!
# Points in time and times of day

Both are read field by field: a field skips blanks before its digits, and the separators are fixed.
A point in time is kept as seconds since 1970 in UTC with nanoseconds; a leap second holds a
thousand million nanoseconds or more. It is written in RFC 3339 with as many groups of three
fraction digits as it needs.
-/
namespace CredentialEngine.Time

/-- At most `width` digits after blanks, at least one: their value and the rest. -/
def digitField? (width : Nat) (cs : List Char) : Option (Nat × List Char) :=
  let cs := cs.dropWhile Text.isBlank
  let run := (cs.take width).takeWhile Char.isDigit
  if run.isEmpty then none else some (Text.digitsVal 0 run, cs.drop run.length)

def boundedField? (width low high : Nat) (cs : List Char) : Option (Nat × List Char) :=
  match digitField? width cs with
  | some (n, r) => if low ≤ n ∧ n ≤ high then some (n, r) else none
  | none => none

/-- Drops a fixed character. -/
def mark? (c : Char) : List Char → Option (List Char)
  | d :: cs => if d = c then some cs else none
  | [] => none

/-- Drops a fixed character, blanks before it ignored. -/
def spacedMark? (c : Char) (cs : List Char) : Option (List Char) :=
  mark? c (cs.dropWhile Text.isBlank)

/-- Whether a text is a time of day `H:M:S`. Fields may have one digit and blanks before them, and
the last second of a minute may be a leap second. -/
def isTimeOfDay (s : String) : Bool :=
  let rest? : Option (List Char) := do
    let (_, r) ← boundedField? 2 0 23 s.toList
    let r ← mark? ':' r
    let (_, r) ← boundedField? 2 0 59 r
    let r ← mark? ':' r
    let (_, r) ← boundedField? 2 0 60 r
    return r
  rest? = some []

structure Timestamp where
  /-- Seconds since 1970-01-01T00:00:00 in UTC. -/
  seconds : Int
  nanos : Nat
  deriving DecidableEq, Repr, Inhabited

def isLeapYear (y : Int) : Bool :=
  y % 4 = 0 && (y % 100 ≠ 0 || y % 400 = 0)

def daysInMonth (y : Int) (m : Nat) : Nat :=
  if m = 2 then (if isLeapYear y then 29 else 28)
  else if m = 4 ∨ m = 6 ∨ m = 9 ∨ m = 11 then 30
  else 31

/-- Days from 1970-01-01 to a date. Years are counted from March, in eras of 400 years. -/
def daysFromDate (y : Int) (m d : Nat) : Int :=
  let y' := if m ≤ 2 then y - 1 else y
  let era := y'.fdiv 400
  let yearOfEra := y' - era * 400
  let dayOfYear : Int := (153 * ((m + 9) % 12 : Nat) + 2) / 5 + d - 1
  let dayOfEra := yearOfEra * 365 + yearOfEra / 4 - yearOfEra / 100 + dayOfYear
  era * 146097 + dayOfEra - 719468

/-- The date of a number of days from 1970-01-01. -/
def dateOfDays (days : Int) : Int × Nat × Nat :=
  let z := days + 719468
  let era := z.fdiv 146097
  let dayOfEra := z - era * 146097
  let yearOfEra := (dayOfEra - dayOfEra / 1460 + dayOfEra / 36524 - dayOfEra / 146096) / 365
  let dayOfYear := dayOfEra - (365 * yearOfEra + yearOfEra / 4 - yearOfEra / 100)
  let mp := (5 * dayOfYear + 2) / 153
  let d := dayOfYear - (153 * mp + 2) / 5 + 1
  let m := if mp < 10 then mp + 3 else mp - 9
  let y := yearOfEra + era * 400 + (if m ≤ 2 then 1 else 0)
  (y, m.toNat, d.toNat)

/-- A year: four digits at most, or a sign and any number of digits. -/
def year? (cs : List Char) : Option (Int × List Char) :=
  match cs.dropWhile Text.isBlank with
  | '-' :: r => (digitRun? r).map fun (n, r) => (-(n : Int), r)
  | '+' :: r => (digitRun? r).map fun (n, r) => ((n : Int), r)
  | r => (digitField? 4 r).map fun (n, r) => ((n : Int), r)
where
  digitRun? (cs : List Char) : Option (Nat × List Char) :=
    let run := cs.takeWhile Char.isDigit
    if run.isEmpty then none else some (Text.digitsVal 0 run, cs.drop run.length)

/-- A fraction of a second in nanoseconds, digits beyond the ninth ignored. -/
def fraction? (cs : List Char) : Option (Nat × List Char) :=
  match cs with
  | '.' :: r =>
    let run := r.takeWhile Char.isDigit
    let used := run.take 9
    if used.isEmpty then none
    else some (Text.digitsVal 0 used * Nat.pow 10 (9 - used.length), r.drop run.length)
  | _ => some (0, cs)

def twoDigits? : List Char → Option (Nat × List Char)
  | a :: b :: r =>
    if a.isDigit && b.isDigit then some (Text.digitsVal 0 [a, b], r) else none
  | _ => none

/-- An offset from UTC in seconds: `Z`, the letters `UTC`, or a sign, hours and minutes. -/
def offset? (cs : List Char) : Option (Int × List Char) :=
  let signed (sign : Int) (cs : List Char) : Option (Int × List Char) := do
    let (h, r) ← twoDigits? cs
    let (m, r) ← twoDigits? (r.dropWhile fun c => c == ':' || Text.isBlank c)
    if m < 60 then some (sign * (h * 3600 + m * 60), r) else none
  match cs with
  | 'Z' :: r => some (0, r)
  | 'z' :: r => some (0, r)
  | '+' :: r => signed 1 r
  | '-' :: r => signed (-1) r
  | '\u2212' :: r => signed (-1) r
  | a :: b :: c :: r =>
    if [a, b, c].map Char.toUpper = ['U', 'T', 'C'] then some (0, r) else none
  | _ => none

/-- The years of which dates are known. -/
def minYear : Int := -262143

def maxYear : Int := 262142

/-- Whether a number of days from 1970-01-01 is a date of those years. -/
def isKnownDay (days : Int) : Bool :=
  daysFromDate minYear 1 1 ≤ days && days ≤ daysFromDate maxYear 12 31

namespace Timestamp

/-- Reads a point in time with a date, a time of day and an offset. -/
def parse? (s : String) : Option Timestamp := do
  let (year, r) ← year? s.toList
  let r ← spacedMark? '-' r
  let (month, r) ← boundedField? 2 1 12 r
  let r ← spacedMark? '-' r
  let (day, r) ← boundedField? 2 1 31 r
  let r ← match r with
    | c :: r => if c = 't' ∨ c = 'T' ∨ c = ' ' then some r else none
    | [] => none
  let (hour, r) ← boundedField? 2 0 23 r
  let r ← spacedMark? ':' r
  let (minute, r) ← boundedField? 2 0 59 r
  let r ← spacedMark? ':' r
  let (second, r) ← boundedField? 2 0 60 r
  let (fraction, r) ← fraction? r
  let (offset, r) ← offset? (r.dropWhile Text.isBlank)
  if !(r.dropWhile Text.isBlank).isEmpty then none
  else if year < minYear ∨ maxYear < year ∨ daysInMonth year month < day then none
  else if 86400 ≤ offset.natAbs then none
  else
    let leap := second = 60
    let clock : Int := hour * 3600 + minute * 60 + (if leap then 59 else second)
    let seconds := daysFromDate year month day * 86400 + clock - offset
    if isKnownDay (seconds.fdiv 86400) then
      some ⟨seconds, fraction + (if leap then 1000000000 else 0)⟩
    else none

/-- A number with at least `width` digits. -/
def padded (width n : Nat) : String :=
  let digits := Nat.toDigits 10 n
  String.ofList (List.replicate (width - digits.length) '0' ++ digits)

def yearText (y : Int) : String :=
  if 0 ≤ y ∧ y ≤ 9999 then padded 4 y.toNat
  else (if y < 0 then "-" else "+") ++ padded 4 y.natAbs

/-- The digits of a fraction of a second, in groups of three. -/
def fractionText (nanos : Nat) : String :=
  if nanos = 0 then ""
  else if nanos % 1000000 = 0 then "." ++ padded 3 (nanos / 1000000)
  else if nanos % 1000 = 0 then "." ++ padded 6 (nanos / 1000)
  else "." ++ padded 9 nanos

/-- Writes a point in time in UTC. -/
def format (t : Timestamp) : String :=
  let (y, m, d) := dateOfDays (t.seconds.fdiv 86400)
  let clock := (t.seconds.fmod 86400).toNat
  let leap := 1000000000 ≤ t.nanos
  yearText y ++ "-" ++ padded 2 m ++ "-" ++ padded 2 d ++ "T" ++ padded 2 (clock / 3600) ++ ":" ++
    padded 2 (clock / 60 % 60) ++ ":" ++ padded 2 (clock % 60 + if leap then 1 else 0) ++
    fractionText (if leap then t.nanos - 1000000000 else t.nanos) ++ "Z"

end Timestamp

end CredentialEngine.Time
