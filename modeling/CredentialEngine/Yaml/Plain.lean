import CredentialEngine.Json.Reader

/-!
# The values of plain scalars

A scalar without quotes is null, a boolean, a number or else a text, by its spelling alone. Digits
after a leading zero are a text, so that numbers such as postal codes stay what they are.
-/
namespace CredentialEngine.Yaml.Plain

def isNull (s : String) : Bool :=
  ["null", "Null", "NULL", "~"].contains s

def bool? (s : String) : Option Bool :=
  if ["true", "True", "TRUE"].contains s then some true
  else if ["false", "False", "FALSE"].contains s then some false
  else none

/-- Several digits of which the first is zero, after an optional sign. -/
def isZeroLed (s : List Char) : Bool :=
  let digits :=
    match s with
    | '+' :: cs => cs
    | '-' :: cs => cs
    | cs => cs
  match digits with
  | '0' :: d :: ds => (d :: ds).all Char.isDigit
  | _ => false

/-- The number that digits of a base denote, at least one. -/
def digits? (base : Nat) (cs : List Char) : Option Nat :=
  if cs.isEmpty then none
  else cs.foldlM (fun n c => ((Json.hexVal? c).filter (· < base)).map fun d => n * base + d) 0

/-- An integer without its sign: decimal, or in a base that its first two characters name. -/
def magnitude? : List Char → Option Nat
  | '0' :: 'x' :: cs => digits? 16 cs
  | '0' :: 'o' :: cs => digits? 8 cs
  | '0' :: 'b' :: cs => digits? 2 cs
  | cs => if isZeroLed cs then none else digits? 10 cs

/-- The integer that a text spells, of any size. -/
def integer? : List Char → Option Int
  | '+' :: cs => (magnitude? cs).map Int.ofNat
  | '-' :: cs => (magnitude? cs).map fun n => -Int.ofNat n
  | cs => (magnitude? cs).map Int.ofNat

/-- A decimal number without its sign, with digits on at least one side of its point, that is not
too large for binary64. -/
def isDecimal (cs : List Char) : Bool :=
  let whole := cs.takeWhile Char.isDigit
  let (frac, rest) :=
    match cs.dropWhile Char.isDigit with
    | '.' :: r => (r.takeWhile Char.isDigit, r.dropWhile Char.isDigit)
    | r => ([], r)
  if whole.isEmpty && frac.isEmpty then false
  else
    match Json.exponent? rest with
    | some (e, []) =>
      !Json.exceedsBinary64 (Text.digitsVal 0 (whole ++ frac)) (e.getD 0 - frac.length)
    | _ => false

/-- A number that is not an integer, or one in exponent notation. -/
def isFraction (s : String) : Bool :=
  let infinite := [".inf", ".Inf", ".INF"]
  let undefined := [".nan", ".NaN", ".NAN"]
  undefined.contains s ||
    match s.toList with
    | '+' :: cs => infinite.contains (String.ofList cs) || isDecimal cs
    | '-' :: cs => infinite.contains (String.ofList cs) || isDecimal cs
    | cs => infinite.contains s || isDecimal cs

/-- The integers that a value can hold. -/
def isHeld (n : Int) : Bool :=
  -Int.pow 2 63 ≤ n && n < Int.pow 2 64

/-- The integers that are recognised, whether or not a value can hold them. -/
def isRecognised (n : Int) : Bool :=
  -Int.pow 2 127 ≤ n && n < Int.pow 2 128

def intValue? (s : String) : Option Json :=
  (integer? s.toList).bind fun n => if isHeld n then some (.int n) else none

/-- What a plain scalar denotes. An integer that is recognised but cannot be held denotes
nothing. -/
def value? (s : String) : Option Json :=
  if s = "" || isNull s then some .null
  else
    match bool? s, (integer? s.toList).filter isRecognised with
    | some b, _ => some (.bool b)
    | none, some n => if isHeld n then some (.int n) else none
    | none, none => some (if isFraction s && !isZeroLed s.toList then .fraction else .str s)

/-- Without quotes the text stays a text. -/
def isText (s : String) : Bool :=
  match value? s with
  | some (.str _) => !isZeroLed s.toList
  | _ => false

end CredentialEngine.Yaml.Plain
