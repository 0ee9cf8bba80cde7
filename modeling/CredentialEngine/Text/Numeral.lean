/-!
# Decimal numerals

Reading whole numbers the way the engine's options, labels and claims spell them: ASCII digits, and
where a sign is allowed one leading sign.
-/
namespace CredentialEngine.Text

def digitVal (c : Char) : Nat :=
  c.toNat - '0'.toNat

/-- The number a digit list denotes, most significant digit first, after `acc`. -/
def digitsVal (acc : Nat) (cs : List Char) : Nat :=
  cs.foldl (fun n c => n * 10 + digitVal c) acc

def natOfDigits? (cs : List Char) : Option Nat :=
  if cs.isEmpty || !cs.all Char.isDigit then none else some (digitsVal 0 cs)

/-- A numeral that may carry a leading plus. -/
def natOfSigned? : List Char → Option Nat
  | '+' :: cs => natOfDigits? cs
  | cs => natOfDigits? cs

/-- A numeral that may carry a leading plus or minus. -/
def intOfSigned? : List Char → Option Int
  | '+' :: cs => (natOfDigits? cs).map Int.ofNat
  | '-' :: cs => (natOfDigits? cs).map fun n => -Int.ofNat n
  | cs => (natOfDigits? cs).map Int.ofNat

def natText (n : Nat) : String :=
  String.ofList (Nat.toDigits 10 n)

def intText : Int → String
  | .ofNat n => natText n
  | .negSucc n => "-" ++ natText (n + 1)

end CredentialEngine.Text
