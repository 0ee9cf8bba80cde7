import CredentialEngine.Encoding.Checksum
import CredentialEngine.Encoding.Radix
import CredentialEngine.Key.Curve
import CredentialEngine.Text.Numeral

/-!
# Key pairs and their texts

A key pair has a role, a public key, and a seed unless only its public half is known. Seeds and
public keys are written in base32 with a leading type byte and a trailing checksum.
-/
namespace CredentialEngine.Key

inductive Role where
  | account
  | cluster
  | module
  | server
  | operator
  | service
  | user
  | curve
  deriving DecidableEq, Repr

namespace Role

/-- The type byte, which fixes the first letter of the public text. -/
def byte : Role → UInt8
  | .account => 0
  | .cluster => 16
  | .module => 96
  | .server => 104
  | .operator => 112
  | .service => 168
  | .user => 160
  | .curve => 184

def all : List Role :=
  [.account, .cluster, .module, .server, .operator, .service, .user, .curve]

def ofByte? (b : UInt8) : Option Role :=
  all.find? fun r => r.byte = b

end Role

/-- Why a text is no key, or a key cannot do what is asked of it. -/
inductive Fault where
  | seedLength (bytes : Nat)
  | publicLength (bytes : Nat)
  | encoding
  | checksum
  /-- A seed that starts with the wrong letter. -/
  | seedMark (first : Char)
  | typeByte (byte : UInt8)
  | offCurve
  | noSeed
  deriving DecidableEq, Repr

def Fault.message : Fault → String
  | .seedLength n => "Invalid key length: Bad seed length: " ++ Text.natText n
  | .publicLength n => "Invalid key length: Bad key length: " ++ Text.natText n
  | .encoding => "Codec failure: Data encoding failure: not base32"
  | .checksum => "Checksum match failure: Checksum mismatch"
  | .seedMark c => "Invalid byte prefix: Incorrect byte prefix: " ++ String.singleton c
  | .typeByte b => "Invalid byte prefix: Not a valid public key prefix: " ++ Text.natText b.toNat
  | .offCurve => "Signature verification failure: Could not read public key"
  | .noSeed => "Signature failure: Cannot sign without a seed key"

/-- A key pair; without a seed it can only check signatures. -/
structure Pair where
  role : Role
  publicKey : List UInt8
  seed? : Option (List UInt8)
  deriving DecidableEq, Repr

def textBytes (s : String) : List UInt8 :=
  s.toUTF8.data.toList

/-- Bytes with their checksum, in base32. -/
def checkedText (bytes : List UInt8) : String :=
  String.ofList (Encoding.Radix.base32.encode (bytes ++ Encoding.crcBytes bytes))

/-- The bytes of a checked text, without the checksum. -/
def checkedBytes (text : String) : Except Fault (List UInt8) :=
  match Encoding.Radix.base32.decode? text.toList with
  | none => .error .encoding
  | some bytes =>
    let body := bytes.take (bytes.length - 2)
    if bytes.drop (bytes.length - 2) = Encoding.crcBytes body then .ok body else .error .checksum

/-- The number of bytes in the text of a seed. -/
def seedLength : Nat := 58

/-- The number of bytes in the text of a public key. -/
def publicLength : Nat := 56

/-- The mark that every seed starts with, in the upper five bits of its first byte. -/
def seedMark : UInt8 := 0x90

namespace Pair

def ofSeed (role : Role) (seed : List UInt8) : Pair :=
  ⟨role, Curve.publicKey seed, some seed⟩

def publicText (p : Pair) : String :=
  checkedText (p.role.byte :: p.publicKey)

def seedText? (p : Pair) : Option String :=
  p.seed?.map fun seed =>
    checkedText ((seedMark ||| (p.role.byte >>> 5)) :: ((p.role.byte &&& 31) <<< 3) :: seed)

/-- Reads a seed. A type byte that is no role counts as the operator's. -/
def ofSeedText (text : String) : Except Fault Pair := do
  if text.utf8ByteSize ≠ seedLength then throw (.seedLength text.utf8ByteSize)
  match ← checkedBytes text with
  | b₀ :: b₁ :: seed =>
    if b₀ &&& 248 ≠ seedMark then throw (.seedMark (text.toList.headD 'S'))
    else return ofSeed ((Role.ofByte? (((b₀ &&& 7) <<< 5) ||| (b₁ >>> 3))).getD .operator) seed
  | _ => throw .encoding

def ofPublicText (text : String) : Except Fault Pair := do
  if text.utf8ByteSize ≠ publicLength then throw (.publicLength text.utf8ByteSize)
  match ← checkedBytes text with
  | b :: publicKey =>
    match Role.ofByte? b with
    | none => throw (.typeByte b)
    | some role =>
      if (Curve.Point.decode? publicKey).isNone then throw .offCurve
      else return ⟨role, publicKey, none⟩
  | [] => throw .encoding

def sign (p : Pair) (message : List UInt8) : Except Fault (List UInt8) :=
  match p.seed? with
  | some seed => .ok (Curve.sign seed message)
  | none => .error .noSeed

/-- Whether a signature of a message is by this key. -/
def verifies (p : Pair) (message signature : List UInt8) : Bool :=
  Curve.verify p.publicKey message signature

def startsWith (text : String) (lead : Char) : Bool :=
  text.toList.head? == some lead

end Pair

/-- The letter that public texts of accounts start with. -/
def accountLead : Char := 'A'

def operatorLead : Char := 'O'

def userLead : Char := 'U'

/-- A well-formed public key whose text starts with the given letter. -/
def isPublicText (candidate : String) (lead : Char) : Bool :=
  candidate.utf8ByteSize == publicLength && Pair.startsWith candidate lead &&
    (Pair.ofPublicText candidate).isOk

end CredentialEngine.Key
