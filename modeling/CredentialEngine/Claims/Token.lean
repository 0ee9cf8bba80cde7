import CredentialEngine.Claims.Body
import CredentialEngine.Claims.Issue
import CredentialEngine.Json.Reader
import CredentialEngine.Json.Writer
import CredentialEngine.Text.Parts

/-!
# Tokens

A token is three segments joined by dots: a header, the claims, and a signature over the first two
by the issuer that the claims name. Signing stamps issuer, time and id; the id is the hash of the
claims as they are without one.
-/
namespace CredentialEngine.Claims

open Json

/-- The algorithm that headers name. -/
def algorithm : String := "ed25519-nkey"

/-- The name of the algorithm in older tokens. -/
def olderAlgorithm : String := "ed25519"

structure Header where
  kind : String
  algorithm : String
  deriving DecidableEq, Repr

namespace Header

def toJson (h : Header) : Json :=
  record [("typ", some (.str h.kind)), ("alg", some (.str h.algorithm))]

def ofJson? (j : Json) : Option Header := do
  match ← j.fields? ["typ", "alg"] with
  | [kind, algorithm] => return ⟨← required asText kind, ← required asText algorithm⟩
  | _ => none

end Header

def segment (bytes : List UInt8) : List Char :=
  Encoding.Radix.base64url.encode bytes

def jsonSegment (j : Json) : List Char :=
  segment (Key.textBytes j.compact)

variable {β : Type} [Body β]

/-- The id of claims: the hash of their text with an empty id. -/
def claimsId (c : ClaimSet β) : String :=
  let text := ({ c with id := "" } : ClaimSet β).toJson.compact
  String.ofList (Encoding.Radix.base32.encode (Digest.sha512to256 (Key.textBytes text)))

/-- The claims as they are signed: with issuer, time of issue and id. -/
def stamped (now : Int) (signer : Key.Pair) (c : ClaimSet β) : ClaimSet β :=
  let c := { c with issuer := signer.publicText, issuedAt := Int64.ofInt now }
  { c with id := claimsId c }

def signingInput (c : ClaimSet β) : List Char :=
  jsonSegment (Header.toJson ⟨"JWT", algorithm⟩) ++ '.' :: jsonSegment c.toJson

def encode (now : Int) (signer : Key.Pair) (c : ClaimSet β) : Except ClaimsError String :=
  let input := signingInput (stamped now signer c)
  match signer.sign (Key.textBytes (String.ofList input)) with
  | .ok signature => .ok (String.ofList (input ++ '.' :: segment signature))
  | .error fault => .error (.encoding (.signing fault))

def segmentJson (cs : List Char) : Except DecodeFault Json :=
  match Encoding.Radix.base64url.decode? cs with
  | none => .error .segmentEncoding
  | some bytes =>
    match Json.ofBytes? bytes with
    | some j => .ok j
    | none => .error .shape

def readSegment {α : Type} (read : Json → Option α) (cs : List Char) : Except DecodeFault α :=
  match segmentJson cs with
  | .error fault => .error fault
  | .ok j =>
    match read j with
    | some v => .ok v
    | none => .error .shape

/-- Reads a token and checks its signature against the issuer that it names. -/
def decode (token : String) : Except DecodeFault (ClaimSet β) := do
  let chars := Text.trimChars token.toList
  match Text.parts '.' chars with
  | [header, payload, signature] =>
    let h ← readSegment Header.ofJson? header
    if h.algorithm ≠ algorithm ∧ h.algorithm ≠ olderAlgorithm then
      throw (.algorithm h.algorithm)
    let claims ← readSegment ClaimSet.ofJson? payload
    let some signature := Encoding.Radix.base64url.decode? signature
      | throw .signatureEncoding
    match Key.Pair.ofPublicText claims.issuer with
    | .error fault => throw (.issuer claims.issuer fault)
    | .ok issuer =>
      let input := Text.beforeLast '.' chars
      if issuer.verifies (Key.textBytes (String.ofList input)) signature then return claims
      else throw (.signature claims.issuer)
  | _ => throw .segments

end CredentialEngine.Claims
