import CredentialEngine.Key.Pair
import CredentialEngine.Text.Quoted

/-!
# What can be wrong with claims

A build collects every issue it finds and fails as a whole. Decoding stops at its first fault.
-/
namespace CredentialEngine.Claims

/-- Why the account that an import names has no public id. -/
inductive Unresolved where
  | unknown (space name : String)
  | notReady (space name : String)
  /-- No reference, and the id given directly is missing or no account key. -/
  | noValidId (given : Option String)
  deriving DecidableEq, Repr

namespace Unresolved

def account : Unresolved → String
  | .unknown space name => space ++ "/" ++ name
  | .notReady space name => space ++ "/" ++ name
  | .noValidId given => given.getD "<none>"

def reason : Unresolved → String
  | .unknown space name => "Precondition failed: Account " ++ space ++ "/" ++ name ++ " not found"
  | .notReady space name =>
    "Precondition failed: Account " ++ space ++ "/" ++ name ++ " is not ready"
  | .noValidId _ => "no accountRef and no valid account id"

end Unresolved

/-- One thing wrong with a specification. -/
inductive Issue where
  | unresolvedImport (label : String) (cause : Unresolved)
  /-- Two or more imports are visible under this subject. -/
  | conflictingSubject (subject : String)
  | invalidSource (network : String)
  | invalidWindow (start stop : String)
  deriving DecidableEq, Repr

def Issue.message : Issue → String
  | .unresolvedImport label cause =>
    "import " ++ Text.quoted label ++ " references unresolved account " ++ cause.account ++ ": " ++
      cause.reason
  | .conflictingSubject subject => "conflicting import subject " ++ Text.quoted subject
  | .invalidSource network => "invalid source network " ++ Text.quoted network
  | .invalidWindow start stop =>
    "invalid time range " ++ Text.quoted start ++ "-" ++ Text.quoted stop

inductive DecodeFault where
  | segments
  | segmentEncoding
  /-- A segment is not JSON of the expected shape. -/
  | shape
  | algorithm (name : String)
  | signatureEncoding
  | issuer (text : String) (fault : Key.Fault)
  | signature (key : String)
  /-- The body is of another type than an account's. -/
  | bodyType (name : String)
  deriving DecidableEq, Repr

def DecodeFault.message : DecodeFault → String
  | .segments => "expected three JWT segments"
  | .segmentEncoding => "bad base64 segment: not unpadded base64url"
  | .shape => "malformed JSON"
  | .algorithm name => "unsupported algorithm " ++ name
  | .signatureEncoding => "bad signature encoding: not unpadded base64url"
  | .issuer text fault => "bad issuer " ++ text ++ ": " ++ fault.message
  | .signature key => "signature does not match issuer " ++ key
  | .bodyType name => "expected account claims, got " ++ Text.quoted name

/-- Why claims cannot be turned into a token. -/
inductive EncodeFault where
  | signing (fault : Key.Fault)
  /-- The words of another party. -/
  | words (text : String)
  deriving DecidableEq, Repr

def EncodeFault.message : EncodeFault → String
  | .signing fault => "signing failed: " ++ fault.message
  | .words text => text

inductive ClaimsError where
  | invalid (issues : List Issue)
  | encoding (fault : EncodeFault)
  | decoding (fault : DecodeFault)
  deriving DecidableEq, Repr

def ClaimsError.message : ClaimsError → String
  | .invalid issues => "invalid claims: " ++ String.intercalate "; " (issues.map Issue.message)
  | .encoding fault => "failed to encode claims: " ++ fault.message
  | .decoding fault => "failed to decode claims: " ++ fault.message

end CredentialEngine.Claims
