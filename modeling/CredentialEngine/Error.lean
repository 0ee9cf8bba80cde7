import CredentialEngine.Claims.Issue
import CredentialEngine.Key.Bundle
import CredentialEngine.Secret.Location

/-!
# Errors

Each error is a kind with a cause. Callers may put what they were doing in front of the causes that
are free text; the other kinds carry their whole context already.
-/
namespace CredentialEngine

inductive FileFault where
  | missing
  | notADirectory
  | isADirectory
  | alreadyExists
  | nameTooLong
  | notText
  deriving DecidableEq, Repr

def FileFault.message : FileFault → String
  | .missing => "No such file or directory (os error 2)"
  | .notADirectory => "Not a directory (os error 20)"
  | .isADirectory => "Is a directory (os error 21)"
  | .alreadyExists => "File exists (os error 17)"
  | .nameTooLong => "File name too long (os error 36)"
  | .notText => "stream did not contain valid UTF-8"

/-- The causes behind the kinds of error that are explained in free text. -/
inductive Cause where
  /-- The words of another party. -/
  | words (text : String)
  | accountUnknown (space name : String)
  | accountNotReady (space name : String)
  | accountWithoutId (name : String)
  | nothingPublished (name id : String)
  | unknownCluster (account cluster : String)
  | roleAbsent (role space : String)
  | roleRepeated (role space : String) (count : Nat)
  | operatorSeedAbsent (location : Secret.Location)
  | bundleAbsent (location : Secret.Location)
  | seedAbsent (location : Secret.Location)
  | duplicateKeys (account : String) (roots signings : Nat)
  | invalidSeed (fault : Key.Fault)
  | foreignSeed (publicText : String) (lead : Char)
  | bundleDefect (defect : Key.Bundle.Defect)
  | secretExists (location : Secret.Location)
  | badSegment (segment : String)
  | corruptSecret (location : Secret.Location)
  | unreadableSecret (location : Secret.Location) (fault : FileFault)
  | file (fault : FileFault)
  | fixedNameLookup (account : String) (failures : List String)
  | lookupCrashed (location : Secret.Location)
  | unreadableManifest (path : String) (fault : FileFault)
  | malformedManifest (path : String)
  | malformedReply
  | unpresentableBundle
  | connectFailed (url : String) (reason : String)
  | requestFailed (subject : String) (reason : String)
  | replyNotText
  deriving DecidableEq, Repr

def Cause.message : Cause → String
  | .words text => text
  | .accountUnknown space name => "Account " ++ space ++ "/" ++ name ++ " not found"
  | .accountNotReady space name => "Account " ++ space ++ "/" ++ name ++ " is not ready"
  | .accountWithoutId name => "Account " ++ name ++ " has no resolved id"
  | .nothingPublished name id =>
    "Account " ++ name ++ " (" ++ id ++ ") has no claims published on the cluster"
  | .unknownCluster account cluster =>
    "Account " ++ account ++ " references unknown NATS cluster " ++ cluster
  | .roleAbsent role space =>
    "No secret labeled nauth.io/secret-type=" ++ role ++ " in namespace " ++ space
  | .roleRepeated role space count =>
    "Expected exactly one secret labeled nauth.io/secret-type=" ++ role ++ " in namespace " ++
      space ++ ", found " ++ Text.natText count
  | .operatorSeedAbsent loc => "Operator signing secret " ++ loc.text ++ " has no 'default' value"
  | .bundleAbsent loc => "System credentials secret " ++ loc.text ++ " has no 'user.creds' value"
  | .seedAbsent loc => "Secret " ++ loc.text ++ " has no 'default' value"
  | .duplicateKeys account roots signings =>
    "Account " ++ account ++ " has duplicate key secrets (" ++ Text.natText roots ++ " root, " ++
      Text.natText signings ++ " signing)"
  | .invalidSeed fault => "Invalid seed: " ++ fault.message
  | .foreignSeed publicText lead =>
    "Seed for " ++ publicText ++ " is not a '" ++ String.singleton lead ++ "' key"
  | .bundleDefect defect => defect.message
  | .secretExists loc => "Secret " ++ loc.text ++ " already exists"
  | .badSegment segment => "Invalid secret path segment " ++ Text.quoted segment
  | .corruptSecret loc => "Secret " ++ loc.text ++ " is corrupt: malformed record"
  | .unreadableSecret loc fault => "Failed to read " ++ loc.text ++ ": " ++ fault.message
  | .file fault => fault.message
  | .fixedNameLookup account failures =>
    "Legacy secret lookup for account " ++ account ++ " failed: " ++
      String.intercalate "; " failures
  | .lookupCrashed loc => "Lookup of secret " ++ loc.text ++ " panicked"
  | .unreadableManifest path fault => "Failed to read " ++ path ++ ": " ++ fault.message
  | .malformedManifest path => path ++ ": malformed resource"
  | .malformedReply => "Malformed control-plane reply: malformed JSON"
  | .unpresentableBundle =>
    "Invalid system credentials: cannot parse nkey from the credentials file"
  | .connectFailed url reason => "Failed to connect to " ++ url ++ ": " ++ reason
  | .requestFailed subject reason => "Request to " ++ subject ++ " failed: " ++ reason
  | .replyNotText => "Lookup reply is not UTF-8: invalid sequence"

/-- A cause with what was being done, outermost first. -/
structure Detail where
  during : List String
  cause : Cause
  deriving DecidableEq, Repr

instance : Coe Cause Detail := ⟨fun c => ⟨[], c⟩⟩

def Detail.message (d : Detail) : String :=
  d.during.foldr (fun what rest => what ++ ": " ++ rest) d.cause.message

def Detail.within (what : String) (d : Detail) : Detail :=
  { d with during := what :: d.during }

/-- Everything that can go wrong. -/
inductive Error where
  | configuration (detail : Detail)
  | precondition (detail : Detail)
  | secretNotFound (location : Secret.Location)
  | missingSecrets (account : String) (detail : String)
  | notManaged (location : Secret.Location)
  | keyMismatch (account expected actual : String)
  | claims (error : Claims.ClaimsError)
  | keys (detail : Detail)
  | store (detail : Detail)
  | cluster (detail : Detail)
  | notConnected
  | rejected (code : Int64) (message : String)
  | deleteGuard (account : String) (users : Nat)
  | timeout (operation : String)
  | internal (detail : Detail)
  deriving DecidableEq, Repr

namespace Error

def message : Error → String
  | .configuration d => "Configuration error: " ++ d.message
  | .precondition d => "Precondition failed: " ++ d.message
  | .secretNotFound loc => "Secret " ++ loc.text ++ " not found"
  | .missingSecrets account detail =>
    "Missing secret(s) for account " ++ account ++ ": " ++ detail
  | .notManaged loc => "Secret " ++ loc.text ++ " is not managed by nauth"
  | .keyMismatch account expected actual =>
    "Key mismatch for account " ++ account ++ ": expected " ++ expected ++ ", secret holds " ++
      actual
  | .claims e => e.message
  | .keys d => "Key error: " ++ d.message
  | .store d => "Secret store error: " ++ d.message
  | .cluster d => "NATS error: " ++ d.message
  | .notConnected => "NATS connection not established"
  | .rejected code message =>
    "Cluster rejected request (code " ++ Text.intText code.toInt ++ "): " ++ message
  | .deleteGuard account users =>
    "Account " ++ account ++ " still has " ++ Text.natText users ++ " user(s); refusing to delete"
  | .timeout operation => "Operation timed out: " ++ operation
  | .internal d => "Internal error: " ++ d.message

def isNotFound : Error → Bool
  | .secretNotFound _ => true
  | _ => false

/-- Says what was being done, where the kind is explained in free text. -/
def within (what : String) : Error → Error
  | .configuration d => .configuration (d.within what)
  | .precondition d => .precondition (d.within what)
  | .keys d => .keys (d.within what)
  | .store d => .store (d.within what)
  | .cluster d => .cluster (d.within what)
  | .internal d => .internal (d.within what)
  | e => e

end Error

end CredentialEngine
