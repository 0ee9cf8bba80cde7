import CredentialEngine.Error
import CredentialEngine.Json.Reader
import CredentialEngine.Json.Shape

/-!
# Requests to the cluster and its replies

Claims are published and revoked by requests to fixed subjects, which the cluster answers with a
small JSON document: data when it accepts, an error when it refuses.
-/
namespace CredentialEngine.Cluster

open Json

def updateSubject : String := "$SYS.REQ.CLAIMS.UPDATE"

def deleteSubject : String := "$SYS.REQ.CLAIMS.DELETE"

/-- The subject on which the claims of one account are asked for. -/
def lookupSubject (accountId : String) : String :=
  "$SYS.REQ.ACCOUNT." ++ accountId ++ ".CLAIMS.LOOKUP"

def acceptedCode : Int64 := 200

/-- What a reply says about a request that was dealt with. -/
structure ReplyData where
  code : Int64 := 0
  message : String := ""
  account : Option String := none
  deriving DecidableEq, Repr

/-- What a reply says about a refused request. -/
structure ReplyError where
  code : Int64 := 0
  description : String := ""
  deriving DecidableEq, Repr

/-- A reply to a request to publish or revoke. -/
structure Reply where
  data : Option ReplyData := none
  error : Option ReplyError := none
  deriving DecidableEq, Repr

namespace ReplyData

def toJson (d : ReplyData) : Json :=
  record [("code", some (ofInt64 d.code)), ("message", some (.str d.message)),
    ("account", d.account.map .str)]

def ofJson? (j : Json) : Option ReplyData := do
  match ← j.fields? ["code", "message", "account"] with
  | [code, message, account] =>
    return ⟨← defaulted 0 asInt64 code, ← defaulted "" asText message, ← optional asText account⟩
  | _ => none

end ReplyData

namespace ReplyError

def toJson (e : ReplyError) : Json :=
  record [("code", some (ofInt64 e.code)), ("description", some (.str e.description))]

def ofJson? (j : Json) : Option ReplyError := do
  match ← j.fields? ["code", "description"] with
  | [code, description] => return ⟨← defaulted 0 asInt64 code, ← defaulted "" asText description⟩
  | _ => none

end ReplyError

namespace Reply

def toJson (r : Reply) : Json :=
  record [("data", r.data.map ReplyData.toJson), ("error", r.error.map ReplyError.toJson)]

def ofJson? (j : Json) : Option Reply := do
  match ← j.fields? ["data", "error"] with
  | [data, error] =>
    return ⟨← optional ReplyData.ofJson? data, ← optional ReplyError.ofJson? error⟩
  | _ => none

def parse (payload : List UInt8) : Except Error Reply :=
  match (Json.ofBytes? payload).bind ofJson? with
  | some r => .ok r
  | none => .error (.cluster (.malformedReply : Cause))

/-- The data of an accepted request. An error counts before data, and a reply with neither is a
refusal. -/
def outcome (r : Reply) : Except Error ReplyData :=
  match r.error, r.data with
  | some e, _ => .error (.rejected e.code e.description)
  | none, some d => if d.code = acceptedCode then .ok d else .error (.rejected d.code d.message)
  | none, none => .error (.rejected 0 "empty reply")

end Reply

end CredentialEngine.Cluster
