import CredentialEngine.Json.Shape

/-!
# Limits of accounts and users

An unset limit is no limit.
-/
namespace CredentialEngine

open Json

/-- Limits on what an account may declare and hold open. -/
structure AccountLimits where
  imports : Option Int64 := none
  exports : Option Int64 := none
  wildcardExports : Option Bool := none
  conn : Option Int64 := none
  leaf : Option Int64 := none
  deriving DecidableEq, Repr, Inhabited

/-- Limits on traffic, for accounts and for users. -/
structure TrafficLimits where
  subs : Option Int64 := none
  data : Option Int64 := none
  payload : Option Int64 := none
  deriving DecidableEq, Repr, Inhabited

structure StreamLimits where
  memStorage : Option Int64 := none
  diskStorage : Option Int64 := none
  streams : Option Int64 := none
  consumer : Option Int64 := none
  maxAckPending : Option Int64 := none
  memMaxStreamBytes : Option Int64 := none
  diskMaxStreamBytes : Option Int64 := none
  maxBytesRequired : Option Bool := none
  deriving DecidableEq, Repr, Inhabited

def AccountLimits.toJson (l : AccountLimits) : Json :=
  record [("imports", l.imports.map ofInt64), ("exports", l.exports.map ofInt64),
    ("wildcardExports", l.wildcardExports.map .bool), ("conn", l.conn.map ofInt64),
    ("leaf", l.leaf.map ofInt64)]

def AccountLimits.ofJson? (j : Json) : Option AccountLimits := do
  match ← j.fields? ["imports", "exports", "wildcardExports", "conn", "leaf"] with
  | [imports, exports, wildcardExports, conn, leaf] =>
    return {
      imports := ← optional asInt64 imports
      exports := ← optional asInt64 exports
      wildcardExports := ← optional asBool wildcardExports
      conn := ← optional asInt64 conn
      leaf := ← optional asInt64 leaf }
  | _ => none

def TrafficLimits.toJson (l : TrafficLimits) : Json :=
  record [("subs", l.subs.map ofInt64), ("data", l.data.map ofInt64),
    ("payload", l.payload.map ofInt64)]

def TrafficLimits.ofJson? (j : Json) : Option TrafficLimits := do
  match ← j.fields? ["subs", "data", "payload"] with
  | [subs, data, payload] =>
    return {
      subs := ← optional asInt64 subs
      data := ← optional asInt64 data
      payload := ← optional asInt64 payload }
  | _ => none

def StreamLimits.toJson (l : StreamLimits) : Json :=
  record [("memStorage", l.memStorage.map ofInt64), ("diskStorage", l.diskStorage.map ofInt64),
    ("streams", l.streams.map ofInt64), ("consumer", l.consumer.map ofInt64),
    ("maxAckPending", l.maxAckPending.map ofInt64),
    ("memMaxStreamBytes", l.memMaxStreamBytes.map ofInt64),
    ("diskMaxStreamBytes", l.diskMaxStreamBytes.map ofInt64),
    ("maxBytesRequired", l.maxBytesRequired.map .bool)]

def StreamLimits.ofJson? (j : Json) : Option StreamLimits := do
  match ← j.fields? ["memStorage", "diskStorage", "streams", "consumer", "maxAckPending",
    "memMaxStreamBytes", "diskMaxStreamBytes", "maxBytesRequired"] with
  | [memStorage, diskStorage, streams, consumer, maxAckPending, memMaxStreamBytes,
      diskMaxStreamBytes, maxBytesRequired] =>
    return {
      memStorage := ← optional asInt64 memStorage
      diskStorage := ← optional asInt64 diskStorage
      streams := ← optional asInt64 streams
      consumer := ← optional asInt64 consumer
      maxAckPending := ← optional asInt64 maxAckPending
      memMaxStreamBytes := ← optional asInt64 memMaxStreamBytes
      diskMaxStreamBytes := ← optional asInt64 diskMaxStreamBytes
      maxBytesRequired := ← optional asBool maxBytesRequired }
  | _ => none

end CredentialEngine
