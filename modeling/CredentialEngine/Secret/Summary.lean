import CredentialEngine.Key.Bundle
import CredentialEngine.Secret.Record
import CredentialEngine.Text.Quoted

/-!
# Summaries for logs

A record or a bundle is shown in logs by what identifies it. Values and seeds are left out.
-/
namespace CredentialEngine

open Text

def summaryOf (kind : String) (fields : List (String × String)) : String :=
  kind ++ " \x7b " ++ String.intercalate ", " (fields.map fun f => f.1 ++ ": " ++ f.2) ++ " \x7d"

namespace Secret

/-- The labels of a record as a log shows them. -/
def labelSummary (labels : Labels) : String :=
  let shown := labels.entries.map fun e => quoted e.1 ++ ": " ++ quoted e.2
  "\x7b" ++ String.intercalate ", " shown ++ "\x7d"

def ownerSummary : Option Owner → String
  | none => "None"
  | some o =>
    "Some(" ++ summaryOf "OwnerRef"
      [("kind", quoted o.kind), ("name", quoted o.name), ("uid", quoted o.uid)] ++ ")"

/-- A record without its values. -/
def Record.summary (r : Record) : String :=
  summaryOf "SecretRecord"
    [("namespace", quoted r.space), ("name", quoted r.name), ("labels", labelSummary r.labels),
      ("owner", ownerSummary r.owner),
      ("data", "[" ++ String.intercalate ", " (r.data.keys.map quoted) ++ "]")]

end Secret

/-- A bundle without its seed. -/
def Key.Bundle.summary (b : Key.Bundle) : String :=
  summaryOf "Credentials" [("jwt", quoted b.token), ("seed", quoted "<redacted>")]

end CredentialEngine
