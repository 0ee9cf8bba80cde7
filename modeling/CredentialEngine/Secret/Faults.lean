import CredentialEngine.Secret.Filed

/-!
# Storage that fails on demand

A storage wrapped with faults: before an operation reaches it, the first fault that matches the
operation and its subject takes effect.
-/
namespace CredentialEngine.Secret

inductive Operation where
  | get
  | list
  | create
  | update
  | delete
  | deleteSelected
  deriving DecidableEq, Repr

def Operation.text : Operation → String
  | .get => "get"
  | .list => "list"
  | .create => "create"
  | .update => "update"
  | .delete => "delete"
  | .deleteSelected => "delete_by_labels"

inductive FaultMode where
  /-- Every time. -/
  | always
  /-- The first time only. -/
  | once
  /-- The operation dies. -/
  | crash
  deriving DecidableEq, Repr

/-- A fault of one operation on one subject, or on any. -/
structure PlannedFault where
  operation : Operation
  /-- A record's name, or a namespace for operations on many; an asterisk is any. -/
  subject : String
  mode : FaultMode
  deriving DecidableEq, Repr

/-- A storage with faults planned for it. -/
structure Faulty (σ : Type) where
  faults : List PlannedFault := []
  inner : σ

namespace Faulty

variable {σ : Type}

/-- Whether a fault concerns an operation on a subject. -/
def hits (f : PlannedFault) (op : Operation) (subject : String) : Bool :=
  f.operation == op && (f.subject == subject || f.subject == "*")

/-- The faults that are left once a fault has taken effect. -/
def used (faults : List PlannedFault) (f : PlannedFault) : List PlannedFault :=
  if f.mode = .once then faults.erase f else faults

/-- Runs an operation unless a fault keeps it from the storage. -/
def guarded {α : Type} (op : Operation) (subject : String) (act : Action σ α) :
    Action (Faulty σ) α := fun s =>
  match s.faults.find? fun f => hits f op subject with
  | some f =>
    let s := { s with faults := used s.faults f }
    if f.mode = .crash then .error .crashed s
    else
      .error (.failed (.store (.words
        ("injected " ++ op.text ++ " failure on " ++ subject) : Cause))) s
  | none => Action.onPart Faulty.inner (fun i s => { s with inner := i }) act s

instance [Storage σ] : Storage (Faulty σ) where
  get loc := guarded .get loc.name (Storage.get loc)
  list space selector := guarded .list space (Storage.list space selector)
  create r := guarded .create r.name (Storage.create r)
  update r := guarded .update r.name (Storage.update r)
  delete loc := guarded .delete loc.name (Storage.delete loc)
  deleteSelected space selector :=
    guarded .deleteSelected space (Storage.deleteSelected space selector)

instance [Filed σ] : Filed (Faulty σ) where
  files s := Filed.files s.inner
  setFiles t s := { s with inner := Filed.setFiles t s.inner }

end Faulty

end CredentialEngine.Secret
