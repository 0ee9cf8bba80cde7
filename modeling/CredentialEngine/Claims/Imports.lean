import CredentialEngine.Claims.Body
import CredentialEngine.Claims.Issue

/-!
# Imports

Imports are resolved to the public ids of the accounts that they name, and then checked against each
other: no two may be visible under one subject. Resolution records every failure and goes on; a
collision drops the whole set.
-/
namespace CredentialEngine.Claims

/-- What a look-up of an account by name can tell. -/
inductive Standing where
  | unknown
  /-- Known, but without an id. -/
  | notReady
  | issued (id : String)
  deriving DecidableEq, Repr

/-- A look-up of accounts by namespace and name. -/
abbrev Resolver := String → String → Standing

structure Resolution where
  imports : List ImportClaim := []
  issues : List Issue := []
  deriving DecidableEq, Repr

/-- The name under which issues speak of an import. -/
def importLabel (i : Import) : String :=
  if i.name.isEmpty then i.subject else i.name

/-- The public id of the account that an import names. A reference counts before an id. -/
def resolveSource (space : String) (resolver : Resolver) (i : Import) :
    Except Unresolved String :=
  match i.source with
  | some r =>
    let sourceSpace := r.space.getD space
    match resolver sourceSpace r.name with
    | .issued id => .ok id
    | .notReady => .error (.notReady sourceSpace r.name)
    | .unknown => .error (.unknown sourceSpace r.name)
  | none =>
    match i.account with
    | some id =>
      if Key.isPublicText id Key.accountLead then .ok id else .error (.noValidId (some id))
    | none => .error (.noValidId none)

def importClaim (i : Import) (account : String) : ImportClaim where
  name := i.name
  subject := i.subject
  account := account
  token := i.token.getD ""
  localSubject := i.localSubject.getD ""
  flow := i.flow.text
  share := i.share
  allowTrace := i.allowTrace

/-- Resolves every import of an account in a namespace. -/
def resolveImports (space : String) (resolver : Resolver) : List Import → Resolution
  | [] => {}
  | i :: is =>
    let rest := resolveImports space resolver is
    match resolveSource space resolver i with
    | .ok account => { rest with imports := importClaim i account :: rest.imports }
    | .error cause => { rest with issues := .unresolvedImport (importLabel i) cause :: rest.issues }

/-- The subjects under which two or more imports are visible, in ascending order. -/
def conflicts (imports : List ImportClaim) : List String :=
  let subjects := imports.map ImportClaim.effectiveSubject
  (Dict.ofList ((subjects.filter fun s => 1 < subjects.count s).map fun s => (s, ()))).keys

/-- The imports that remain, all or none, and the issues found. -/
def checkImports (imports : List ImportClaim) : List ImportClaim × List Issue :=
  match conflicts imports with
  | [] => (imports, [])
  | subjects => ([], subjects.map .conflictingSubject)

end CredentialEngine.Claims
