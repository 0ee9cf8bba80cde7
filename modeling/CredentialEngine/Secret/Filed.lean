import CredentialEngine.Secret.Folder

/-!
# Storages among files

Manifests are kept in files. A folder keeps its records in the same tree; any other storage has a
tree beside it.
-/
namespace CredentialEngine

/-- A storage with a tree of files, which may hold its records as well. -/
class Filed (σ : Type) where
  files : σ → FileTree
  setFiles : FileTree → σ → σ

instance : Filed Secret.Folder where
  files s := s.files
  setFiles t s := { s with files := t }

namespace Secret

/-- A storage with a tree of files that it does not touch. -/
structure Beside (σ : Type) where
  secrets : σ
  files : FileTree := {}

namespace Beside

variable {σ : Type}

def onSecrets {α : Type} (act : Action σ α) : Action (Beside σ) α :=
  Action.onPart Beside.secrets (fun s b => { b with secrets := s }) act

instance [Storage σ] : Storage (Beside σ) where
  get loc := onSecrets (Storage.get loc)
  list space selector := onSecrets (Storage.list space selector)
  create r := onSecrets (Storage.create r)
  update r := onSecrets (Storage.update r)
  delete loc := onSecrets (Storage.delete loc)
  deleteSelected space selector := onSecrets (Storage.deleteSelected space selector)

instance : Filed (Beside σ) where
  files b := b.files
  setFiles t b := { b with files := t }

end Beside

end Secret

end CredentialEngine
