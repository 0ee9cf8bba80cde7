import CredentialEngine.Proofs.Json.Faithful
import CredentialEngine.Proofs.Json.Reading
import CredentialEngine.Secret.Record

/-!
# The document of a record

A record is read back from its document, whatever its labels, owner and values are.
-/
namespace CredentialEngine

open Json

theorem Owner.faithful : Faithful Owner.toJson Owner.ofJson? where
  read_write o := by
    unfold Owner.toJson Owner.ofJson?
    rw [bind_fields?_record (by decide) (by rfl)]
    rfl
  writable o := rfl
  ne_null _ := nofun

namespace Secret.Record

theorem faithful : Faithful toJson ofJson? where
  read_write r := by
    unfold toJson ofJson?
    rw [bind_fields?_record (by decide) (by rfl)]
    simp only [List.map_cons, List.map_nil,
      ↓faithful_text.required.bind_put, ↓(faithful_text.dict.defaulted .empty).bind_put,
      ↓Owner.faithful.optional.bind_put]
    rfl
  writable r := by
    refine isWritable_record ?_
    simp only [List.forall_mem_cons, List.not_mem_nil, false_implies, implies_true, and_true]
    exact ⟨faithful_text.required.writable r.space, faithful_text.required.writable r.name,
      faithful_text.dict.required.writable r.labels, Owner.faithful.optional.writable r.owner,
      faithful_text.dict.required.writable r.data⟩
  ne_null _ := nofun

/-- The bytes of a record's document. -/
def document (r : Record) : List UInt8 :=
  Key.textBytes r.toJson.pretty

theorem ofJson?_document (r : Record) :
    (Json.ofBytes? r.document).bind ofJson? = some r := by
  rw [document, ofBytes?_pretty (faithful.writable r), Option.bind_some, faithful.read_write]

end Secret.Record

end CredentialEngine
