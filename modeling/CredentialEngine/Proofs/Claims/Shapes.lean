import CredentialEngine.Claims.Token
import CredentialEngine.Proofs.Json.Faithful

/-!
# The wire layout of claims loses nothing

Every part of a token's claims is read back from the JSON value that is written for it: fields that
are left out come back as what their absence means, and a sampling rate of zero comes back from its
name.
-/
namespace CredentialEngine

open Json

theorem SubjectRules.faithful : Faithful SubjectRules.toJson SubjectRules.ofJson? where
  read_write r := by
    unfold SubjectRules.toJson SubjectRules.ofJson?
    rw [bind_fields?_record (by decide) (by rfl)]
    simp only [List.map_cons, List.map_nil,
      ↓faithful_text.unlessEmpty.bind_put]
    rfl
  writable r := by
    refine isWritable_record ?_
    simp only [List.forall_mem_cons, List.not_mem_nil, false_implies, implies_true, and_true]
    exact ⟨faithful_text.unlessEmpty.writable r.allow, faithful_text.unlessEmpty.writable r.deny⟩
  ne_null _ := nofun

theorem Window.faithful : Faithful Window.toJson Window.ofJson? where
  read_write w := by
    unfold Window.toJson Window.ofJson?
    rw [bind_fields?_record (by decide) (by rfl)]
    rfl
  writable w := rfl
  ne_null _ := nofun

namespace Claims

theorem LimitSet.faithful : Faithful LimitSet.toJson LimitSet.ofJson? where
  read_write l := by
    unfold LimitSet.toJson LimitSet.ofJson?
    rw [bind_fields?_record (by decide) (by rfl)]
    simp only [List.map_cons, List.map_nil,
      ↓faithful_int64.required.bind_put, ↓faithful_bool.required.bind_put,
      ↓(faithful_int64.defaulted unlimited).bind_put, ↓(faithful_bool.defaulted false).bind_put]
    rfl
  writable l := by
    refine isWritable_record ?_
    simp only [List.forall_mem_cons, List.not_mem_nil, false_implies, implies_true, and_true,
      Option.mem_some_iff, forall_eq', faithful_int64.writable, faithful_bool.writable]
  ne_null _ := nofun

/-- A sampling rate is read back, zero from its name and any other from its number. -/
theorem faithful_sampling : Faithful samplingToJson asSampling where
  read_write n := by
    unfold samplingToJson
    split
    · rename_i hz
      subst hz
      decide
    · exact faithful_int64.read_write n
  writable n := by
    unfold samplingToJson
    split
    · rfl
    · exact faithful_int64.writable n
  ne_null n := by
    unfold samplingToJson
    split
    · nofun
    · exact faithful_int64.ne_null n

theorem LatencyClaim.faithful : Faithful LatencyClaim.toJson LatencyClaim.ofJson? where
  read_write l := by
    unfold LatencyClaim.toJson LatencyClaim.ofJson?
    rw [bind_fields?_record (by decide) (by rfl)]
    simp only [List.map_cons, List.map_nil,
      ↓faithful_sampling.required.bind_put, ↓faithful_text.required.bind_put]
    rfl
  writable l := by
    refine isWritable_record ?_
    simp only [List.forall_mem_cons, List.not_mem_nil, false_implies, implies_true, and_true,
      Option.mem_some_iff, forall_eq', faithful_sampling.writable, faithful_text.writable]
  ne_null _ := nofun

/-- A position that is left out when zero. -/
theorem faithful_position :
    FaithfulField (fun n : UInt32 => if n = 0 then none else some (ofNat n.toNat))
      (defaulted 0 asUInt32) where
  get_put n := by
    split
    · rename_i hz
      rw [hz]
      rfl
    · exact (faithful_uint32.defaulted 0).get_put n
  writable n v hv := by
    split at hv
    · contradiction
    · obtain rfl := Option.mem_some_iff.mp hv
      exact faithful_uint32.writable n

theorem ExportClaim.faithful : Faithful ExportClaim.toJson ExportClaim.ofJson? where
  read_write e := by
    unfold ExportClaim.toJson ExportClaim.ofJson?
    rw [bind_fields?_record (by decide) (by rfl)]
    simp only [List.map_cons, List.map_nil,
      ↓faithful_unlessBlank.bind_put, ↓faithful_text.required.bind_put, ↓faithful_whenSet.bind_put,
      ↓faithful_int64.unlessEmptyDict.bind_put, ↓faithful_text.optional.bind_put,
      ↓faithful_int64.optional.bind_put, ↓LatencyClaim.faithful.optional.bind_put,
      ↓faithful_position.bind_put]
    rfl
  writable e := by
    refine isWritable_record ?_
    simp only [List.forall_mem_cons, List.not_mem_nil, false_implies, implies_true, and_true]
    exact ⟨faithful_unlessBlank.writable e.name, faithful_text.required.writable e.subject,
      faithful_text.required.writable e.flow, faithful_whenSet.writable e.tokenRequired,
      faithful_int64.unlessEmptyDict.writable e.revocations,
      faithful_text.optional.writable e.replyKind,
      faithful_int64.optional.writable e.replyThreshold,
      LatencyClaim.faithful.optional.writable e.latency,
      faithful_position.writable e.accountTokenPosition, faithful_whenSet.writable e.advertise,
      faithful_whenSet.writable e.allowTrace⟩
  ne_null _ := nofun

theorem ImportClaim.faithful : Faithful ImportClaim.toJson ImportClaim.ofJson? where
  read_write i := by
    unfold ImportClaim.toJson ImportClaim.ofJson?
    rw [bind_fields?_record (by decide) (by rfl)]
    simp only [List.map_cons, List.map_nil,
      ↓faithful_unlessBlank.bind_put, ↓faithful_text.required.bind_put, ↓faithful_whenSet.bind_put]
    rfl
  writable i := by
    refine isWritable_record ?_
    simp only [List.forall_mem_cons, List.not_mem_nil, false_implies, implies_true, and_true]
    exact ⟨faithful_unlessBlank.writable i.name, faithful_text.required.writable i.subject,
      faithful_text.required.writable i.account, faithful_unlessBlank.writable i.token,
      faithful_unlessBlank.writable i.localSubject, faithful_text.required.writable i.flow,
      faithful_whenSet.writable i.share, faithful_whenSet.writable i.allowTrace⟩
  ne_null _ := nofun

theorem ReplyClaim.faithful : Faithful ReplyClaim.toJson ReplyClaim.ofJson? where
  read_write r := by
    unfold ReplyClaim.toJson ReplyClaim.ofJson?
    rw [bind_fields?_record (by decide) (by rfl)]
    simp only [List.map_cons, List.map_nil,
      ↓faithful_int64.required.bind_put, ↓(faithful_int64.defaulted 0).bind_put]
    rfl
  writable r := by
    refine isWritable_record ?_
    simp only [List.forall_mem_cons, List.not_mem_nil, false_implies, implies_true, and_true,
      Option.mem_some_iff, forall_eq', faithful_int64.writable]
  ne_null _ := nofun

theorem DefaultPermissions.faithful :
    Faithful DefaultPermissions.toJson DefaultPermissions.ofJson? where
  read_write p := by
    unfold DefaultPermissions.toJson DefaultPermissions.ofJson?
    rw [bind_fields?_record (by decide) (by rfl)]
    simp only [List.map_cons, List.map_nil,
      ↓(SubjectRules.faithful.defaulted {}).bind_put, ↓ReplyClaim.faithful.optional.bind_put]
    rfl
  writable p := by
    refine isWritable_record ?_
    simp only [List.forall_mem_cons, List.not_mem_nil, false_implies, implies_true, and_true]
    exact ⟨SubjectRules.faithful.required.writable p.publish,
      SubjectRules.faithful.required.writable p.subscribe,
      ReplyClaim.faithful.optional.writable p.reply⟩
  ne_null _ := nofun

theorem AccountBody.faithful : Faithful AccountBody.toJson AccountBody.ofJson? where
  read_write b := by
    unfold AccountBody.toJson AccountBody.ofJson?
    rw [bind_fields?_record (by decide) (by rfl)]
    simp only [List.map_cons, List.map_nil,
      ↓LimitSet.faithful.required.bind_put, ↓ExportClaim.faithful.unlessEmpty.bind_put,
      ↓ImportClaim.faithful.unlessEmpty.bind_put, ↓faithful_text.unlessEmpty.bind_put,
      ↓(DefaultPermissions.faithful.defaulted {}).bind_put, ↓faithful_text.required.bind_put,
      ↓faithful_uint8.required.bind_put]
    rfl
  writable b := by
    refine isWritable_record ?_
    simp only [List.forall_mem_cons, List.not_mem_nil, false_implies, implies_true, and_true]
    exact ⟨LimitSet.faithful.required.writable b.limits,
      ExportClaim.faithful.unlessEmpty.writable b.exports,
      ImportClaim.faithful.unlessEmpty.writable b.imports,
      faithful_text.unlessEmpty.writable b.signingKeys,
      DefaultPermissions.faithful.required.writable b.defaultPermissions,
      faithful_text.required.writable b.kind, faithful_uint8.required.writable b.version⟩
  ne_null _ := nofun

theorem UserBody.faithful : Faithful UserBody.toJson UserBody.ofJson? where
  read_write b := by
    unfold UserBody.toJson UserBody.ofJson?
    rw [bind_fields?_record (by decide) (by rfl)]
    simp only [List.map_cons, List.map_nil,
      ↓(SubjectRules.faithful.defaulted {}).bind_put, ↓ReplyClaim.faithful.optional.bind_put,
      ↓faithful_text.unlessEmpty.bind_put, ↓Window.faithful.unlessEmpty.bind_put,
      ↓faithful_unlessBlank.bind_put, ↓faithful_int64.required.bind_put,
      ↓faithful_text.required.bind_put, ↓faithful_uint8.required.bind_put]
    rfl
  writable b := by
    refine isWritable_record ?_
    simp only [List.forall_mem_cons, List.not_mem_nil, false_implies, implies_true, and_true]
    exact ⟨SubjectRules.faithful.required.writable b.publish,
      SubjectRules.faithful.required.writable b.subscribe,
      ReplyClaim.faithful.optional.writable b.reply, faithful_text.unlessEmpty.writable b.sources,
      Window.faithful.unlessEmpty.writable b.windows, faithful_unlessBlank.writable b.location,
      faithful_int64.required.writable b.subs, faithful_int64.required.writable b.data,
      faithful_int64.required.writable b.payload, faithful_unlessBlank.writable b.issuerAccount,
      faithful_text.required.writable b.kind, faithful_uint8.required.writable b.version⟩
  ne_null _ := nofun

theorem DeletionBody.faithful : Faithful DeletionBody.toJson DeletionBody.ofJson? where
  read_write b := by
    unfold DeletionBody.toJson DeletionBody.ofJson?
    rw [bind_fields?_record (by decide) (by rfl)]
    simp only [List.map_cons, List.map_nil,
      ↓faithful_text.list.required.bind_put, ↓faithful_text.required.bind_put,
      ↓faithful_uint8.required.bind_put]
    rfl
  writable b := by
    refine isWritable_record ?_
    simp only [List.forall_mem_cons, List.not_mem_nil, false_implies, implies_true, and_true]
    exact ⟨faithful_text.list.required.writable b.accounts,
      faithful_text.required.writable b.kind, faithful_uint8.required.writable b.version⟩
  ne_null _ := nofun

theorem Header.faithful : Faithful Header.toJson Header.ofJson? where
  read_write h := by
    unfold Header.toJson Header.ofJson?
    rw [bind_fields?_record (by decide) (by rfl)]
    rfl
  writable h := rfl
  ne_null _ := nofun

/-- Claims around a faithful body are read back with every registered claim. -/
theorem ClaimSet.faithful {β : Type} [Body β]
    (hb : Faithful (Body.toJson : β → Json) Body.ofJson?) :
    Faithful (ClaimSet.toJson : ClaimSet β → Json) ClaimSet.ofJson? where
  read_write c := by
    unfold ClaimSet.toJson ClaimSet.ofJson?
    rw [bind_fields?_record (by decide) (by rfl)]
    simp only [List.map_cons, List.map_nil,
      ↓(faithful_text.defaulted "").bind_put, ↓(faithful_int64.defaulted 0).bind_put,
      ↓faithful_unlessBlank.bind_put, ↓faithful_text.required.bind_put,
      ↓faithful_int64.optional.bind_put, ↓hb.required.bind_put]
    rfl
  writable c := by
    refine isWritable_record ?_
    simp only [List.forall_mem_cons, List.not_mem_nil, false_implies, implies_true, and_true]
    exact ⟨faithful_text.required.writable c.id, faithful_int64.required.writable c.issuedAt,
      faithful_text.required.writable c.issuer, faithful_unlessBlank.writable c.name,
      faithful_text.required.writable c.subject, faithful_int64.optional.writable c.expires,
      hb.required.writable c.body⟩
  ne_null _ := nofun

end Claims

end CredentialEngine
