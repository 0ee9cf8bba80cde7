import CredentialEngine.Proofs.Lifecycle.Removal

/-!
# Keys are destroyed last

Revoking an account submits one request to delete it. Unless the cluster accepts the request, the
secrets stay as they were, whatever goes wrong on the way. Once it is accepted, exactly the records
of the account's namespace that carry the label of its id are removed.
-/
namespace CredentialEngine

open CredentialEngine.Action Cluster

/-! ## Requests that were answered -/

section Requests

variable {σ κ α : Type} {x : α} {call : Call} {act : Action κ α}

theorem Cluster.Recorded.of_noted_ok {c c' : Recorded κ} (h : noted call act c = .ok x c') :
    act c.inner = .ok x c'.inner ∧ c'.calls = c.calls ++ [call] := by
  rw [noted, onPart] at h
  cases hact : act c.inner with
  | ok y i =>
    simp only [hact] at h
    obtain ⟨rfl, rfl⟩ := EStateM.Result.ok.inj h
    exact ⟨rfl, rfl⟩
  | error e i =>
    simp only [hact] at h
    contradiction

/-- A request on a cluster was answered: a connection was made, the one call on it succeeded, and
the connection was given back. -/
structure Cluster.Recorded.Answered [Control κ] (credentials : String → Except Error Key.Bundle)
    (space : String) (call : Call) (act : Action κ α) (x : α) (c c' : Recorded κ) : Prop where
  calls : c'.calls = c.calls ++ [.connect space, call, .disconnect]
  answer : ∃ opened closing, Control.connect credentials space c.inner = .ok () opened ∧
    act opened = .ok x closing ∧ c'.inner = Control.disconnect closing

theorem World.answered_of_connected [Storage σ] [Control κ] {setting : Setting}
    {w w' : World σ (Recorded κ)} (h : connected setting (Recorded.noted call act) w = .ok x w') :
    w'.secrets = w.secrets ∧ Recorded.Answered (credentials w) setting.operatorSpace call act x
      w.cluster w'.cluster := by
  obtain ⟨opened, closing, hconnect, hact, rfl⟩ := of_connected_ok h
  obtain ⟨hopened, hcalls⟩ := Recorded.of_noted_ok hconnect
  obtain ⟨hclosing, hcalls'⟩ := Recorded.of_noted_ok hact
  refine ⟨rfl, ?_, opened.inner, closing.inner, hopened, hclosing, rfl⟩
  change closing.calls ++ [.disconnect] = _
  rw [hcalls', hcalls, List.append_assoc, List.append_assoc]
  rfl

end Requests

namespace Lifecycle

open Secret Keyring

/-! ## The request -/

/-- A token asks to delete one account, in the name of the operator. -/
def AsksDeletion (operator : Key.Pair) (id token : String) : Prop :=
  ∃ claims : Claims.ClaimSet Claims.DeletionBody, Claims.decode token = .ok claims ∧
    claims.body = { accounts := [id] } ∧ claims.issuer = operator.publicText ∧
    claims.subject = operator.publicText

/-- What the operator's key signs as a request is read as one, if the key accepts its signature. -/
theorem asksDeletion_of_encode {t t' : Table} {space id token : String} {now : Int}
    {operator : Key.Pair} (hoperator : operatorKey space t = .ok operator t')
    (haccepts : Claims.Accepted now operator (deletionClaims operator id))
    (hencode : Claims.encode now operator (deletionClaims operator id) = .ok token) :
    AsksDeletion operator id token := by
  obtain ⟨-, r, hholds⟩ :=
    (Lawful.ends_operatorKey (show Shows t t from rfl) space).returned hoperator
  obtain ⟨text, -, hseed⟩ := hholds.holds
  obtain ⟨role, seed, rfl⟩ := Lawful.exists_ofSeed_of_keyOfSeedFor hseed
  obtain ⟨signature, hencode', hdecode⟩ :=
    Claims.encode_ok_decode Claims.DeletionBody.faithful haccepts
  obtain rfl := Except.ok.inj (hencode'.symm.trans hencode)
  exact ⟨_, hdecode, rfl, rfl, rfl⟩

/-! ## Revoking -/

variable {κ : Type} [Control κ]

/-- What revoking an account with an id has done: the operator's request was submitted once and
accepted, and the labelled records of the account are gone. -/
structure Revoked (setting : Setting) (a : Account) (id : String)
    (w w' : World Table (Recorded κ)) : Prop where
  request : ∃ operator token,
    operatorKey setting.operatorSpace w.secrets = .ok operator w.secrets ∧
    Recorded.Answered (World.credentials w) setting.operatorSpace (.delete token)
      (Control.delete token) () w.cluster w'.cluster ∧
    (Claims.Accepted setting.now operator (deletionClaims operator id) →
      AsksDeletion operator id token)
  records : w'.secrets.records = w.secrets.records.filter fun r =>
    ¬ (r.space = a.metadata.space ∧ r.labels.get? Label.accountId = some id)

theorem records_withoutLabelled (t : Table) (space id : String) :
    (withoutLabelled t space id).records = t.records.filter fun r =>
      ¬ (r.space = space ∧ r.labels.get? Label.accountId = some id) := by
  refine List.filter_congr fun r _ => ?_
  rw [Bool.eq_iff_iff, decide_eq_true_eq, Bool.not_eq_true', ← Bool.not_eq_true, Bool.and_eq_true,
    beq_iff_eq, selectedBy_label]

/-- Whatever happens on the way, the keys of an account that is revoked are destroyed only after the
cluster accepted the request to delete it. If revoking does not succeed, no secret has changed. If
it does, one request was submitted and accepted, and exactly the records of the account's namespace
with its id are gone. For an account without an id nothing is done. -/
theorem revokeAccount_destroys_last (setting : Setting) (a : Account)
    (w : World Table (Recorded κ)) :
    (a.id? = none → revokeAccount setting a w = .ok () w) ∧
    ∀ id, a.id? = some id →
      Ends (revokeAccount setting a) (fun _ w' => Revoked setting a id w w')
        (fun w' => w'.secrets = w.secrets) w := by
  constructor
  · intro hid
    unfold revokeAccount
    rw [hid]
    rfl
  · intro id hid
    unfold revokeAccount
    rw [hid]
    refine ends_bind (World.ends_onSecrets (ends_operatorKey.andReturned.mono
      (fun operator t ht => ?_) fun _ ht => ht))
    obtain ⟨rfl, hoperator⟩ := ht
    refine ends_bind (ends_ofClaims (fun token hencode => ?_) rfl)
    have hconnected : Ends (World.connected setting (Control.delete token)) (fun _ _ => True)
        (fun w' : World Table (Recorded κ) => w'.secrets = w.secrets) w :=
      World.ends_connected (fun _ _ => trivial) fun _ => rfl
    refine ends_bind (ends_within (hconnected.andReturned.mono (fun _ w₁ h => ?_) fun _ h => h))
    obtain ⟨hsecrets, hanswered⟩ := World.answered_of_connected h.2
    refine ends_bind (ends_attempt (World.ends_onSecrets ?_))
    refine ends_ok (Table.deleteSelected_eq a.metadata.space _ w₁.secrets) (ends_pure ?_)
    refine ⟨⟨operator, token, hoperator, hanswered,
      fun haccepts => asksDeletion_of_encode hoperator haccepts hencode⟩, ?_⟩
    rw [hsecrets]
    exact records_withoutLabelled w.secrets a.metadata.space id

theorem accepted_deletion_orders : Claims.Accepted 0 shopOperator
    (deletionClaims shopOperator ordersKeys.accountId) := by
  rw [accountId_orders]
  exact Claims.accepted_of_worked (by decide +kernel)

/-- The shop with its labelled keys, and a cluster that notes its calls and agrees to them. -/
def notedOrders : World Table (Recorded Agreeing) where
  secrets := labelledShop
  cluster := { inner := {} }

/-- The shop's account is revoked: one request that asks to delete it was accepted, and of all
records only those of other namespaces are left. -/
theorem revoked_orders : ∃ w' token,
    revokeAccount shopSetting issuedOrders notedOrders = .ok () w' ∧
    w'.cluster.calls = [.connect "nauth", .delete token, .disconnect] ∧
    AsksDeletion shopOperator ordersKeys.accountId token ∧
    ∀ r, r ∈ w'.secrets.records ↔ r ∈ labelledShop.records ∧ r.space ≠ "shop" := by
  have hread : operatorKey "nauth" labelledShop = .ok shopOperator labelledShop :=
    operatorKey_of_shop rfl rfl
  have hworld : World.onSecrets (operatorKey "nauth") notedOrders =
      .ok shopOperator notedOrders := by
    have hsecrets : notedOrders.secrets = labelledShop := rfl
    rw [World.onSecrets, onPart, hsecrets, hread]
    rfl
  obtain ⟨w', hrevoke⟩ : ∃ w', revokeAccount shopSetting issuedOrders notedOrders = .ok () w' :=
    ⟨_, (bind_of_ok hworld).trans rfl⟩
  have hrevoked := ((revokeAccount_destroys_last shopSetting issuedOrders notedOrders).2 _
    id?_issuedOrders).returned hrevoke
  obtain ⟨operator, token, hoperator, hanswered, hasks⟩ := hrevoked.request
  obtain rfl : shopOperator = operator :=
    (EStateM.Result.ok.inj (hread.symm.trans hoperator)).1
  refine ⟨w', token, hrevoke, hanswered.calls, hasks accepted_deletion_orders, fun r => ?_⟩
  rw [hrevoked.records, List.mem_filter, decide_eq_true_eq]
  refine and_congr_right fun hr => ⟨fun hkept hspace => ?_, fun hspace h => hspace h.1⟩
  exact hkept ⟨hspace, id_of_mem_labelledShop hr hspace⟩

end Lifecycle

end CredentialEngine
