import CredentialEngine.Proofs.Cluster.Transcript

/-!
# Work on a cluster comes in brackets

An operation on an account opens one connection at most, makes one request on it if that succeeds,
and gives it back, whatever the storage and the cluster do. So the transcript of any run of such
operations is a sequence of brackets, as long as every call gets some answer; where one gets none,
the run ends in the bracket of that call.
-/
namespace CredentialEngine.Lifecycle

open CredentialEngine.Action Cluster

/-! ## Operations -/

/-- What is done with accounts on a cluster. -/
inductive Operation where
  | issue (resolver : Claims.Resolver) (a : Account)
  | reissue (resolver : Claims.Resolver) (a : Account)
  | observe (a : Account)
  | revoke (a : Account)
  | lookUp (id : String)

namespace Operation

/-- The request that an operation makes. -/
def asks : Operation → Call → Prop
  | issue _ _, call => ∃ token, call = .upload token
  | reissue _ _, call => ∃ token, call = .upload token
  | observe a, call => ∃ id, a.id? = some id ∧ call = .lookup id
  | revoke _, call => ∃ token, call = .delete token
  | lookUp id, call => call = .lookup id

/-- What the cluster answers is read afterwards, and may be refused. -/
def reads : Operation → Prop
  | observe _ => True
  | lookUp _ => True
  | _ => False

/-- There is nothing to be done on the cluster. -/
def isIdle : Operation → Prop
  | revoke a => a.id? = none
  | _ => False

variable {σ κ : Type} [Storage σ] [Control κ]

def perform (setting : Setting) : Operation → Action (World σ κ) Unit
  | issue resolver a => do let _ ← issueAccount setting resolver a
  | reissue resolver a => do let _ ← reissueAccount setting resolver a
  | observe a => do let _ ← observeAccount setting a
  | revoke a => revokeAccount setting a
  | lookUp id => do let _ ← publishedClaims setting id

/-- Performs operations one after another, whatever becomes of each, and returns the errors in which
they have failed. -/
def performAll : List (Setting × Operation) → Action (World σ κ) (List (Option Error))
  | [] => return []
  | (setting, op) :: rest => do
    let outcome ← attempt (op.perform setting)
    let failures ← performAll rest
    return failure? outcome :: failures

/-! ## Brackets of operations -/

/-- What an operation that has come to an end leaves in the transcript. -/
inductive Worked (setting : Setting) (op : Operation) : Option Error → List Exchange → Prop
  /-- No call was made: the operation has failed before, or there was nothing to do. -/
  | quiet {failure? : Option Error} (h : failure? = none → op.isIdle) :
      Worked setting op failure? []
  /-- Connecting or the request has failed, and the operation with it. -/
  | refused {e e' : Error} {made : List Exchange}
      (hbracket : Bracket setting.operatorSpace op.asks (some e) made) (hpassed : Passed e e') :
      Worked setting op (some e') made
  | served {failure? : Option Error} {made : List Exchange}
      (hbracket : Bracket setting.operatorSpace op.asks none made)
      (h : failure? = none ∨ op.reads) : Worked setting op failure? made

/-- What an operation leaves in the transcript that does not come to an end. -/
inductive Broken (setting : Setting) (op : Operation) : List Exchange → Prop
  | before : Broken setting op []
  | during {made : List Exchange} (hcut : Cut setting.operatorSpace op.asks made) :
      Broken setting op made
  | after {failure? : Option Error} {made : List Exchange}
      (hbracket : Bracket setting.operatorSpace op.asks failure? made) : Broken setting op made

/-- The transcript of operations that have all come to an end, with their failures. -/
inductive Transcript : List (Setting × Operation) → List (Option Error) → List Exchange → Prop
  | nil : Transcript [] [] []
  | cons {setting : Setting} {op : Operation} {rest : List (Setting × Operation)}
      {failure? : Option Error} {failures : List (Option Error)} {made more : List Exchange}
      (h : Worked setting op failure? made) (hrest : Transcript rest failures more) :
      Transcript ((setting, op) :: rest) (failure? :: failures) (made ++ more)

/-- The transcript of operations one of which does not come to an end. -/
inductive CutOff : List (Setting × Operation) → List Exchange → Prop
  | here {setting : Setting} {op : Operation} {rest : List (Setting × Operation)}
      {made : List Exchange} (h : Broken setting op made) : CutOff ((setting, op) :: rest) made
  | later {setting : Setting} {op : Operation} {rest : List (Setting × Operation)}
      {failure? : Option Error} {made more : List Exchange} (h : Worked setting op failure? made)
      (hrest : CutOff rest more) : CutOff ((setting, op) :: rest) (made ++ more)

/-! ## One operation -/

section Steps

variable {α β : Type} {setting : Setting} {op : Operation} {before : List Exchange}
  {w : World σ (Transcribed κ)}

/-- From a state on, an operation leaves in the transcript what it should, given what was in it when
the operation started. -/
def Brackets (setting : Setting) (op : Operation) (before : List Exchange)
    (act : Action (World σ (Transcribed κ)) α) (w : World σ (Transcribed κ)) : Prop :=
  Ends (attempt act)
    (fun outcome w' => ∃ made, w'.cluster.exchanges = before ++ made ∧
      Worked setting op (failure? outcome) made)
    (fun w' => ∃ made, w'.cluster.exchanges = before ++ made ∧ Broken setting op made) w

omit [Storage σ] [Control κ] in
/-- Before the connection is opened, work off the cluster may fail or get stuck. -/
theorem brackets_quiet {act : Action (World σ (Transcribed κ)) α}
    {k : α → Action (World σ (Transcribed κ)) β}
    (h : Ends act (fun a w' => Brackets setting op before (k a) w')
      (fun w' => w'.cluster.exchanges = before) w) : Brackets setting op before (act >>= k) w := by
  refine ends_attempt_bind_of (h.mono (fun _ _ hk => hk) fun w' hw' => ?_)
  have hsame : w'.cluster.exchanges = before ++ [] := by rw [hw', List.append_nil]
  exact ⟨fun e => ⟨[], hsame, .quiet nofun⟩, [], hsame, .before⟩

/-- How a request has ended: with the bracket of one that was served, or with an error that tells of
the one in its bracket. -/
def Asked (setting : Setting) (op : Operation) (before : List Exchange) (outcome : Except Error α)
    (w : World σ (Transcribed κ)) : Prop :=
  ∃ made, w.cluster.exchanges = before ++ made ∧ match outcome with
    | .ok _ => Bracket setting.operatorSpace op.asks none made
    | .error e' => ∃ e, Bracket setting.operatorSpace op.asks (some e) made ∧ Passed e e'

/-- A request was cut short. -/
def Unanswered (setting : Setting) (op : Operation) (before : List Exchange)
    (w : World σ (Transcribed κ)) : Prop :=
  ∃ made, w.cluster.exchanges = before ++ made ∧ Cut setting.operatorSpace op.asks made

theorem ends_connected_asked {call : Call} {act : Action κ α} (hw : w.cluster.exchanges = before)
    (hcall : op.asks call) :
    Ends (attempt (World.connected setting (Transcribed.exchanged call act)))
      (Asked setting op before) (Unanswered setting op before) w := by
  subst hw
  refine (World.ends_connected_bracket hcall).mono ?_ fun _ hcut => hcut
  rintro (e | x) w' ⟨made, hw', hbracket⟩
  · exact ⟨made, hw', e, hbracket, passed_self e⟩
  · exact ⟨made, hw', hbracket⟩

theorem ends_connected_asked_within {call : Call} {act : Action κ α} {what : String}
    (hw : w.cluster.exchanges = before) (hcall : op.asks call) :
    Ends (attempt (within what (World.connected setting (Transcribed.exchanged call act))))
      (Asked setting op before) (Unanswered setting op before) w := by
  subst hw
  refine ends_attempt_within ((World.ends_connected_bracket hcall).mono ?_ fun _ hcut => hcut)
  rintro (e | x) w' ⟨made, hw', hbracket⟩
  · exact ⟨made, hw', e, hbracket, passed_within what e⟩
  · exact ⟨made, hw', hbracket⟩

omit [Storage σ] [Control κ] in
/-- The operation goes on from a request that was served, and otherwise fails with it. -/
theorem brackets_request {act : Action (World σ (Transcribed κ)) α}
    {k : α → Action (World σ (Transcribed κ)) β}
    (h : Ends (attempt act) (Asked setting op before) (Unanswered setting op before) w)
    (hk : ∀ x w' made, Bracket setting.operatorSpace op.asks none made →
      w'.cluster.exchanges = before ++ made → Brackets setting op before (k x) w') :
    Brackets setting op before (act >>= k) w := by
  refine ends_attempt_bind (h.mono ?_ ?_)
  · rintro (e' | x) w' ⟨made, hw', hanswer⟩
    · obtain ⟨e, hbracket, hpassed⟩ := hanswer
      exact ⟨made, hw', .refused hbracket hpassed⟩
    · exact hk x w' made hanswer hw'
  · rintro w' ⟨made, hw', hcut⟩
    exact ⟨made, hw', .during hcut⟩

omit [Storage σ] [Control κ] in
theorem brackets_done {x : α} {made : List Exchange}
    (hbracket : Bracket setting.operatorSpace op.asks none made)
    (hw : w.cluster.exchanges = before ++ made) :
    Brackets setting op before (pure x : Action (World σ (Transcribed κ)) α) w :=
  ⟨made, hw, .served hbracket (.inl rfl)⟩

omit [Storage σ] [Control κ] in
/-- What was answered is read and may be refused, with nothing more asked of the cluster. -/
theorem brackets_read {act : Action (World σ (Transcribed κ)) α} {made : List Exchange}
    (hbracket : Bracket setting.operatorSpace op.asks none made)
    (hw : w.cluster.exchanges = before ++ made) (hreads : op.reads)
    (h : Ends act (fun _ w' => w' = w) (fun w' => w' = w) w) : Brackets setting op before act w := by
  refine ends_attempt (h.mono ?_ ?_)
  · rintro x _ rfl
    exact ⟨made, hw, .served hbracket (.inl rfl)⟩
  · rintro _ rfl
    exact ⟨fun e => ⟨made, hw, .served hbracket (.inr hreads)⟩, made, hw, .after hbracket⟩

theorem brackets_signAndPublish {operator : Key.Pair} {claims : Claims.AccountClaims} {x : α}
    (hw : w.cluster.exchanges = before) (hupload : ∀ token, op.asks (.upload token)) :
    Brackets setting op before (do
      signAndPublish setting operator claims
      return x) w := by
  rw [signAndPublish, bind_assoc]
  refine brackets_quiet (ends_ofClaims (fun token _ => ?_) hw)
  exact brackets_request (ends_connected_asked hw (hupload token)) fun _ w' made hbracket hw' =>
    brackets_done hbracket hw'

theorem brackets_publishedClaims {id : String}
    {k : Option Claims.AccountClaims → Action (World σ (Transcribed κ)) α}
    (hw : w.cluster.exchanges = before) (hlookup : op.asks (.lookup id)) (hreads : op.reads)
    (hk : ∀ found w', Ends (k found) (fun _ w'' => w'' = w') (fun w'' => w'' = w') w') :
    Brackets setting op before (publishedClaims setting id >>= k) w := by
  rw [publishedClaims, bind_assoc]
  refine brackets_request (ends_connected_asked hw hlookup) fun token w' made hbracket hw' => ?_
  refine brackets_read hbracket hw' hreads (ends_bind ?_)
  cases hb : (Text.trim token).isEmpty with
  | true =>
    simp only [hb, if_true]
    exact ends_pure (hk none w')
  | false =>
    simp only [hb, Bool.false_eq_true, if_false]
    generalize Claims.decodeAccount (Text.trim token) = read
    exact ends_bind (ends_ofClaims (fun claims _ => ends_pure (hk (some claims) w')) rfl)

omit [Storage σ] [Control κ] in
theorem ends_onSecrets_quiet {act : Action σ α} (hw : w.cluster.exchanges = before) :
    Ends (World.onSecrets act) (fun _ w' => w'.cluster.exchanges = before)
      (fun w' => w'.cluster.exchanges = before) w :=
  World.ends_onSecrets (ends_any (fun _ _ => hw) fun _ => hw)

omit [Storage σ] [Control κ] in
theorem brackets_discard {act : Action (World σ (Transcribed κ)) α}
    (h : Brackets setting op before act w) :
    Brackets setting op before (do let _ ← act) w := by
  refine ends_attempt_bind (h.mono (fun outcome w' hworked => ?_) fun _ hbroken => hbroken)
  cases outcome with
  | ok x => exact hworked
  | error e => exact hworked

theorem brackets_issueAccount {resolver : Claims.Resolver} {a : Account} :
    Brackets setting (.issue resolver a) w.cluster.exchanges (issueAccount setting resolver a) w := by
  refine brackets_quiet ((ends_onSecrets_quiet rfl).mono (fun operator w₁ h₁ => ?_) fun _ h => h)
  refine brackets_quiet (World.ends_drawKey (brackets_quiet (World.ends_drawKey ?_)))
  refine brackets_quiet (ends_ofClaims (fun claims _ => ?_) h₁)
  refine brackets_quiet (ends_within ((ends_onSecrets_quiet
    (w := { w₁ with drawn := w₁.drawn + 2 }) h₁).mono (fun _ w₂ h₂ => ?_) fun _ h => h))
  exact brackets_signAndPublish h₂ fun token => ⟨token, rfl⟩

theorem brackets_reissueAccount {resolver : Claims.Resolver} {a : Account} :
    Brackets setting (.reissue resolver a) w.cluster.exchanges (reissueAccount setting resolver a)
      w := by
  refine brackets_quiet ((ends_onSecrets_quiet rfl).mono (fun operator w₁ h₁ => ?_) fun _ h => h)
  refine brackets_quiet (ends_existingKeys_id.mono ?_ ?_)
  · rintro keys _ ⟨s, rfl, -⟩
    refine brackets_quiet (ends_ofClaims (fun claims _ => ?_) h₁)
    exact brackets_signAndPublish (w := { w₁ with secrets := s }) h₁ fun token => ⟨token, rfl⟩
  · rintro _ ⟨s, rfl⟩
    exact h₁

/-- The cluster is asked for the id of the account. -/
theorem brackets_observeAccount {a : Account} :
    Brackets setting (.observe a) w.cluster.exchanges (observeAccount setting a) w := by
  refine brackets_quiet (ends_existingKeys_id.mono ?_ ?_)
  · rintro keys _ ⟨s, rfl, hid⟩
    refine brackets_publishedClaims (w := { w with secrets := s }) rfl ⟨_, hid, rfl⟩ trivial
      fun found w' => ?_
    cases found with
    | none => exact ends_fail rfl
    | some claims =>
      by_cases he : claims.subject = keys.accountId
      · simp only [he, if_true]
        exact ends_pure rfl
      · simp only [he, if_false]
        exact ends_fail rfl
  · rintro _ ⟨s, rfl⟩
    rfl

/-- Whatever becomes of the records, the revoked account has had its bracket. -/
theorem brackets_revokeAccount {a : Account} :
    Brackets setting (.revoke a) w.cluster.exchanges (revokeAccount setting a) w := by
  unfold revokeAccount
  cases hid : a.id? with
  | none => exact ⟨[], (List.append_nil _).symm, .quiet fun _ => hid⟩
  | some id =>
    refine brackets_quiet ((ends_onSecrets_quiet rfl).mono (fun operator w₁ h₁ => ?_) fun _ h => h)
    refine brackets_quiet (ends_ofClaims (fun token _ => ?_) h₁)
    refine brackets_request (ends_connected_asked_within h₁ ⟨token, rfl⟩) ?_
    intro _ w₂ made hbracket h₂
    refine ends_attempt_bind (ends_attempt_attempt (ends_attempt ?_))
    refine (ends_onSecrets_quiet h₂).mono (fun _ w₃ h₃ => ?_) fun w₃ h₃ => ?_
    · exact brackets_done hbracket h₃
    · exact ⟨fun e => brackets_done hbracket h₃, made, h₃, .after hbracket⟩

/-- Every operation keeps to its bracket, from every state of the storage and of the cluster. -/
theorem brackets_perform (setting : Setting) (op : Operation) (w : World σ (Transcribed κ)) :
    Brackets setting op w.cluster.exchanges (op.perform setting) w := by
  cases op with
  | issue resolver a => exact brackets_discard brackets_issueAccount
  | reissue resolver a => exact brackets_discard brackets_reissueAccount
  | observe a => exact brackets_discard brackets_observeAccount
  | revoke a => exact brackets_revokeAccount
  | lookUp id => exact brackets_publishedClaims rfl rfl trivial fun _ _ => ends_pure rfl

end Steps

/-! ## Runs of operations -/

variable {setting : Setting} {w : World σ (Transcribed κ)}

theorem ends_performAll (steps : List (Setting × Operation)) :
    Ends (performAll steps)
      (fun failures w' => ∃ made, w'.cluster.exchanges = w.cluster.exchanges ++ made ∧
        Transcript steps failures made)
      (fun w' => ∃ made, w'.cluster.exchanges = w.cluster.exchanges ++ made ∧ CutOff steps made)
      w := by
  induction steps generalizing w with
  | nil => exact ends_pure ⟨[], (List.append_nil _).symm, .nil⟩
  | cons step rest ih =>
    obtain ⟨setting, op⟩ := step
    refine ends_bind ((brackets_perform setting op w).mono ?_ ?_)
    · rintro outcome w₁ ⟨made, hw₁, hworked⟩
      refine ends_bind (ih.mono ?_ ?_)
      · rintro failures w₂ ⟨more, hw₂, htranscript⟩
        refine ends_pure ⟨made ++ more, ?_, .cons hworked htranscript⟩
        rw [hw₂, hw₁, List.append_assoc]
      · rintro w₂ ⟨more, hw₂, hcut⟩
        refine ⟨made ++ more, ?_, .later hworked hcut⟩
        rw [hw₂, hw₁, List.append_assoc]
    · rintro w₁ ⟨made, hw₁, hbroken⟩
      exact ⟨made, hw₁, .here hbroken⟩

/-- Failing does not end a run. -/
theorem maintains_performAll (steps : List (Setting × Operation)) :
    Maintains (fun halt => ∀ e, halt ≠ .failed e) (fun _ => True)
      (performAll steps : Action (World σ κ) _) := by
  induction steps with
  | nil => exact maintains_pure _
  | cons step rest ih =>
    refine maintains_bind (maintains_attempt (maintains_any _) fun _ _ hne => hne) fun _ => ?_
    exact maintains_bind ih fun _ => maintains_pure _

/-- **Work on a cluster is bracketed.** Whatever operations are performed one after another, and
whatever the storage and the cluster do: if every call gets an answer, then what was called is one
bracket after another, at most one for each operation, and an operation whose connection or request
has failed fails with an error of the same kind. If not, what was called is such a sequence up to
the operation that was cut off. -/
theorem bracketed_of_performAll (steps : List (Setting × Operation))
    (w : World σ (Transcribed κ)) :
    match performAll steps w with
    | .ok failures w' => ∃ made, w'.cluster.exchanges = w.cluster.exchanges ++ made ∧
        Transcript steps failures made
    | .error halt w' => (∀ e, halt ≠ .failed e) ∧
        ∃ made, w'.cluster.exchanges = w.cluster.exchanges ++ made ∧ CutOff steps made := by
  have hends := ends_performAll (w := w) steps
  unfold Ends at hends
  cases hr : performAll steps w with
  | ok failures w' =>
    rw [hr] at hends
    exact hends
  | error halt w' =>
    rw [hr] at hends
    exact ⟨((maintains_performAll steps).of_error trivial hr).1, hends⟩

/-! ## Connections -/

def opens (x : Exchange) : Bool :=
  match x.call with
  | .connect _ => true
  | _ => false

def closes (x : Exchange) : Bool :=
  x.call == .disconnect

/-- What is asked for on a connection neither opens nor closes one. -/
theorem plain_of_asks {op : Operation} {call : Call} (h : op.asks call) (ending : Ending) :
    opens ⟨call, ending⟩ = false ∧ closes ⟨call, ending⟩ = false := by
  cases op with
  | issue resolver a =>
    obtain ⟨token, rfl⟩ := h
    exact ⟨rfl, rfl⟩
  | reissue resolver a =>
    obtain ⟨token, rfl⟩ := h
    exact ⟨rfl, rfl⟩
  | observe a =>
    obtain ⟨id, -, rfl⟩ := h
    exact ⟨rfl, rfl⟩
  | revoke a =>
    obtain ⟨token, rfl⟩ := h
    exact ⟨rfl, rfl⟩
  | lookUp id =>
    obtain rfl := h
    exact ⟨rfl, rfl⟩

/-- A bracket opens a connection and closes it. -/
theorem count_of_bracket {op : Operation} {space : String} {failure? : Option Error}
    {made : List Exchange} (h : Bracket space op.asks failure? made) :
    made.countP opens = 1 ∧ made.countP closes = 1 := by
  cases h with
  | unreached e => exact ⟨rfl, rfl⟩
  | @answered call hcall failure? =>
    obtain ⟨hopens, hcloses⟩ := plain_of_asks hcall (.ofFailure failure?)
    simp only [List.countP_cons, List.countP_nil, hopens, hcloses]
    exact ⟨rfl, rfl⟩

theorem count_of_worked {op : Operation} {failure? : Option Error} {made : List Exchange}
    (h : Worked setting op failure? made) :
    made.countP opens = made.countP closes ∧ made.countP opens ≤ 1 := by
  cases h with
  | quiet _ => exact ⟨rfl, Nat.zero_le _⟩
  | refused hbracket _ =>
    obtain ⟨hopens, hcloses⟩ := count_of_bracket hbracket
    exact ⟨hopens.trans hcloses.symm, Nat.le_of_eq hopens⟩
  | served hbracket _ =>
    obtain ⟨hopens, hcloses⟩ := count_of_bracket hbracket
    exact ⟨hopens.trans hcloses.symm, Nat.le_of_eq hopens⟩

/-- No connection is left open, and no more are opened than operations were performed. -/
theorem count_of_transcript {steps : List (Setting × Operation)} {failures : List (Option Error)}
    {made : List Exchange} (h : Transcript steps failures made) :
    made.countP opens = made.countP closes ∧ made.countP opens ≤ steps.length := by
  induction h with
  | nil => exact ⟨rfl, Nat.le_refl _⟩
  | @cons setting op rest failure? failures made more hworked hrest ih =>
    obtain ⟨hbalanced, hone⟩ := count_of_worked hworked
    rw [List.countP_append, List.countP_append, List.length_cons]
    omega

end Operation

end CredentialEngine.Lifecycle
