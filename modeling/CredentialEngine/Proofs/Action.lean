import CredentialEngine.Secret.Storage

/-!
# How operations end

What holds where an operation returns, and what holds where it halts, is found by going through its
steps. Changes made before a halt remain, so both ends matter.
-/
namespace CredentialEngine

namespace Action

variable {ω α β : Type} {act : Action ω α} {Q Q' : α → ω → Prop} {E E' : ω → Prop} {s : ω}

/-- From a state, the operation returns where `Q` holds or halts where `E` holds. -/
def Ends (act : Action ω α) (Q : α → ω → Prop) (E : ω → Prop) (s : ω) : Prop :=
  match act s with
  | .ok a s' => Q a s'
  | .error _ s' => E s'

/-- The state that an operation leaves. -/
def leaves : EStateM.Result Halt ω α → ω
  | .ok _ s => s
  | .error _ s => s

theorem Ends.leaves {P : ω → Prop} (h : Ends act (fun _ s => P s) P s) : P (leaves (act s)) := by
  unfold Ends at h
  cases hr : act s with
  | ok a s' =>
    rw [hr] at h
    exact h
  | error e s' =>
    rw [hr] at h
    exact h

theorem Ends.returned (h : Ends act Q E s) {a : α} {s' : ω} (hr : act s = .ok a s') : Q a s' := by
  unfold Ends at h
  rw [hr] at h
  exact h

theorem Ends.mono (h : Ends act Q E s) (hq : ∀ a s', Q a s' → Q' a s') (he : ∀ s', E s' → E' s') :
    Ends act Q' E' s := by
  unfold Ends at h ⊢
  cases hr : act s with
  | ok a s' =>
    rw [hr] at h
    exact hq a s' h
  | error e s' =>
    rw [hr] at h
    exact he s' h

/-- What is known of the end of an operation, together with the state that it leaves. -/
theorem Ends.andLeaves (h : Ends act Q E s) :
    Ends act (fun a s' => Q a s' ∧ s' = Action.leaves (act s))
      (fun s' => E s' ∧ s' = Action.leaves (act s)) s := by
  unfold Ends at h ⊢
  cases hr : act s with
  | ok a s' =>
    rw [hr] at h
    exact ⟨h, rfl⟩
  | error e s' =>
    rw [hr] at h
    exact ⟨h, rfl⟩

/-- What is known where an operation returns, together with what it returned. -/
theorem Ends.andReturned (h : Ends act Q E s) :
    Ends act (fun a s' => Q a s' ∧ act s = .ok a s') E s := by
  unfold Ends at h ⊢
  cases hr : act s with
  | ok a s' =>
    rw [hr] at h
    exact ⟨h, rfl⟩
  | error e s' =>
    rw [hr] at h
    exact h

theorem ends_any (hq : ∀ a s', Q a s') (he : ∀ s', E s') : Ends act Q E s := by
  unfold Ends
  cases act s with
  | ok a s' => exact hq a s'
  | error e s' => exact he s'

theorem ends_pure {a : α} (h : Q a s) : Ends (pure a) Q E s := h

theorem ends_fail {e : Error} (h : E s) : Ends (fail e : Action ω α) Q E s := h

theorem ends_bind {k : α → Action ω β} {Q : β → ω → Prop}
    (h : Ends act (fun a s' => Ends (k a) Q E s') E s) : Ends (act >>= k) Q E s := by
  change Ends (EStateM.bind act k) Q E s
  unfold Ends at h ⊢
  rw [EStateM.bind]
  cases hr : act s with
  | ok a s' =>
    rw [hr] at h
    exact h
  | error e s' =>
    rw [hr] at h
    exact h

theorem ends_ofExcept {x : Except Error α} (h : ∀ a, x = .ok a → Q a s) (he : E s) :
    Ends (ofExcept x) Q E s := by
  cases x with
  | ok a => exact h a rfl
  | error e => exact he

theorem ofExcept_ok_iff {x : Except Error α} {a : α} {s' : ω} :
    ofExcept x s = .ok a s' ↔ s' = s ∧ x = .ok a := by
  cases x with
  | ok b =>
    constructor
    · intro h
      obtain ⟨rfl, rfl⟩ := EStateM.Result.ok.inj h
      exact ⟨rfl, rfl⟩
    · rintro ⟨rfl, h⟩
      rw [Except.ok.inj h]
      rfl
  | error e => exact ⟨fun h => (nomatch h), fun h => (nomatch h.2)⟩

theorem ends_attempt {Q : Except Error α → ω → Prop}
    (h : Ends act (fun a s' => Q (.ok a) s') (fun s' => (∀ e, Q (.error e) s') ∧ E s') s) :
    Ends (attempt act) Q E s := by
  unfold Ends at h ⊢
  rw [attempt]
  cases hr : act s with
  | ok a s' =>
    rw [hr] at h
    exact h
  | error e s' =>
    rw [hr] at h
    cases e with
    | failed e => exact h.1 e
    | stalled => exact h.2
    | crashed => exact h.2

theorem attempt_ok {a : α} {s' : ω} (hr : act s = .ok a s') : attempt act s = .ok (.ok a) s' := by
  rw [attempt, hr]

theorem attempt_failed {e : Error} {s' : ω} (hr : act s = .error (.failed e) s') :
    attempt act s = .ok (.error e) s' := by
  rw [attempt, hr]

theorem ends_within {what : String} (h : Ends act Q E s) : Ends (within what act) Q E s := by
  unfold Ends at h ⊢
  rw [within]
  cases hr : act s with
  | ok a s' =>
    rw [hr] at h
    exact h
  | error e s' =>
    rw [hr] at h
    cases e <;> exact h

theorem ends_onPart {π : Type} {get : ω → π} {set : π → ω → ω} {act : Action π α}
    (h : Ends act (fun a p => Q a (set p s)) (fun p => E (set p s)) (get s)) :
    Ends (onPart get set act) Q E s := by
  unfold Ends at h ⊢
  rw [onPart]
  cases hr : act (get s) with
  | ok a p =>
    rw [hr] at h
    exact h
  | error e p =>
    rw [hr] at h
    exact h

theorem ends_ok {a : α} {s' : ω} (hr : act s = .ok a s') (h : Q a s') : Ends act Q E s := by
  unfold Ends
  rw [hr]
  exact h

theorem ends_error {e : Halt} {s' : ω} (hr : act s = .error e s') (h : E s') : Ends act Q E s := by
  unfold Ends
  rw [hr]
  exact h

theorem bind_of_ok {k : α → Action ω β} {a : α} {s' : ω} (h : act s = .ok a s') :
    (act >>= k) s = k a s' := by
  change EStateM.bind act k s = _
  rw [EStateM.bind, h]

theorem bind_of_error {k : α → Action ω β} {e : Halt} {s' : ω} (h : act s = .error e s') :
    (act >>= k) s = .error e s' := by
  change EStateM.bind act k s = _
  rw [EStateM.bind, h]

/-- What returned from a sequence returned from both of its parts. -/
theorem of_bind_ok {k : α → Action ω β} {b : β} {s' : ω} (h : (act >>= k) s = .ok b s') :
    ∃ a s₁, act s = .ok a s₁ ∧ k a s₁ = .ok b s' := by
  change EStateM.bind act k s = _ at h
  rw [EStateM.bind] at h
  cases hact : act s with
  | ok a s₁ =>
    rw [hact] at h
    exact ⟨a, s₁, rfl, h⟩
  | error e s₁ =>
    rw [hact] at h
    contradiction

/-! ## Outcomes as values -/

/-- The error of an outcome, if it is one. -/
def failure? : Except Error α → Option Error
  | .ok _ => none
  | .error e => some e

/-- Attempting a sequence is attempting its first part, and the rest if that succeeds. -/
theorem ends_attempt_bind {k : α → Action ω β} {Q : Except Error β → ω → Prop}
    (h : Ends (attempt act) (fun outcome s' => match outcome with
      | .ok a => Ends (attempt (k a)) Q E s'
      | .error e => Q (.error e) s') E s) : Ends (attempt (act >>= k)) Q E s := by
  unfold Ends at h ⊢
  rw [attempt] at h ⊢
  cases hr : act s with
  | ok a s' =>
    rw [hr] at h
    rw [bind_of_ok hr]
    exact h
  | error e s' =>
    rw [hr] at h
    rw [bind_of_error hr]
    cases e <;> exact h

/-- Whatever the error is in which the first part may fail. -/
theorem ends_attempt_bind_of {k : α → Action ω β} {Q : Except Error β → ω → Prop}
    (h : Ends act (fun a s' => Ends (attempt (k a)) Q E s')
      (fun s' => (∀ e, Q (.error e) s') ∧ E s') s) : Ends (attempt (act >>= k)) Q E s :=
  ends_attempt_bind (ends_attempt h)

theorem ends_attempt_within {what : String} {Q : Except Error α → ω → Prop}
    (h : Ends (attempt act) (fun outcome s' => Q (outcome.mapError (·.within what)) s') E s) :
    Ends (attempt (within what act)) Q E s := by
  unfold Ends at h ⊢
  rw [attempt] at h ⊢
  rw [within]
  cases hr : act s with
  | ok a s' =>
    rw [hr] at h
    exact h
  | error e s' =>
    rw [hr] at h
    cases e <;> exact h

theorem ends_attempt_onPart {π : Type} {get : ω → π} {set : π → ω → ω} {act : Action π α}
    {Q : Except Error α → ω → Prop}
    (h : Ends (attempt act) (fun outcome p => Q outcome (set p s)) (fun p => E (set p s)) (get s)) :
    Ends (attempt (onPart get set act)) Q E s := by
  unfold Ends at h ⊢
  rw [attempt] at h ⊢
  rw [onPart]
  cases hr : act (get s) with
  | ok a p =>
    rw [hr] at h
    exact h
  | error e p =>
    rw [hr] at h
    cases e <;> exact h

theorem ends_attempt_attempt {Q : Except Error (Except Error α) → ω → Prop}
    (h : Ends (attempt act) (fun outcome s' => Q (.ok outcome) s') E s) :
    Ends (attempt (attempt act)) Q E s := by
  unfold Ends at h ⊢
  rw [attempt] at h
  rw [attempt, attempt]
  cases hr : act s with
  | ok a s' =>
    rw [hr] at h
    exact h
  | error e s' =>
    rw [hr] at h
    cases e <;> exact h

/-! ## Halts -/

/-- From a state, the operation returns or fails. It neither stalls nor crashes. -/
def Settles (act : Action ω α) (s : ω) : Prop :=
  ∀ e s', act s = .error e s' → ∃ error, e = .failed error

theorem settles_pure (a : α) : Settles (pure a) s := nofun

theorem settles_fail (error : Error) : Settles (fail error : Action ω α) s := by
  intro e s' h
  obtain ⟨rfl, -⟩ := EStateM.Result.error.inj h
  exact ⟨error, rfl⟩

theorem settles_ofExcept (x : Except Error α) : Settles (ofExcept x) s := by
  cases x with
  | ok a => exact settles_pure a
  | error error => exact settles_fail error

theorem settles_bind {k : α → Action ω β} (h : Settles act s)
    (hk : ∀ a s', act s = .ok a s' → Settles (k a) s') : Settles (act >>= k) s := by
  intro e s' hr
  change EStateM.bind act k s = _ at hr
  rw [EStateM.bind] at hr
  cases hact : act s with
  | ok a s₁ =>
    rw [hact] at hr
    exact hk a s₁ hact e s' hr
  | error e₁ s₁ =>
    rw [hact] at hr
    obtain ⟨rfl, rfl⟩ := EStateM.Result.error.inj hr
    exact h e₁ s₁ hact

theorem settles_attempt (h : Settles act s) : Settles (attempt act) s := by
  intro e s' hr
  rw [attempt] at hr
  cases hact : act s with
  | ok a s₁ =>
    rw [hact] at hr
    contradiction
  | error e₁ s₁ =>
    obtain ⟨error, rfl⟩ := h e₁ s₁ hact
    rw [hact] at hr
    contradiction

theorem settles_within {what : String} (h : Settles act s) : Settles (within what act) s := by
  intro e s' hr
  rw [within] at hr
  cases hact : act s with
  | ok a s₁ =>
    rw [hact] at hr
    contradiction
  | error e₁ s₁ =>
    obtain ⟨error, rfl⟩ := h e₁ s₁ hact
    rw [hact] at hr
    obtain ⟨rfl, -⟩ := EStateM.Result.error.inj hr
    exact ⟨_, rfl⟩

/-! ## Invariants -/

/-- What the operation does keeps `P` true of the state, and it halts only as `H` allows. -/
def Maintains (H : Halt → Prop) (P : ω → Prop) (act : Action ω α) : Prop :=
  ∀ s, P s → match act s with
    | .ok _ s' => P s'
    | .error h s' => H h ∧ P s'

section Invariants

variable {H H' : Halt → Prop} {P : ω → Prop}

theorem maintains_true (h : ∀ s e s', act s = .error e s' → H e) :
    Maintains H (fun _ => True) act := by
  intro s _
  cases hr : act s with
  | ok a s' => trivial
  | error e s' => exact ⟨h s e s' hr, trivial⟩

theorem maintains_any (act : Action ω α) :
    Maintains (fun _ => True) (fun _ => True) act :=
  maintains_true fun _ _ _ _ => trivial

theorem Maintains.of_ok (h : Maintains H P act) (hp : P s) {a : α} {s' : ω}
    (hr : act s = .ok a s') : P s' := by
  have hs := h s hp
  rw [hr] at hs
  exact hs

theorem Maintains.of_error (h : Maintains H P act) (hp : P s) {e : Halt} {s' : ω}
    (hr : act s = .error e s') : H e ∧ P s' := by
  have hs := h s hp
  rw [hr] at hs
  exact hs

theorem maintains_pure (a : α) : Maintains H P (pure a) :=
  fun _ hp => hp

theorem maintains_fail {e : Error} (h : H (.failed e)) : Maintains H P (fail e : Action ω α) :=
  fun _ hp => ⟨h, hp⟩

theorem maintains_ofExcept (hf : ∀ e, H (.failed e)) (x : Except Error α) :
    Maintains H P (ofExcept x) := by
  cases x with
  | ok a => exact maintains_pure a
  | error e => exact maintains_fail (hf e)

theorem maintains_bind {k : α → Action ω β} (h : Maintains H P act)
    (hk : ∀ a, Maintains H P (k a)) : Maintains H P (act >>= k) := by
  intro s hp
  cases hr : act s with
  | ok a s₁ =>
    rw [bind_of_ok hr]
    exact hk a s₁ (h.of_ok hp hr)
  | error e s₁ =>
    rw [bind_of_error hr]
    exact h.of_error hp hr

theorem maintains_attempt (h : Maintains H P act)
    (hh : ∀ e, H e → (∀ error, e ≠ .failed error) → H' e) : Maintains H' P (attempt act) := by
  intro s hp
  cases hr : act s with
  | ok a s₁ =>
    rw [attempt_ok hr]
    exact h.of_ok hp hr
  | error e s₁ =>
    obtain ⟨he, hp₁⟩ := h.of_error hp hr
    rw [attempt, hr]
    cases e with
    | failed error => exact hp₁
    | stalled => exact ⟨hh _ he nofun, hp₁⟩
    | crashed => exact ⟨hh _ he nofun, hp₁⟩

theorem maintains_within (hf : ∀ e, H (.failed e)) {what : String} (h : Maintains H P act) :
    Maintains H P (within what act) := by
  intro s hp
  have hs := h s hp
  rw [within]
  cases hr : act s with
  | ok a s₁ =>
    rw [hr] at hs
    exact hs
  | error e s₁ =>
    rw [hr] at hs
    cases e with
    | failed error => exact ⟨hf _, hs.2⟩
    | stalled => exact hs
    | crashed => exact hs

theorem maintains_onPart {π : Type} {get : ω → π} {set : π → ω → ω} {part : Action π α}
    {P' : π → Prop} (h : Maintains H P' part) (hget : ∀ s, P s → P' (get s))
    (hset : ∀ s p, P s → P' p → P (set p s)) : Maintains H P (onPart get set part) := by
  intro s hp
  have hs := h (get s) (hget s hp)
  rw [onPart]
  cases hr : part (get s) with
  | ok a p =>
    rw [hr] at hs
    exact hset s p hp hs
  | error e p =>
    rw [hr] at hs
    exact ⟨hs.1, hset s p hp hs.2⟩

end Invariants

end Action

/-- The operations of a storage keep `P` true of it and halt only as `H` allows. -/
structure Storage.Maintain (σ : Type) [Storage σ] (H : Halt → Prop) (P : σ → Prop) : Prop where
  get : ∀ loc, Action.Maintains H P (Storage.get loc)
  list : ∀ space selector, Action.Maintains H P (Storage.list space selector)
  create : ∀ r, Action.Maintains H P (Storage.create r)
  update : ∀ r, Action.Maintains H P (Storage.update r)
  delete : ∀ loc, Action.Maintains H P (Storage.delete loc)
  deleteSelected : ∀ space selector, Action.Maintains H P (Storage.deleteSelected space selector)

theorem Storage.Maintain.trivial {σ : Type} [Storage σ] :
    Storage.Maintain σ (fun _ => True) fun _ => True :=
  ⟨fun _ => Action.maintains_any _, fun _ _ => Action.maintains_any _,
    fun _ => Action.maintains_any _, fun _ => Action.maintains_any _,
    fun _ => Action.maintains_any _, fun _ _ => Action.maintains_any _⟩

end CredentialEngine
