import CredentialEngine.Cluster.Link
import Mathlib.Logic.Function.Basic

/-!
# A link that many calls share

Any number of calls run on one link at once. A call to connect holds the gate from its first step to
its last and takes two steps on the link, `Link.begin` and `Link.settle`, with the opening of the
transport between them; a disconnect and a request take one step on it each. `Step` puts these steps
in any order, with any outcome for each attempt, and lets the transport change under them.

Two facts carry what is known of the runs: the gate lets one call in at a time, so between the two
steps of an attempt only a disconnect touches the state of the link (`dialing_run`); and a link
becomes connected at no step but the settling of an attempt (`connected_step`).
-/
namespace CredentialEngine.Cluster

/-- How far a call to connect has come. -/
inductive Stage where
  /-- It does not hold the gate yet. -/
  | outside
  | admitted
  /-- It took the link to connecting; its attempt is in flight. -/
  | dialing
  /-- Its result stands, and it still holds the gate. -/
  | leaving (result : Except Error Unit)
  | returned (result : Except Error Unit)

namespace Stage

/-- The stages of a call that holds the gate. -/
@[simp]
def Inside : Stage → Prop
  | .admitted | .dialing | .leaving _ => True
  | .outside | .returned _ => False

@[simp]
def rank : Stage → Nat
  | .outside => 0
  | .admitted => 1
  | .dialing => 2
  | .leaving _ => 3
  | .returned _ => 4

/-- What the call returns, once that is settled. -/
@[simp]
def result? : Stage → Option (Except Error Unit)
  | .leaving result | .returned result => some result
  | .outside | .admitted | .dialing => none

theorem rank_eq_two {g : Stage} : g.rank = 2 ↔ g = .dialing := by
  cases g <;> simp

end Stage

/-- A link with the calls to connect that are made on it. -/
structure Shared (ι τ : Type) where
  link : Link τ
  gate : Option ι := none
  stage : ι → Stage := fun _ => .outside

inductive Event (ι : Type) where
  | enters (i : ι)
  /-- The first look at the link, and whether it takes the link to connecting. -/
  | begins (i : ι) (dials : Bool)
  /-- The attempt is over: how the transport answered, and what the call will return. -/
  | settles (i : ι) (outcome result : Except Error Unit)
  | leaves (i : ι) (result : Except Error Unit)
  | disconnects
  | answers (subject : String) (payload : List UInt8) (answer : Except Halt (List UInt8))
  /-- Something happens to the transport. -/
  | drifts

namespace Link

section

variable {τ : Type} {l l' : Link τ} {outcome result : Except Error Unit} {dials : Bool}

theorem begin_cases (h : l.begin = (dials, l')) :
    dials = false ∧ l.state = .connected ∧ l' = l ∨
      dials = true ∧ l.state ≠ .connected ∧ l'.state = .connecting := by
  simp only [Link.begin] at h
  split at h
  case isTrue connected =>
    obtain ⟨rfl, rfl⟩ := Prod.mk.inj h
    exact .inl ⟨rfl, connected, rfl⟩
  case isFalse apart =>
    obtain ⟨rfl, rfl⟩ := Prod.mk.inj h
    exact .inr ⟨rfl, apart, rfl⟩

theorem settle_cases (h : l.settle outcome = (result, l')) :
    (∃ e, outcome = .error e ∧ result = .error e ∧ l'.state = .disconnected) ∨
      (outcome = .ok () ∧ result = .ok () ∧ l.state = .connecting ∧ l'.state = .connected) ∨
      (outcome = .ok () ∧ result = .error .notConnected ∧ l.state ≠ .connecting ∧ l' = l) := by
  simp only [Link.settle] at h
  split at h
  case h_1 e =>
    obtain ⟨rfl, rfl⟩ := Prod.mk.inj h
    exact .inl ⟨e, rfl, rfl, rfl⟩
  case h_2 =>
    split at h
    case isTrue connecting =>
      obtain ⟨rfl, rfl⟩ := Prod.mk.inj h
      exact .inr (.inl ⟨rfl, rfl, connecting, rfl⟩)
    case isFalse apart =>
      obtain ⟨rfl, rfl⟩ := Prod.mk.inj h
      exact .inr (.inr ⟨rfl, rfl, apart, rfl⟩)

end

section

variable {τ : Type} [Transport τ] {l : Link τ}

theorem request_of_ne {subject : String} {payload : List UInt8} (h : l.state ≠ .connected) :
    l.request subject payload = .error (.failed .notConnected) l := by
  simp [Link.request, h]

/-- A request leaves the state of the link as it is, whatever comes back. -/
theorem request_state (subject : String) (payload : List UInt8) :
    match l.request subject payload with
    | .ok _ l' => l'.state = l.state
    | .error _ l' => l'.state = l.state := by
  by_cases h : l.state = .connected
  · simp only [Link.request, h, if_true]
    cases (Transport.request l.config subject payload l.transport).1 <;> rfl
  · rw [request_of_ne h]

end

end Link

namespace Shared

section

variable {ι τ : Type} [DecidableEq ι]

def move (s : Shared ι τ) (i : ι) (g : Stage) (l : Link τ) : Shared ι τ :=
  { s with link := l, stage := Function.update s.stage i g }

variable (s : Shared ι τ) (i : ι) (g : Stage) (l : Link τ)

@[simp] theorem move_link : (s.move i g l).link = l := rfl

@[simp] theorem move_gate : (s.move i g l).gate = s.gate := rfl

@[simp] theorem move_stage_self : (s.move i g l).stage i = g := Function.update_self ..

theorem move_stage_of_ne {j : ι} (h : j ≠ i) : (s.move i g l).stage j = s.stage j :=
  Function.update_of_ne h ..

end

/-- The gate lets one call in at a time, and the link is connecting only under its attempt. -/
structure Guarded {ι τ : Type} (s : Shared ι τ) : Prop where
  inside : ∀ i, (s.stage i).Inside → s.gate = some i
  connecting : s.link.state = .connecting → ∃ i, s.stage i = .dialing
  connected : s.link.state = .connected → ∀ i, s.stage i ≠ .dialing

namespace Guarded

section

variable {ι τ : Type} {s : Shared ι τ} {i j : ι}

theorem alone (g : Guarded s) (hi : (s.stage i).Inside) (hj : (s.stage j).Inside) : i = j :=
  Option.some.inj ((g.inside i hi).symm.trans (g.inside j hj))

theorem of_state (g : Guarded s) {l : Link τ} (h : l.state = s.link.state) :
    Guarded { s with link := l } :=
  ⟨g.inside, fun c => g.connecting (h ▸ c), fun c => g.connected (h ▸ c)⟩

theorem fresh (config : LinkConfig) (transport : τ) :
    Guarded ({ link := { config, transport } } : Shared ι τ) :=
  ⟨fun _ h => h.elim, nofun, nofun⟩

end

variable {ι τ : Type} [DecidableEq ι] {s : Shared ι τ} {i : ι} {stage : Stage}

/-- A call goes on from a stage inside, or from before the gate when nobody is inside. The link may
be connecting only if the call is dialing now, connected only if it is not. -/
theorem of_move (alone : ∀ j, (s.stage j).Inside → j = i) {gate : Option ι}
    (held : stage.Inside → gate = some i) {l : Link τ}
    (connecting : l.state = .connecting → stage = .dialing)
    (connected : l.state = .connected → stage ≠ .dialing) :
    Guarded { s.move i stage l with gate } := by
  have others (j : ι) (h : j ≠ i) : ¬ ((s.move i stage l).stage j).Inside := by
    rw [move_stage_of_ne s i stage l h]
    exact fun inside => h (alone j inside)
  refine ⟨fun j inside => ?_, fun c => ⟨i, by simpa using connecting c⟩, fun c j dialing => ?_⟩
  · obtain rfl : j = i := Decidable.byContradiction fun h => others j h inside
    exact held (by simpa using inside)
  · obtain rfl : j = i := Decidable.byContradiction fun h => others j h (by
      simp only at dialing
      simp [dialing])
    exact connected c (by simpa using dialing)

end Guarded

end Shared

open Shared

variable {ι τ : Type} [DecidableEq ι] [Transport τ]

/-- One step of one of the calls. -/
inductive Step : Shared ι τ → Event ι → Shared ι τ → Prop where
  | enter {s i} (free : s.gate = none) (outside : s.stage i = .outside) :
      Step s (.enters i) { s.move i .admitted s.link with gate := some i }
  | begin {s i dials l} (admitted : s.stage i = .admitted) (begun : s.link.begin = (dials, l)) :
      Step s (.begins i dials) (s.move i (if dials then .dialing else .leaving (.ok ())) l)
  | settle {s i outcome result l} (dialing : s.stage i = .dialing)
      (settled : s.link.settle outcome = (result, l)) :
      Step s (.settles i outcome result) (s.move i (.leaving result) l)
  | leave {s i result} (leaving : s.stage i = .leaving result) :
      Step s (.leaves i result) { s.move i (.returned result) s.link with gate := none }
  | disconnect {s} : Step s .disconnects { s with link := s.link.disconnect }
  /-- The state of the link is looked at once, at this step; what the transport does with the
  request leaves it alone. -/
  | answered {s subject payload bytes l} (asked : s.link.request subject payload = .ok bytes l) :
      Step s (.answers subject payload (.ok bytes)) { s with link := l }
  | refused {s subject payload halt l} (asked : s.link.request subject payload = .error halt l) :
      Step s (.answers subject payload (.error halt)) { s with link := l }
  | drift {s t} : Step s .drifts { s with link := { s.link with transport := t } }

/-- The steps of a run, in order. -/
inductive Run : Shared ι τ → List (Event ι) → Shared ι τ → Prop where
  | refl {s} : Run s [] s
  | cons {s e t es u} (step : Step s e t) (rest : Run t es u) : Run s (e :: es) u

variable {s t u : Shared ι τ} {e : Event ι} {es xs ys : List (Event ι)} {i j : ι}

theorem Run.append (run : Run s xs t) (more : Run t ys u) : Run s (xs ++ ys) u := by
  induction run with
  | refl => exact more
  | cons step _ ih => exact .cons step (ih more)

theorem Run.split : ∀ {xs : List (Event ι)} {s : Shared ι τ}, Run s (xs ++ ys) u →
    ∃ t, Run s xs t ∧ Run t ys u
  | [], _, run => ⟨_, .refl, run⟩
  | _ :: _, _, .cons step rest =>
    let ⟨t, before, after⟩ := Run.split rest
    ⟨t, .cons step before, after⟩

/-! ### One step -/

/-- No step takes a call back. -/
theorem rank_step (step : Step s e t) (i : ι) : (s.stage i).rank ≤ (t.stage i).rank := by
  have moved (j : ι) (g : Stage) (l : Link τ) (h : (s.stage j).rank ≤ g.rank) :
      (s.stage i).rank ≤ ((s.move j g l).stage i).rank := by
    by_cases same : i = j
    · subst same
      simpa using h
    · exact Nat.le_of_eq (congrArg Stage.rank (move_stage_of_ne s j g l same)).symm
  cases step with
  | enter _ outside => exact moved _ _ s.link (by simp [outside])
  | @begin _ dials _ admitted _ => exact moved _ _ _ (by cases dials <;> simp [admitted])
  | settle dialing _ => exact moved _ _ _ (by simp [dialing])
  | leave leaving => exact moved _ _ s.link (by simp [leaving])
  | disconnect | answered | refused | drift => exact Nat.le_refl _

theorem guarded_step (step : Step s e t) (g : Guarded s) : Guarded t := by
  have inside {i j : ι} (hi : (s.stage i).Inside) (hj : (s.stage j).Inside) : j = i :=
    g.alone hj hi
  cases step with
  | @enter i free outside =>
    have nobody (j : ι) : ¬ (s.stage j).Inside := fun h => by simpa [free] using g.inside j h
    refine .of_move (fun j h => absurd h (nobody j)) (fun _ => rfl) (fun connecting => ?_) nofun
    obtain ⟨j, dialing⟩ := g.connecting connecting
    exact absurd (by simp [dialing]) (nobody j)
  | @begin i dials l admitted begun =>
    have hi : (s.stage i).Inside := by simp [admitted]
    refine .of_move (fun _ => inside hi) (fun _ => g.inside i hi) ?_ ?_
    all_goals obtain ⟨rfl, connected, rfl⟩ | ⟨rfl, -, connecting⟩ := Link.begin_cases begun
    · simp [connected]
    · simp
    · simp
    · simp [connecting]
  | @settle i outcome result l dialing settled =>
    have hi : (s.stage i).Inside := by simp [dialing]
    refine .of_move (fun _ => inside hi) (fun _ => g.inside i hi) (fun connecting => ?_) nofun
    -- no settling ends in connecting
    obtain ⟨_, -, -, gone⟩ | ⟨-, -, -, gone⟩ | ⟨-, -, apart, rfl⟩ := Link.settle_cases settled
    · simp [gone] at connecting
    · simp [gone] at connecting
    · exact absurd connecting apart
  | @leave i result leaving =>
    have hi : (s.stage i).Inside := by simp [leaving]
    refine .of_move (fun _ => inside hi) ?_ (fun connecting => ?_) nofun
    · exact False.elim
    · obtain ⟨j, dialing⟩ := g.connecting connecting
      have hj : (s.stage j).Inside := by simp [dialing]
      rw [inside hi hj, leaving] at dialing
      exact absurd dialing nofun
  | disconnect => exact ⟨g.inside, nofun, nofun⟩
  | @answered subject payload _ _ asked =>
    exact g.of_state (by simpa only [asked] using s.link.request_state subject payload)
  | @refused subject payload _ _ asked =>
    exact g.of_state (by simpa only [asked] using s.link.request_state subject payload)
  | drift => exact g.of_state rfl

theorem guarded_run (run : Run s es t) (g : Guarded s) : Guarded t := by
  induction run with
  | refl => exact g
  | cons step _ ih => exact ih (guarded_step step g)

theorem rank_run (run : Run s es t) (i : ι) : (s.stage i).rank ≤ (t.stage i).rank := by
  induction run with
  | refl => exact Nat.le_refl _
  | cons step _ ih => exact Nat.le_trans (rank_step step i) ih

/-- What comes to hold in a run comes to hold at one of its steps. -/
theorem Run.turn {P : Shared ι τ → Prop} (run : Run s es t) (hs : ¬ P s) (ht : P t) :
    ∃ xs u e v ys, es = xs ++ e :: ys ∧ Run s xs u ∧ Step u e v ∧ Run v ys t ∧ ¬ P u ∧ P v := by
  induction run with
  | refl => exact absurd ht hs
  | @cons s e v es t step rest ih =>
    by_cases hv : P v
    · exact ⟨[], s, e, v, es, rfl, .refl, step, rest, hs, hv⟩
    · obtain ⟨xs, u, e', w, ys, rfl, before, turn, after, hu, hw⟩ := ih hv ht
      exact ⟨e :: xs, u, e', w, ys, rfl, .cons step before, turn, after, hu, hw⟩

/-- A link becomes connected only where an attempt settles whose transport opened. -/
theorem connected_step (step : Step s e t) (hs : s.link.state ≠ .connected)
    (ht : t.link.state = .connected) : ∃ i, e = .settles i (.ok ()) (.ok ()) := by
  cases step with
  | enter | leave | drift => exact absurd ht hs
  | disconnect => exact absurd ht nofun
  | @begin i dials l _ begun =>
    obtain ⟨-, connected, -⟩ | ⟨-, -, connecting⟩ := Link.begin_cases begun
    · exact absurd connected hs
    · exact absurd (connecting.symm.trans ht) nofun
  | @settle i outcome result l _ settled =>
    obtain ⟨_, -, -, gone⟩ | ⟨rfl, rfl, -, -⟩ | ⟨-, -, -, rfl⟩ := Link.settle_cases settled
    · exact absurd (gone.symm.trans ht) nofun
    · exact ⟨i, rfl⟩
    · exact absurd ht hs
  | @answered subject payload _ _ asked =>
    have same := s.link.request_state subject payload
    simp only [asked] at same
    exact absurd (same ▸ ht) hs
  | @refused subject payload _ _ asked =>
    have same := s.link.request_state subject payload
    simp only [asked] at same
    exact absurd (same ▸ ht) hs

/-- While an attempt is in flight, a disconnect is all that touches the state of the link. -/
theorem dialing_step (g : Guarded s) (step : Step s e t) (hs : s.stage i = .dialing)
    (ht : t.stage i = .dialing) :
    e = .disconnects ∧ t.link.state = .disconnected ∨
      e ≠ .disconnects ∧ t.link.state = s.link.state := by
  have hi : (s.stage i).Inside := by simp [hs]
  cases step with
  | enter | leave | drift => exact .inr ⟨nofun, rfl⟩
  | disconnect => exact .inl ⟨rfl, rfl⟩
  | @begin j _ _ admitted _ =>
    have hj : (s.stage j).Inside := by simp [admitted]
    rw [g.alone hj hi, hs] at admitted
    exact absurd admitted nofun
  | @settle j _ _ _ dialing _ =>
    have hj : (s.stage j).Inside := by simp [dialing]
    obtain rfl := g.alone hj hi
    simp at ht
  | @answered subject payload _ _ asked =>
    exact .inr ⟨nofun, by simpa only [asked] using s.link.request_state subject payload⟩
  | @refused subject payload _ _ asked =>
    exact .inr ⟨nofun, by simpa only [asked] using s.link.request_state subject payload⟩

theorem dialing_run (g : Guarded s) (run : Run s es t) (hs : s.stage i = .dialing)
    (ht : t.stage i = .dialing) :
    .disconnects ∈ es ∧ t.link.state = .disconnected ∨
      .disconnects ∉ es ∧ t.link.state = s.link.state := by
  induction run with
  | refl => exact .inr ⟨nofun, rfl⟩
  | @cons s e v es t step rest ih =>
    -- no step takes a call back, so the attempt is in flight all along
    have hv : v.stage i = .dialing := by
      have up := rank_step step i
      have down := rank_run rest i
      rw [← Stage.rank_eq_two] at hs ht ⊢
      omega
    obtain ⟨later, state⟩ | ⟨never, state⟩ := ih (guarded_step step g) hv ht
    · exact .inl ⟨.tail _ later, state⟩
    · obtain ⟨rfl, now⟩ | ⟨other, now⟩ := dialing_step g step hs hv
      · exact .inl ⟨.head _, state.trans now⟩
      · exact .inr ⟨by simp [other.symm, never], state.trans now⟩

/-- An attempt is in flight from the step that takes the link to connecting. -/
theorem begun_of_dialing (step : Step s e t) (hs : s.stage i ≠ .dialing)
    (ht : t.stage i = .dialing) : e = .begins i true ∧ t.link.state = .connecting := by
  have moved {j : ι} {g : Stage} {l : Link τ} (h : (s.move j g l).stage i = .dialing) :
      j = i ∧ g = .dialing := by
    by_cases same : i = j
    · subst same
      exact ⟨rfl, by simpa using h⟩
    · exact absurd ((move_stage_of_ne s j g l same).symm.trans h) hs
  cases step with
  | enter => exact absurd (moved (l := s.link) ht).2 nofun
  | leave => exact absurd (moved (l := s.link) ht).2 nofun
  | settle => exact absurd (moved ht).2 nofun
  | disconnect | answered | refused | drift => exact absurd ht hs
  | @begin j dials l _ begun =>
    obtain ⟨rfl, dialing⟩ := moved ht
    obtain ⟨rfl, -, -⟩ | ⟨rfl, -, connecting⟩ := Link.begin_cases begun
    · exact absurd dialing nofun
    · exact ⟨rfl, connecting⟩

/-- The result of a call is settled once, at the look that finds a connection or where its attempt
settles. -/
theorem result_step (step : Step s e t) (i : ι) :
    (t.stage i).result? = (s.stage i).result? ∨
      (s.stage i).result? = none ∧
        ((∃ outcome result, e = .settles i outcome result ∧
            (t.stage i).result? = some result) ∨
          e = .begins i false ∧ (t.stage i).result? = some (.ok ()) ∧
            s.link.state = .connected ∧ t.link.state = .connected) := by
  have other {j : ι} (g : Stage) (l : Link τ) (h : i ≠ j) :
      ((s.move j g l).stage i).result? = (s.stage i).result? := by
    rw [move_stage_of_ne s j g l h]
  cases step with
  | @enter j _ outside =>
    by_cases same : i = j
    · subst same
      exact .inl (by simp [outside])
    · exact .inl (other .admitted s.link same)
  | @begin j dials l admitted begun =>
    by_cases same : i = j
    · subst same
      obtain ⟨rfl, connected, rfl⟩ | ⟨rfl, -, -⟩ := Link.begin_cases begun
      · exact .inr ⟨by simp [admitted], .inr ⟨rfl, by simp, connected, connected⟩⟩
      · exact .inl (by simp [admitted])
    · exact .inl (other _ l same)
  | @settle j outcome result l dialing _ =>
    by_cases same : i = j
    · subst same
      exact .inr ⟨by simp [dialing], .inl ⟨outcome, result, rfl, by simp⟩⟩
    · exact .inl (other _ l same)
  | @leave j result leaving =>
    by_cases same : i = j
    · subst same
      exact .inl (by simp [leaving])
    · exact .inl (other (.returned result) s.link same)
  | disconnect | answered | refused | drift => exact .inl rfl

theorem result_run (run : Run s es t) {result : Except Error Unit}
    (h : (s.stage i).result? = some result) : (t.stage i).result? = some result := by
  induction run with
  | refl => exact h
  | cons step _ ih =>
    obtain same | ⟨unsettled, -⟩ := result_step step i
    · exact ih (same.trans h)
    · exact absurd (h.symm.trans unsettled) nofun

end CredentialEngine.Cluster
