import CredentialEngine.Proofs.Cluster.Sharing

/-!
# The discipline of a link

What any number of calls on one link keep to, in whatever order their steps come: one attempt at a
time, no connection over a disconnect, no request without a connection. A call to connect that
nothing comes between is one of these runs (`run_connect`).
-/
namespace CredentialEngine.Cluster

open Shared

variable {ι τ : Type} [DecidableEq ι] [Transport τ] {s t u : Shared ι τ} {es xs ys : List (Event ι)}
  {i : ι}

theorem settle_inv {outcome result : Except Error Unit} (step : Step s (.settles i outcome result) t) :
    s.stage i = .dialing ∧ s.link.settle outcome = (result, t.link) ∧
      t.stage i = .leaving result := by
  cases step with
  | settle dialing settled => exact ⟨dialing, settled, by simp⟩

/-- An attempt whose transport opened counts just if no disconnect came since it took the link to
connecting. -/
theorem settled_of_begun (g : Guarded s) (run : Run s (.begins i true :: es) t)
    {result : Except Error Unit} (step : Step t (.settles i (.ok ()) result) u) :
    .disconnects ∈ es ∧ result = .error .notConnected ∧ u.link.state = .disconnected ∨
      .disconnects ∉ es ∧ result = .ok () ∧ u.link.state = .connected := by
  obtain ⟨dialing, settled, -⟩ := settle_inv step
  cases run with
  | @cons _ _ v _ _ began rest =>
    have guarded := guarded_step began g
    obtain ⟨opened, connecting⟩ : v.stage i = .dialing ∧ v.link.state = .connecting := by
      cases began with
      | begin _ begun =>
        obtain ⟨h, -, -⟩ | ⟨-, -, connecting⟩ := Link.begin_cases begun
        · exact absurd h nofun
        · exact ⟨by simp, connecting⟩
    obtain ⟨cut, state⟩ | ⟨clear, state⟩ := dialing_run guarded rest opened dialing
    all_goals
      obtain ⟨_, h, -, -⟩ | ⟨-, rfl, before, after⟩ | ⟨-, rfl, before, same⟩ :=
        Link.settle_cases settled
    · exact absurd h nofun
    · exact absurd (state.symm.trans before) nofun
    · exact .inl ⟨cut, rfl, same ▸ state⟩
    · exact absurd h nofun
    · exact .inr ⟨clear, rfl, after⟩
    · exact absurd (state.trans connecting) before

theorem begins_mem (run : Run s es t) (hs : s.stage i ≠ .dialing) (ht : t.stage i = .dialing) :
    .begins i true ∈ es := by
  obtain ⟨xs, u, e, v, ys, rfl, -, turn, -, hu, hv⟩ :=
    run.turn (P := fun s => s.stage i = .dialing) hs ht
  obtain ⟨rfl, -⟩ := begun_of_dialing turn hu hv
  simp

/-- What is known after the steps `es` of a run that led from `s₀` to `s`, and about the step that
comes next. -/
structure Disciplined (s₀ : Shared ι τ) (es : List (Event ι)) (s : Shared ι τ) : Prop where
  alone : ∀ i j, (s.stage i).Inside → (s.stage j).Inside → i = j
  connecting : s.link.state = .connecting → ∃ i, s.stage i = .dialing
  /-- A connection is installed only where an attempt settles whose transport opened. -/
  installs : ∀ e t, Step s e t → s.link.state ≠ .connected → t.link.state = .connected →
    ∃ i, e = .settles i (.ok ()) (.ok ())
  /-- An attempt settles after it took the link to connecting. -/
  begun : ∀ i outcome result t, Step s (.settles i outcome result) t → .begins i true ∈ es
  current : ∀ i result t, Step s (.settles i (.ok ()) result) t →
    ∀ before since, es = before ++ .begins i true :: since → .disconnects ∉ since →
      result = .ok () ∧ t.link.state = .connected
  overtaken : ∀ i result t, Step s (.settles i (.ok ()) result) t →
    ∀ before since, es = before ++ .begins i true :: since → .disconnects ∈ since →
      result = .error .notConnected ∧ t.link.state = .disconnected
  failed : ∀ i cause result t, Step s (.settles i (.error cause) result) t →
    result = .error cause ∧ s.link.state ≠ .connected ∧ t.link.state = .disconnected
  /-- A call returns what it settled on. -/
  results : ∀ i outcome result, .settles i outcome result ∈ es →
    (s.stage i).result? = some result
  /-- A call that returns without an error saw the link connected at the step that settled this. -/
  ok : ∀ i, (s.stage i).result? = some (.ok ()) → ∃ before u e v after,
    es = before ++ e :: after ∧ Run s₀ before u ∧ Step u e v ∧ Run v after s ∧
      v.link.state = .connected ∧
      (e = .settles i (.ok ()) (.ok ()) ∨ e = .begins i false ∧ u.link.state = .connected)
  /-- After a disconnect requests are refused, unless an attempt that began since has installed a
  connection. -/
  refuses : ∀ subject payload answer t, Step s (.answers subject payload answer) t →
    ∀ before since, es = before ++ .disconnects :: since →
      answer = .error (.failed .notConnected) ∧ t = s ∨
        ∃ i a b c, since = a ++ .begins i true :: (b ++ .settles i (.ok ()) (.ok ()) :: c)

theorem refused_or_installed (g : Guarded s) (quiet : ∀ i, s.stage i = .outside)
    (run : Run s (xs ++ .disconnects :: ys) t) (connected : t.link.state = .connected) :
    ∃ i a b c, ys = a ++ .begins i true :: (b ++ .settles i (.ok ()) (.ok ()) :: c) := by
  obtain ⟨v, before, disconnected⟩ := run.split
  cases disconnected with
  | cons step rest =>
    cases step
    obtain ⟨a, u, e, w, c, rfl, between, turn, -, hu, hw⟩ :=
      rest.turn (P := fun s => s.link.state = .connected) nofun connected
    obtain ⟨i, rfl⟩ := connected_step turn hu hw
    have sofar := before.append (.cons .disconnect between)
    -- the attempt that installs it cannot have begun before the disconnect
    obtain early | late := List.mem_append.mp
      (begins_mem sofar (by simp [quiet i]) (settle_inv turn).1)
    · obtain ⟨p, q, rfl⟩ := List.append_of_mem early
      rw [List.append_assoc, List.cons_append] at sofar
      obtain ⟨x, first, opened⟩ := sofar.split
      obtain ⟨-, h, -⟩ | ⟨clear, -, -⟩ :=
        settled_of_begun (guarded_run first g) opened turn
      · exact absurd h nofun
      · exact absurd (by simp) clear
    · obtain ⟨p, q, rfl⟩ := List.append_of_mem ((List.mem_cons.mp late).resolve_left nofun)
      exact ⟨i, p, q, c, by simp⟩

/-- **Any calls on one link, in any order of their steps, keep to the discipline of the link.** -/
theorem run_disciplined {config : LinkConfig} {transport : τ}
    (run : Run { link := { config, transport } } es s) :
    Disciplined { link := { config, transport } } es s := by
  have fresh : Guarded ({ link := { config, transport } } : Shared ι τ) := .fresh config transport
  have g := guarded_run run fresh
  refine
    { alone := fun i j => g.alone, connecting := g.connecting,
      installs := fun e t => connected_step, begun := ?begun, current := ?current, overtaken := ?overtaken,
      failed := ?failed, results := ?results, ok := ?ok, refuses := ?refuses }
  case begun =>
    intro i outcome result t step
    exact begins_mem run nofun (settle_inv step).1
  case current =>
    rintro i result t step before since rfl clear
    obtain ⟨u, first, opened⟩ := run.split
    obtain ⟨cut, -⟩ | ⟨-, h⟩ := settled_of_begun (guarded_run first fresh) opened step
    · exact absurd cut clear
    · exact h
  case overtaken =>
    rintro i result t step before since rfl cut
    obtain ⟨u, first, opened⟩ := run.split
    obtain ⟨-, h⟩ | ⟨clear, -⟩ := settled_of_begun (guarded_run first fresh) opened step
    · exact h
    · exact absurd cut clear
  case failed =>
    intro i cause result t step
    obtain ⟨dialing, settled, -⟩ := settle_inv step
    have apart : s.link.state ≠ .connected := fun connected => g.connected connected i dialing
    obtain ⟨_, h, rfl, gone⟩ | ⟨h, -⟩ | ⟨h, -⟩ := Link.settle_cases settled
    · cases h
      exact ⟨rfl, apart, gone⟩
    · exact absurd h nofun
    · exact absurd h nofun
  case results =>
    intro i outcome result member
    obtain ⟨before, after, rfl⟩ := List.append_of_mem member
    obtain ⟨u, -, settling⟩ := run.split
    cases settling with
    | cons step rest => exact result_run rest (by simp [(settle_inv step).2.2])
  case ok =>
    intro i returned
    obtain ⟨before, u, e, v, after, rfl, first, turn, rest, hu, hv⟩ :=
      run.turn (P := fun s => (s.stage i).result? = some (.ok ())) nofun returned
    refine ⟨before, u, e, v, after, rfl, first, turn, rest, ?_⟩
    obtain same | ⟨-, ⟨outcome, result, rfl, h⟩ | ⟨rfl, -, found, still⟩⟩ := result_step turn i
    · exact absurd (same ▸ hv) hu
    · obtain rfl : result = .ok () := Option.some.inj (h.symm.trans hv)
      obtain ⟨_, -, h, -⟩ | ⟨rfl, -, -, connected⟩ | ⟨-, h, -, -⟩ :=
        Link.settle_cases (settle_inv turn).2.1
      · exact absurd h nofun
      · exact ⟨connected, .inl rfl⟩
      · exact absurd h nofun
    · exact ⟨still, .inr ⟨rfl, found⟩⟩
  case refuses =>
    rintro subject payload answer t step before since rfl
    by_cases connected : s.link.state = .connected
    · exact .inr (refused_or_installed fresh (fun _ => rfl) run connected)
    · have refused : s.link.request subject payload = .error (.failed .notConnected) s.link :=
        Link.request_of_ne connected
      cases step with
      | answered asked => exact absurd (refused.symm.trans asked) nofun
      | refused asked =>
        obtain ⟨rfl, rfl⟩ := EStateM.Result.error.inj (refused.symm.trans asked)
        exact .inl ⟨rfl, rfl⟩

/-! ### A call alone -/

theorem dial_link (credentials : Except Error Key.Bundle) (l : Link τ) :
    ∃ t, (l.dial credentials).2 = { l with transport := t } := by
  unfold Link.dial
  split
  · exact ⟨l.transport, rfl⟩
  · split
    · split <;> exact ⟨_, rfl⟩
    · exact ⟨l.transport, rfl⟩

/-- A call to connect that nothing comes between is one of the runs. -/
theorem run_connect (free : s.gate = none) (outside : s.stage i = .outside)
    (credentials : String → Except Error Key.Bundle) (space : String) :
    match s.link.connect credentials space with
    | .ok () l => ∃ es, Run s es (s.move i (.returned (.ok ())) l)
    | .error halt l => ∃ cause, halt = .failed cause ∧
        ∃ es, Run s es (s.move i (.returned (.error cause)) l) := by
  let held (g : Stage) (l : Link τ) : Shared ι τ := { s.move i g l with gate := some i }
  have entered : Step s (.enters i) (held .admitted s.link) := .enter free outside
  have began {dials l} (h : s.link.begin = (dials, l)) :
      Step (held .admitted s.link) (.begins i dials)
        (held (if dials then .dialing else .leaving (.ok ())) l) := by
    simpa [held, Shared.move] using Step.begin (s := held .admitted s.link) (i := i) (by simp [held]) h
  have drifted (l : Link τ) (t : τ) :
      Step (held .dialing l) .drifts (held .dialing { l with transport := t }) := .drift
  have settled {outcome result} {l l' : Link τ} (h : l.settle outcome = (result, l')) :
      Step (held .dialing l) (.settles i outcome result) (held (.leaving result) l') := by
    simpa [held, Shared.move] using Step.settle (s := held .dialing l) (i := i) (by simp [held]) h
  have left (result : Except Error Unit) (l : Link τ) :
      Step (held (.leaving result) l) (.leaves i result) (s.move i (.returned result) l) := by
    have leaving : (held (.leaving result) l).stage i = .leaving result := by simp [held]
    simpa [held, Shared.move, free] using Step.leave leaving
  match begun : s.link.begin with
  | (false, l) =>
    simp only [Link.connect, begun]
    exact ⟨_, .cons entered (.cons (began begun) (.cons (left _ _) .refl))⟩
  | (true, l) =>
    obtain ⟨t, dialed⟩ := dial_link (credentials space) l
    have finished {result l'} (h : (l.dial (credentials space)).2.settle (l.dial (credentials space)).1 =
        (result, l')) : ∃ es, Run s es (s.move i (.returned result) l') :=
      ⟨_, .cons entered (.cons (began begun) (.cons (drifted l t)
        (.cons (settled (dialed ▸ h)) (.cons (left _ _) .refl))))⟩
    match settling : (l.dial (credentials space)).2.settle (l.dial (credentials space)).1 with
    | (.ok (), l') =>
      simp only [Link.connect, begun, settling]
      exact finished settling
    | (.error cause, l') =>
      simp only [Link.connect, begun, settling]
      exact ⟨cause, rfl, finished settling⟩

/-! ### An attempt overtaken -/

/-- An attempt overtaken by a disconnect, a request in vain, and a second attempt that connects. -/
def overtakenCalls : List (Event Bool) :=
  [.enters true, .begins true true, .disconnects, .settles true (.ok ()) (.error .notConnected),
    .answers Cluster.updateSubject [] (.error (.failed .notConnected)),
    .leaves true (.error .notConnected), .enters false, .begins false true,
    .settles false (.ok ()) (.ok ()), .leaves false (.ok ())]

theorem run_overtakenCalls : ∃ s : Shared Bool Unreachable,
    Run { link := { config := {}, transport := ⟨"no server"⟩ } } overtakenCalls s :=
  ⟨_, .cons (.enter rfl rfl) <| .cons (.begin rfl rfl) <| .cons .disconnect <|
    .cons (.settle rfl rfl) <| .cons (.refused rfl) <| .cons (.leave rfl) <|
    .cons (.enter rfl rfl) <| .cons (.begin rfl rfl) <| .cons (.settle rfl rfl) <|
    .cons (.leave rfl) .refl⟩

theorem disciplined_overtakenCalls : ∃ s : Shared Bool Unreachable,
    Run { link := { config := {}, transport := ⟨"no server"⟩ } } overtakenCalls s ∧
      Disciplined { link := { config := {}, transport := ⟨"no server"⟩ } } overtakenCalls s :=
  let ⟨s, run⟩ := run_overtakenCalls
  ⟨s, run, run_disciplined run⟩

end CredentialEngine.Cluster
