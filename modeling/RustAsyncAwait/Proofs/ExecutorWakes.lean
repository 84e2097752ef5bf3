import RustAsyncAwait.Proofs.ExecutorPlaces

/-! No wake of a live task is lost. A wake can arrive during the task's own poll,
while the task sits in `polling`, or between any two steps; `run` drops the ids
it does not find in `waiting`, so at every `recv` all live tasks must be there. -/

namespace RustAsyncAwait.Executor
open Library

/-- Whether a waker of the future was called after the start of its latest poll. -/
def wokenSincePoll (future : Nat) (trace : List Event) : Bool :=
  trace.foldl (fun woken event =>
    match event with
    | .wake other => woken || other == future
    | .pop other => woken && other != future
    | _ => woken) false

theorem wokenSincePoll_snoc (future : Nat) (trace : List Event) (event : Event) :
    wokenSincePoll future (trace ++ [event]) =
      match event with
      | .wake other => wokenSincePoll future trace || other == future
      | .pop other => wokenSincePoll future trace && other != future
      | _ => wokenSincePoll future trace := by
  simp only [wokenSincePoll, List.foldl_append, List.foldl_cons, List.foldl_nil]

/-- The invariant behind the wakes: a live task that is not already to be polled
has its id in the channel from its wake on, also while its poll is going on. -/
def Queued (trace : List Event) (state : State) : Prop :=
  ∀ future, future < state.spawned → .ready future ∉ trace → wokenSincePoll future trace = true →
    state.InPolling future ∨ future ∈ state.channel

private theorem Queued.step {trace : List Event} {state next : State} {event : Event} {home : Nat → Option Place}
    (queued : Queued trace state) (tracks : Tracks trace state home) (stepped : Step state event next) :
    Queued (trace ++ [event]) next := by
  intro future inside unfinished woken
  rw [wokenSincePoll_snoc] at woken
  have live : .ready future ∉ trace := fun member => unfinished (List.mem_append_left _ member)
  have earlier (inside : future < state.spawned) := queued future inside live
  cases stepped with
  | spawn_rcv outside =>
    by_cases born : future < state.spawned
    · rcases earlier born woken with ⟨task, member, rfl⟩ | sent
      · exact .inl ⟨task, List.mem_append_left _ member, rfl⟩
      · exact .inr sent
    · have newest : future = state.spawned := by
        simp only [State.spawned, State.spawn_rcv, List.length_append, List.length_singleton] at inside born ⊢
        omega
      subst newest
      exact .inl ⟨⟨state.spawned, state.count⟩, by simp [State.spawn_rcv, State.spawned], rfl⟩
  | @wake other task_id made =>
    by_cases same : other = future
    · subst same
      have own : task_id = other := Option.some.inj (made.symm.trans (tracks.wakers other inside))
      exact .inr (by simp [State.send, own])
    · rcases earlier inside (by simpa [same] using woken) with waiting | sent
      · exact .inl waiting
      · exact .inr (List.mem_append_left _ sent)
  | @pop caller task rest control front =>
    simp only [Bool.and_eq_true, bne_iff_ne] at woken
    rcases earlier inside woken.1 with ⟨other, member, rfl⟩ | sent
    · rw [front, List.mem_cons] at member
      rcases member with rfl | member
      · exact absurd rfl woken.2
      · exact .inl ⟨other, member, rfl⟩
    · exact .inr sent
  | @drained caller control empty =>
    cases caller <;> exact earlier inside woken
  | run _ | poll _ | pending _ | ready _ | finish _ _ _ | block _ _ => exact earlier inside woken
  | @recv task_id rest control head =>
    have inside : future < state.spawned := by
      simp only [State.unpark] at inside
      split at inside <;> exact inside
    have idle : ¬ state.InPolling future := by
      intro queued
      obtain ⟨task, member, _⟩ := queued
      simp [tracks.drained (.inr control)] at member
    have sent := (earlier inside woken).resolve_left idle
    rw [head, List.mem_cons] at sent
    obtain ⟨place, placed⟩ := tracks.alive inside live
    have parked : state.waiting[future]? = some ⟨future, future⟩ := by
      refine (tracks.waiting _ _ _).mpr ⟨rfl, rfl, ?_⟩
      cases place with
      | waiting => exact placed
      | polling => exact absurd (tracks.inPolling.mpr placed) idle
      | polled =>
        obtain ⟨caller, task, polling, _⟩ := tracks.beingPolled.mpr placed
        rw [control] at polling
        cases polling
    simp only [State.unpark]
    rcases sent with rfl | sent
    · rw [parked]
      exact .inl ⟨⟨future, future⟩, by simp, rfl⟩
    · split <;> exact .inr sent

theorem queued {trace : List Event} {state : State} (reaches : executor.Reaches trace state)
    (fits : state.spawned ≤ usizeSize) : Queued trace state := by
  refine reaches.trace_invariant (fun trace state => state.spawned ≤ usizeSize → Queued trace state) ?_ ?_ fits
  · intro _ future inside
    exact absurd inside (Nat.not_lt_zero _)
  · intro trace state event next reached earlier stepped fits
    have stepped := step_cases stepped
    have fits := Nat.le_trans stepped.spawned_le fits
    obtain ⟨home, tracks⟩ := tracked reached fits
    exact (earlier fits).step tracks stepped

/-- What the executor owes the wakers in a state reached by `trace`: a wake of an
uncompleted task is still to be acted on, and receiving it acts on it. -/
structure WakesKept (trace : List Event) (state : State) : Prop where
  kept : ∀ future task_id, state.wakers[future]? = some task_id → .ready future ∉ trace →
    wokenSincePoll future trace = true →
      state.InPolling future ∨ state.BeingPolled future ∨ task_id ∈ state.channel
  received : ∀ future task_id next, state.wakers[future]? = some task_id → .ready future ∉ trace →
    step state (.recv task_id) = some next →
      ∃ task : Task, state.waiting[task_id]? = some task ∧ task.future = future ∧ next.polling = [task]
  repolled : ∀ future task_id next event after, state.wakers[future]? = some task_id → .ready future ∉ trace →
    step state (.recv task_id) = some next → step next event = some after →
      event = .pop future ∨ ∃ other, event = .wake other

private theorem received_waiting {trace : List Event} {state next : State} {future : Nat}
    {home : Nat → Option Place} (tracks : Tracks trace state home) (inside : future < state.spawned)
    (unfinished : .ready future ∉ trace) (stepped : step state (.recv future) = some next) :
    state.waiting[future]? = some ⟨future, future⟩ ∧ next.polling = [⟨future, future⟩] ∧
      next.control = .poll .run := by
  cases step_cases stepped with
  | @recv _ rest control head =>
    have empty := tracks.drained (.inr control)
    obtain ⟨place, placed⟩ := tracks.alive inside unfinished
    have parked : home future = some .waiting := by
      cases place with
      | waiting => exact placed
      | polling =>
        have member := (tracks.polling future future).mpr ⟨rfl, placed⟩
        simp [empty] at member
      | polled =>
        have held := (tracks.polled future future).mpr ⟨rfl, placed⟩
        simp [control, Control.held] at held
    have found := (tracks.waiting future future future).mpr ⟨rfl, rfl, parked⟩
    simp [State.unpark, found, empty]

/-- No wake of a live task is lost: once its id is received, the executor's very
next own step polls it again. -/
theorem wakes_kept {trace : List Event} {state : State} (reaches : executor.Reaches trace state)
    (fewer : trace.count .spawn_rcv ≤ usizeSize) : WakesKept trace state := by
  have fits : state.spawned ≤ usizeSize := by rwa [spawned_eq reaches]
  obtain ⟨home, tracks⟩ := tracked reaches fits
  have own {future task_id} (made : state.wakers[future]? = some task_id) :
      future < state.spawned ∧ task_id = future := by
    have inside : future < state.spawned := (List.getElem?_eq_some_iff.mp made).1
    exact ⟨inside, Option.some.inj (made.symm.trans (tracks.wakers future inside))⟩
  refine ⟨?_, ?_, ?_⟩
  · intro future task_id made unfinished woken
    obtain ⟨inside, rfl⟩ := own made
    rcases queued reaches fits task_id inside unfinished woken with waiting | sent
    · exact .inl waiting
    · exact .inr (.inr sent)
  · intro future task_id next made unfinished stepped
    obtain ⟨inside, rfl⟩ := own made
    obtain ⟨found, moved, _⟩ := received_waiting tracks inside unfinished stepped
    exact ⟨_, found, rfl, moved⟩
  · intro future task_id next event after made unfinished stepped later
    obtain ⟨inside, rfl⟩ := own made
    obtain ⟨_, moved, control⟩ := received_waiting tracks inside unfinished stepped
    cases step_cases later with
    | @pop _ task rest _ front =>
      rw [moved] at front
      cases front
      exact .inl rfl
    | wake made => exact .inr ⟨_, rfl⟩
    | spawn_rcv outside => simp [control] at outside
    | drained _ empty => simp [moved] at empty
    | run other | poll other | pending other | ready other | finish other _ _ | block other _ | recv other _ =>
      rw [control] at other
      cases other

/-- A task that wakes itself in its poll and is woken again before its id is received. -/
theorem wakes_kept_early_wake :
    let trace : List Event := [.spawn_rcv, .run, .pop 0, .wake 0, .pending 0, .wake 0, .drained, .block]
    ∃ state, executor.Reaches trace state ∧ WakesKept trace state := by
  intro trace
  have runs : (executor.runFrom executor.init trace).isSome = true := by decide
  obtain ⟨state, reaches⟩ := Option.isSome_iff_exists.mp runs
  exact ⟨state, reaches, wakes_kept reaches (by decide)⟩

end RustAsyncAwait.Executor
