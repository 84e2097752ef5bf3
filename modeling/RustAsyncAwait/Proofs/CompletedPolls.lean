import RustAsyncAwait.ScheduledCoroutine
import RustAsyncAwait.Library.Lists

/-! When the executor polls a future that has completed. A task stays in the
channel as often as it was woken, and `run` drops the result of each poll. -/

namespace RustAsyncAwait.ScheduledCoroutine
open Library

/-- The future was polled once more after it had returned `Ready`. -/
def PolledAfterReady (trace : List Event) (task : Nat) : Prop := [.ready task, .recv task].Sublist trace

/-- A task completes while no copy of it is in the channel, and is not woken afterwards. -/
def Unqueued : List Event × State → Event → Prop
  | (_, state), .ready task => task ∉ state.channel
  | (trace, _), .wake task => .ready task ∉ trace
  | _, _ => True

instance (state : List Event × State) (event : Event) : Decidable (Unqueued state event) := by
  cases event <;> unfold Unqueued <;> infer_instance

/-- What can happen to a task: it is sent, received, or its poll returns. -/
inductive Step : State → Event → State → Prop
  | spawn {state} (room : state.channel.length < capacity) :
      Step state .spawn { state with channel := state.channel ++ [state.spawned], spawned := state.spawned + 1 }
  | wake {state task} (made : task < state.spawned) (room : state.channel.length < capacity) :
      Step state (.wake task) { state with channel := state.channel ++ [task] }
  | recv {state task rest} (idle : state.running = none) (head : state.channel = task :: rest) :
      Step state (.recv task) { state with channel := rest, running := some task }
  | pending {state task} (running : state.running = some task) : Step state (.pending task) { state with running := none }
  | ready {state task} (running : state.running = some task) : Step state (.ready task) { state with running := none }

theorem step_cases {state next : State} {event : Event} (stepped : step state event = some next) :
    Step state event next := by
  cases event with
  | spawn =>
    simp only [step, State.send, Option.ite_none_right_eq_some, Option.some.injEq] at stepped
    obtain ⟨room, rfl⟩ := stepped
    exact .spawn room
  | wake task =>
    simp only [step, State.send, Option.ite_none_right_eq_some, Option.some.injEq] at stepped
    obtain ⟨made, room, rfl⟩ := stepped
    exact .wake made room
  | recv task =>
    simp only [step] at stepped
    split at stepped
    next first rest idle head =>
      simp only [Option.ite_none_right_eq_some, Option.some.injEq] at stepped
      obtain ⟨rfl, rfl⟩ := stepped
      exact .recv idle head
    next => cases stepped
  | pending task =>
    simp only [step, Option.ite_none_right_eq_some, Option.some.injEq] at stepped
    obtain ⟨running, rfl⟩ := stepped
    exact .pending running
  | ready task =>
    simp only [step, Option.ite_none_right_eq_some, Option.some.injEq] at stepped
    obtain ⟨running, rfl⟩ := stepped
    exact .ready running

/-- A completed task is nowhere any more. -/
structure Finished (trace : List Event) (state : State) : Prop where
  made : ∀ task, task ∈ state.channel ∨ state.running = some task → task < state.spawned
  gone : ∀ task, .ready task ∈ trace → task < state.spawned ∧ task ∉ state.channel ∧ state.running ≠ some task
  once : ∀ task, ¬ PolledAfterReady trace task

private theorem finished_step {trace : List Event} {state next : State} {event : Event} (finished : Finished trace state)
    (unqueued : Unqueued (trace, state) event) (stepped : Step state event next) : Finished (trace ++ [event]) next := by
  have before : ∀ {task}, .ready task ∈ trace ++ [event] → event ≠ .ready task → .ready task ∈ trace := by
    intro task member other
    rcases List.mem_append.mp member with old | new
    · exact old
    · exact absurd (List.mem_singleton.mp new).symm other
  have once : ∀ {task}, PolledAfterReady (trace ++ [event]) task → .ready task ∈ trace ∧ .recv task = event := by
    intro task polled
    exact (before_snoc.mp polled).resolve_left (finished.once task)
  cases stepped with
  | spawn room =>
    refine ⟨?_, ?_, fun task polled => nomatch (once polled).2⟩
    · intro task somewhere
      simp only [List.mem_append, List.mem_singleton] at somewhere
      rcases somewhere with (queued | rfl) | running
      · exact Nat.lt_succ_of_lt (finished.made task (.inl queued))
      · exact Nat.lt_succ_self _
      · exact Nat.lt_succ_of_lt (finished.made task (.inr running))
    · intro task ready
      obtain ⟨made, unsent, unpolled⟩ := finished.gone task (before ready (by simp))
      refine ⟨Nat.lt_succ_of_lt made, ?_, unpolled⟩
      simp only [List.mem_append, List.mem_singleton, not_or]
      exact ⟨unsent, Nat.ne_of_lt made⟩
  | @wake woken made room =>
    refine ⟨?_, ?_, fun task polled => nomatch (once polled).2⟩
    · intro task somewhere
      simp only [List.mem_append, List.mem_singleton] at somewhere
      rcases somewhere with (queued | rfl) | running
      · exact finished.made task (.inl queued)
      · exact made
      · exact finished.made task (.inr running)
    · intro task ready
      obtain ⟨made, unsent, unpolled⟩ := finished.gone task (before ready (by simp))
      refine ⟨made, ?_, unpolled⟩
      simp only [List.mem_append, List.mem_singleton, not_or]
      refine ⟨unsent, fun same => unqueued ?_⟩
      rw [← same]
      exact before ready (by simp)
  | @recv received rest idle head =>
    have queued : received ∈ state.channel := by rw [head]; exact List.mem_cons_self ..
    have later : ∀ {task}, task ∈ rest → task ∈ state.channel := by
      intro task member
      rw [head]
      exact List.mem_cons_of_mem _ member
    refine ⟨?_, ?_, ?_⟩
    · intro task somewhere
      rcases somewhere with member | running
      · exact finished.made task (.inl (later member))
      · cases running
        exact finished.made received (.inl queued)
    · intro task ready
      obtain ⟨made, unsent, _⟩ := finished.gone task (before ready (by simp))
      refine ⟨made, fun member => unsent (later member), fun running => unsent ?_⟩
      cases running
      exact queued
    · intro task polled
      obtain ⟨ready, same⟩ := once polled
      cases same
      exact (finished.gone received ready).2.1 queued
  | @pending polled running =>
    refine ⟨?_, ?_, fun task polled => nomatch (once polled).2⟩
    · intro task somewhere
      exact finished.made task (.inl (somewhere.resolve_right (by simp)))
    · intro task ready
      obtain ⟨made, unsent, _⟩ := finished.gone task (before ready (by simp))
      exact ⟨made, unsent, by simp⟩
  | @ready polled running =>
    refine ⟨?_, ?_, fun task polled => nomatch (once polled).2⟩
    · intro task somewhere
      exact finished.made task (.inl (somewhere.resolve_right (by simp)))
    · intro task ready
      by_cases same : task = polled
      · rw [same]
        exact ⟨finished.made polled (.inr running), unqueued, by simp⟩
      · obtain ⟨made, unsent, _⟩ := finished.gone task (before ready (by simpa using Ne.symm same))
        exact ⟨made, unsent, by simp⟩

/-- No future is polled after completion in any run in which tasks complete
without a copy in the channel and are left alone then. -/
theorem no_poll_after_ready {trace final : List Event} {state : State}
    (reaches : (executor.traced.restrict Unqueued).Reaches trace (final, state)) (task : Nat) :
    ¬ PolledAfterReady trace task := by
  have finished : final = trace ∧ Finished trace state := by
    refine reaches.guarded_invariant Finished ?_ fun trace state event next unqueued finished stepped =>
      finished_step finished unqueued (step_cases stepped)
    exact ⟨fun task somewhere => by simp [executor] at somewhere, fun task ready => (nomatch ready),
      fun task polled => nomatch polled⟩
  exact finished.2.once task

/-- Task 0 wakes itself in one poll and completes in the next, with task 1 behind it. -/
theorem no_poll_after_ready_woken :
    let trace : List Event := [.spawn, .spawn, .recv 0, .wake 0, .pending 0, .recv 1, .ready 1, .recv 0, .ready 0]
    ∃ pair, (executor.traced.restrict Unqueued).Reaches trace pair ∧ ¬ PolledAfterReady trace 0 := by
  intro trace
  have runs : ((executor.traced.restrict Unqueued).runFrom (executor.traced.restrict Unqueued).init trace).isSome = true := by
    decide +kernel
  obtain ⟨pair, reaches⟩ := Option.isSome_iff_exists.mp runs
  exact ⟨pair, reaches, no_poll_after_ready reaches 0⟩

/-- A future that wakes itself twice in one poll and is ready in the next. -/
theorem polled_after_ready :
    ¬ ∀ (trace : List Event) (state : State) (task : Nat), executor.Reaches trace state → ¬ PolledAfterReady trace task := by
  intro once
  have runs : (executor.runFrom executor.init
      [.spawn, .recv 0, .wake 0, .wake 0, .pending 0, .recv 0, .ready 0, .recv 0]).isSome = true := by decide +kernel
  obtain ⟨state, reaches⟩ := Option.isSome_iff_exists.mp runs
  exact once _ state 0 reaches (by unfold PolledAfterReady; decide)

/-- `run` receives these tasks one after the other, and each is pending. -/
def rounds (tasks : List Nat) : List Event := tasks.flatMap fun task => [.recv task, .pending task]

/-- `run` gets to every task in the channel while the tasks before it return `Pending`. -/
theorem runs_to (front : List Nat) {state : State} {task : Nat} {back : List Nat} (idle : state.running = none)
    (channel : state.channel = front ++ task :: back) :
    executor.runFrom state (rounds front ++ [.recv task]) = some { state with channel := back, running := some task } := by
  induction front generalizing state with
  | nil => simp [rounds, executor, step, idle, channel]
  | cons first front ih =>
    have received : executor.step state (.recv first) =
        some { state with channel := front ++ task :: back, running := some first } := by
      simp [executor, step, idle, channel]
    have parked : executor.step { state with channel := front ++ task :: back, running := some first } (.pending first) =
        some { state with channel := front ++ task :: back, running := none } := by
      simp [executor, step]
    simp only [rounds, List.flatMap_cons, List.cons_append, List.nil_append, Machine.runFrom_cons, received, parked,
      Option.bind_some]
    exact @ih { state with channel := front ++ task :: back, running := none } rfl rfl

/-- A completed task that is in the channel is polled again, by steps of `run` alone. -/
theorem queued_is_polled {trace : List Event} {state : State} {task : Nat} (ready : .ready task ∈ trace)
    (queued : task ∈ state.channel) :
    ∃ rest last, executor.runFrom state rest = some last ∧ PolledAfterReady (trace ++ rest) task := by
  obtain ⟨front, back, channel⟩ := List.append_of_mem queued
  have polled : ∀ steps, PolledAfterReady (trace ++ (steps ++ [.recv task])) task := by
    intro steps
    exact (List.singleton_sublist.mpr ready).append (List.sublist_append_right steps [.recv task])
  cases running : state.running with
  | none => exact ⟨_, _, runs_to front running channel, polled _⟩
  | some current =>
    have parked : executor.step state (.pending current) = some { state with running := none } := by
      simp [executor, step, running]
    refine ⟨_, { state with channel := back, running := some task }, ?_, polled (.pending current :: rounds front)⟩
    rw [List.cons_append, Machine.runFrom_cons, parked]
    exact @runs_to front { state with running := none } _ _ rfl channel

/-- Each step that breaks the condition lets `run` poll a completed future. -/
theorem queued_breaks {trace : List Event} {state next : State} {event : Event} (breaks : ¬ Unqueued (trace, state) event)
    (stepped : executor.step state event = some next) :
    ∃ rest last task, executor.runFrom next rest = some last ∧ PolledAfterReady (trace ++ event :: rest) task := by
  have found : ∃ task, .ready task ∈ trace ++ [event] ∧ task ∈ next.channel := by
    cases step_cases stepped with
    | @ready task running => exact ⟨task, by simp, Decidable.not_not.mp breaks⟩
    | @wake task made room => exact ⟨task, by simp [Decidable.not_not.mp breaks], by simp⟩
    | spawn | recv | pending => exact absurd trivial breaks
  obtain ⟨task, ready, queued⟩ := found
  obtain ⟨rest, last, runs, polled⟩ := queued_is_polled ready queued
  rw [List.append_assoc] at polled
  exact ⟨rest, last, task, runs, polled⟩

end RustAsyncAwait.ScheduledCoroutine
