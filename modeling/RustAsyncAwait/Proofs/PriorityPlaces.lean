import RustAsyncAwait.Proofs.PriorityTurns
import Mathlib.Data.List.Nodup

/-! Where the tasks of the priority runtime are, and which of them are to be run. -/

namespace RustAsyncAwait.PriorityRuntime
open Library

variable {state next : State} {event : Event} {task : Nat}

/-- How many workers run a task in this state. -/
def TaskState.runners : TaskState → Nat
  | .running _ => 1
  | .scheduled | .waiting | .complete => 0

def State.runners (state : State) (task : Nat) : Nat := state.workers.countP fun worker => worker.place = .run task

def State.held (state : State) (task : Nat) : Nat := state.tasks[task]?.elim 0 fun found => found.state.runners

theorem runners_set {worker : Nat} {own order : FutureType} {place other : Place}
    (here : state.workers[worker]? = some ⟨own, place⟩) (tasks : List Task) (task : Nat) :
    { state with tasks, workers := state.workers.set worker ⟨order, other⟩ }.runners task +
        (if place = .run task then 1 else 0) =
      state.runners task + if other = .run task then 1 else 0 := by
  simpa [State.runners] using
    countP_set (fun worker : Worker => decide (worker.place = .run task)) state.workers worker ⟨order, other⟩ _ here

theorem held_set {found : Task} (at_task : state.tasks[task]? = some found) (new : Task) (workers : List Worker) (other : Nat) :
    { state with tasks := state.tasks.set task new, workers }.held other =
      if task = other then new.state.runners else state.held other := by
  simp only [State.held, getElem?_set_found at_task]
  split <;> rfl

@[simp] theorem runners_schedule (state : State) (task other : Nat) (order : FutureType) :
    (state.schedule task order).runners other = state.runners other := by
  rw [State.runners, schedule_workers, State.runners]

theorem held_schedule {found : Task} (at_task : state.tasks[task]? = some found) (order : FutureType) (other : Nat) :
    (state.schedule task order).held other = if task = other then 0 else state.held other := by
  simp only [State.held, schedule_tasks, getElem?_set_found at_task]
  split <;> rfl

/-- A scheduled task is in its own channel, once, and in no other one. A running
task is run by one worker. -/
structure Placed (state : State) : Prop where
  queued : Queued state
  scheduled : ∀ task order, state.tasks[task]? = some ⟨order, .scheduled⟩ → task ∈ state.channel order
  runs : ∀ task, state.runners task = state.held task

namespace Placed

theorem unheld (placed : Placed state) {found : Task} (at_task : state.tasks[task]? = some found)
    (idle : found.state.runners = 0) : state.runners task = 0 := by
  rw [placed.runs, State.held, at_task]
  exact idle

/-- A task that no worker runs is put into its channel. -/
theorem schedule (placed : Placed state) {order other : FutureType} {place : TaskState}
    (at_task : state.tasks[task]? = some ⟨order, place⟩) (off : place ≠ .scheduled) (idle : state.runners task = 0) :
    Placed (state.schedule task other) where
  queued := placed.queued.schedule (placed.queued.absent at_task off) (List.getElem?_eq_some_iff.mp at_task).1 other
  scheduled := by
    intro id kind found
    rw [schedule_tasks, getElem?_set_found at_task] at found
    rw [channel_schedule]
    split at found
    · rename_i same
      cases found
      rw [if_pos rfl, same]
      exact List.mem_append_right _ (List.mem_singleton_self _)
    · have member := placed.scheduled id kind found
      split
      · rename_i same
        rw [← same]
        exact List.mem_append_left _ member
      · exact member
  runs := by
    intro id
    rw [runners_schedule, held_schedule at_task]
    split
    · rename_i same
      rw [← same]
      exact idle
    · exact placed.runs id

/-- A worker leaves the task it has run. -/
theorem ends (placed : Placed state) {worker : Nat} {own order : FutureType} {woken : Bool} {place : TaskState}
    (here : state.workers[worker]? = some ⟨own, .run task⟩) (running : state.tasks[task]? = some ⟨order, .running woken⟩)
    (idle : place.runners = 0) (off : place ≠ .scheduled) :
    Placed { state with
      workers := state.workers.set worker ⟨own, .top⟩
      tasks := state.tasks.set task ⟨order, place⟩ } where
  queued := placed.queued.set (placed.queued.absent running (by simp)) _ _
  scheduled := by
    intro id kind found
    rw [getElem?_set_found running] at found
    rw [channel_with]
    split at found
    · cases found
      exact absurd rfl off
    · exact placed.scheduled id kind found
  runs := by
    intro id
    have traded := @runners_set state worker own own (.run task) .top here (state.tasks.set task ⟨order, place⟩) id
    have before := placed.runs id
    rw [held_set running, idle]
    by_cases same : task = id
    · subst same
      simp only [State.held, running, Option.elim_some, TaskState.runners] at before
      simp only [if_true, reduceCtorEq, if_false] at traded ⊢
      omega
    · have other : Place.run task ≠ .run id := by simpa using same
      rw [if_neg other] at traded
      rw [if_neg same, ← before]
      simpa using traded

theorem takes (placed : Placed state) {worker : Nat} {own channel : FutureType} {place : Place} {rest : List Nat}
    (here : state.workers[worker]? = some ⟨own, place⟩) (idle : ∀ id, place ≠ .run id)
    (first : state.channel channel = task :: rest) :
    Placed { state.set_channel channel rest with
      tasks := state.tasks.set task ⟨channel, .running false⟩
      workers := state.workers.set worker ⟨own, .run task⟩ } where
  queued := placed.queued.takes first _ _
  scheduled := by
    intro id kind found
    have at_task := (placed.queued channel).2 task (by rw [first]; exact List.mem_cons_self ..)
    rw [getElem?_set_found at_task] at found
    rw [channel_with, channel_set_channel]
    split at found
    · cases found
    · rename_i different
      have member := placed.scheduled id kind found
      split
      · rename_i same
        rw [same, first] at member
        exact (List.mem_cons.mp member).resolve_left (Ne.symm different)
      · exact member
  runs := by
    intro id
    have at_task := (placed.queued channel).2 task (by rw [first]; exact List.mem_cons_self ..)
    have traded := @runners_set state worker own own place (.run task) here (state.tasks.set task ⟨channel, .running false⟩) id
    have before := placed.runs id
    rw [if_neg (idle id), Nat.add_zero] at traded
    have held := held_set at_task ⟨channel, .running false⟩ (state.workers.set worker ⟨own, .run task⟩) id
    simp only [State.runners, State.held] at traded before held ⊢
    rw [traded, before, held]
    by_cases same : task = id
    · subst same
      simp [at_task, TaskState.runners]
    · simp [same]

end Placed

theorem schedule_set (state : State) (task : Nat) (order : FutureType) (changed : Task) :
    { state with tasks := state.tasks.set task changed }.schedule task order = state.schedule task order := by
  cases order <;> simp [State.schedule, State.set_channel, State.channel]

theorem schedule_new (state : State) (order : FutureType) (one other : Task) :
    { state with tasks := state.tasks ++ [one] }.schedule state.tasks.length order =
      { state with tasks := state.tasks ++ [other] }.schedule state.tasks.length order := by
  cases order <;> simp [State.schedule, State.set_channel, State.channel]

/-- A task that has been made, but is not scheduled yet. -/
theorem Placed.made (placed : Placed state) (order : FutureType) :
    Placed { state with tasks := state.tasks ++ [⟨order, .waiting⟩] } where
  queued := by
    intro kind
    refine ⟨(placed.queued kind).1, fun id member => ?_⟩
    have scheduled := (placed.queued kind).2 id member
    exact (List.getElem?_append_left (List.getElem?_eq_some_iff.mp scheduled).1).trans scheduled
  scheduled := by
    intro id kind found
    rcases Nat.lt_or_ge id state.tasks.length with old | new
    · exact placed.scheduled id kind ((List.getElem?_append_left old).symm.trans found)
    · rw [List.getElem?_append_right new] at found
      cases (singleton_getElem?.mp found).2
  runs := by
    intro id
    have before := placed.runs id
    simp only [State.runners, State.held] at before ⊢
    rw [before]
    rcases Nat.lt_or_ge id state.tasks.length with old | new
    · rw [List.getElem?_append_left old]
    · rw [List.getElem?_append_right new, List.getElem?_eq_none new]
      cases found : [(⟨order, .waiting⟩ : Task)][id - state.tasks.length]? with
      | none => rfl
      | some task =>
        rw [← (singleton_getElem?.mp found).2]
        rfl

theorem Placed.step (placed : Placed state) (stepped : Step state event next) : Placed next := by
  cases stepped with
  | @spawn order grown made =>
    subst made
    rw [schedule_new state order _ ⟨order, .waiting⟩]
    have waiting : (state.tasks ++ [(⟨order, .waiting⟩ : Task)])[state.tasks.length]? = some ⟨order, .waiting⟩ := by simp
    exact (placed.made order).schedule waiting (by simp) ((placed.made order).unheld waiting rfl)
  | wakes waiting => exact placed.schedule waiting (by simp) (placed.unheld waiting rfl)
  | @notes task order woken running =>
    refine ⟨placed.queued.set (placed.queued.absent running (by simp)) _ _, ?_, ?_⟩
    · intro id kind found
      rw [getElem?_set_found running] at found
      split at found
      · cases found
      · exact placed.scheduled id kind found
    · intro id
      have before := placed.runs id
      rw [held_set running]
      split
      · rename_i same
        subst same
        rw [State.held, running] at before
        exact before
      · exact before
  | ignores => exact placed
  | @misses _ worker own channel place missed called here empty =>
    refine ⟨placed.queued, placed.scheduled, fun id => ?_⟩
    have traded := @runners_set state worker own own place missed here state.tasks id
    have apart : place ≠ .run id ∧ missed ≠ .run id := by cases called <;> simp
    rw [if_neg apart.1, if_neg apart.2] at traded
    exact traded.trans (placed.runs id)
  | takes called here first => exact placed.takes here (by cases called <;> simp) first
  | @reschedules worker task own order left here running made =>
    subst made
    have parked : Placed { state with
        workers := state.workers.set worker ⟨own, .top⟩
        tasks := state.tasks.set task ⟨order, .waiting⟩ } := placed.ends here running rfl (by simp)
    have waiting : (state.tasks.set task ⟨order, .waiting⟩)[task]? = some ⟨order, .waiting⟩ := by
      rw [getElem?_set_found running, if_pos rfl]
    rw [← schedule_set _ task order ⟨order, .waiting⟩]
    exact parked.schedule waiting (by simp) (parked.unheld waiting rfl)
  | parks here running => exact placed.ends here running rfl (by simp)
  | completes here running => exact placed.ends here running rfl (by simp)

theorem reaches_placed {runtime : Runtime} {trace : List Event} (reaches : (run runtime).Reaches trace state) : Placed state := by
  refine reaches.invariant Placed ?_ fun _ _ _ placed stepped => placed.step (step_cases stepped)
  refine ⟨?_, by simp [run], ?_⟩
  · intro order
    cases order <;> exact ⟨List.nodup_nil, fun task member => (by cases member)⟩
  · intro task
    simp [run, State.runners, State.held, List.countP_map, Function.comp_def]

/-- The tasks spawned so far, and whether this one has been spawned or woken
since a worker has last received its `Runnable`. -/
def call (task : Nat) (so_far : Nat × Bool) : Event → Nat × Bool
  | .spawn_task _ => (so_far.1 + 1, so_far.2 || so_far.1 == task)
  | .wake woken => (so_far.1, so_far.2 || woken == task)
  | .try_recv _ found | .steal _ found => (so_far.1, so_far.2 && found != some task)
  | .pending _ _ | .ready _ _ => so_far

def called (task : Nat) (trace : List Event) : Bool := (trace.foldl (call task) (0, false)).2

/-- The task's `Runnable` is in a channel, or will be put there after this run. -/
def TaskState.due : TaskState → Bool
  | .scheduled => true
  | .running woken => woken
  | .waiting | .complete => false

/-- A task that is not complete is due to be run exactly if it has been called. -/
structure Due (trace : List Event) (state : State) : Prop where
  spawned : ∀ task, (trace.foldl (call task) (0, false)).1 = state.tasks.length
  due : ∀ task order place, state.tasks[task]? = some ⟨order, place⟩ → place ≠ .complete → called task trace = place.due
  unspawned : ∀ task, state.tasks.length ≤ task → called task trace = false

theorem called_snoc (task : Nat) (trace : List Event) (event : Event) :
    called task (trace ++ [event]) = (call task (trace.foldl (call task) (0, false)) event).2 := by
  rw [called, List.foldl_append, List.foldl_cons, List.foldl_nil]

/-- A woken task is due, if it is not complete. -/
theorem wake_due (stepped : step state (.wake task) = some next) {order : FutureType} {place : TaskState}
    (found : next.tasks[task]? = some ⟨order, place⟩) (open_ : place ≠ .complete) : place.due = true := by
  simp only [step] at stepped
  split at stepped
  · rename_i waiting
    cases stepped
    rw [schedule_tasks, getElem?_set_found waiting, if_pos rfl] at found
    cases found
    rfl
  · rename_i running
    cases stepped
    rw [getElem?_set_found running, if_pos rfl] at found
    cases found
    rfl
  · rename_i unwaiting unrunning parked
    cases stepped
    rw [parked] at found
    cases found
    cases place with
    | scheduled => rfl
    | running woken => exact absurd rfl (unrunning order woken)
    | waiting => exact absurd rfl (unwaiting order)
    | complete => exact absurd rfl open_
  · cases stepped

/-- A wake changes nothing but its own task. -/
theorem wake_other (stepped : step state (.wake task) = some next) :
    next.tasks.length = state.tasks.length ∧ task < state.tasks.length ∧
      ∀ other, task ≠ other → next.tasks[other]? = state.tasks[other]? := by
  simp only [step] at stepped
  split at stepped
  · rename_i waiting
    cases stepped
    rw [schedule_tasks, List.length_set]
    exact ⟨rfl, (List.getElem?_eq_some_iff.mp waiting).1, fun other different => List.getElem?_set_ne different⟩
  · rename_i running
    cases stepped
    rw [List.length_set]
    exact ⟨rfl, (List.getElem?_eq_some_iff.mp running).1, fun other different => List.getElem?_set_ne different⟩
  · rename_i _ _ found
    cases stepped
    exact ⟨rfl, (List.getElem?_eq_some_iff.mp found).1, fun _ _ => rfl⟩
  · cases stepped

namespace Due
variable {trace : List Event}

/-- A step that calls no task and starts no run. -/
theorem keep (due : Due trace state) (length : next.tasks.length = state.tasks.length)
    (silent : ∀ task so_far, call task so_far event = so_far)
    (same : ∀ (task : Nat) (order : FutureType) (place : TaskState), next.tasks[task]? = some ⟨order, place⟩ →
      place ≠ .complete → ∃ kind before, state.tasks[task]? = some ⟨kind, before⟩ ∧ before ≠ .complete ∧ before.due = place.due) :
    Due (trace ++ [event]) next := by
  have called_same (task : Nat) : called task (trace ++ [event]) = called task trace := by
    rw [called_snoc, silent, called]
  refine ⟨?_, ?_, ?_⟩
  · intro task
    rw [List.foldl_append, List.foldl_cons, List.foldl_nil, silent, due.spawned, length]
  · intro task order place found open_
    obtain ⟨kind, before, earlier, unfinished, equal⟩ := same task order place found open_
    rw [called_same, due.due task kind before earlier unfinished, equal]
  · intro task above
    rw [called_same]
    exact due.unspawned task (length ▸ above)

theorem spawn (due : Due trace state) (order : FutureType) :
    Due (trace ++ [.spawn_task order])
      ({ state with tasks := state.tasks ++ [(⟨order, .scheduled⟩ : Task)] }.schedule state.tasks.length order) := by
  have called_or (task : Nat) : called task (trace ++ [.spawn_task order]) = (called task trace || state.tasks.length == task) := by
    rw [called_snoc, call, due.spawned, called]
  refine ⟨?_, ?_, ?_⟩
  · intro task
    simp [List.foldl_append, call, due.spawned]
  · intro task kind place found open_
    rw [called_or]
    simp only [schedule_tasks] at found
    rcases Nat.lt_trichotomy task state.tasks.length with old | new | above
    · rw [List.getElem?_set_ne (by omega), List.getElem?_append_left old] at found
      rw [due.due task kind place found open_, beq_false_of_ne (by omega), Bool.or_false]
    · subst new
      rw [List.getElem?_set_self (by simp)] at found
      cases found
      simp [TaskState.due]
    · rw [List.getElem?_eq_none (by simp; omega)] at found
      cases found
  · intro task above
    simp only [schedule_tasks, List.length_set, List.length_append, List.length_singleton] at above
    rw [called_or, due.unspawned task (by omega), beq_false_of_ne (by omega), Bool.or_false]

theorem wake (due : Due trace state) (stepped : PriorityRuntime.step state (.wake task) = some next) :
    Due (trace ++ [.wake task]) next := by
  obtain ⟨length, inside, others⟩ := wake_other stepped
  have called_or (other : Nat) : called other (trace ++ [.wake task]) = (called other trace || task == other) := by
    rw [called_snoc, call, called]
  refine ⟨?_, ?_, ?_⟩
  · intro other
    simp [List.foldl_append, call, due.spawned, length]
  · intro other kind place found open_
    rw [called_or]
    by_cases same : task = other
    · subst same
      rw [wake_due stepped found open_, beq_self_eq_true, Bool.or_true]
    · rw [others other same] at found
      rw [due.due other kind place found open_, beq_false_of_ne same, Bool.or_false]
  · intro other above
    rw [called_or, due.unspawned other (length ▸ above), beq_false_of_ne (by omega), Bool.or_false]

/-- A worker receives a `Runnable`, and begins to run its task. -/
theorem takes (due : Due trace state) {worker : Nat} {own channel order : FutureType} {place missed : Place}
    (calls : Calls worker own (some task) event channel place missed) (length : next.tasks.length = state.tasks.length)
    (runs : next.tasks[task]? = some ⟨order, .running false⟩)
    (others : ∀ other, task ≠ other → next.tasks[other]? = state.tasks[other]?) : Due (trace ++ [event]) next := by
  have received (other : Nat) (so_far : Nat × Bool) : call other so_far event = (so_far.1, so_far.2 && some task != some other) := by
    cases calls <;> rfl
  have called_and (other : Nat) : called other (trace ++ [event]) = (called other trace && some task != some other) := by
    rw [called_snoc, received, called]
  refine ⟨?_, ?_, ?_⟩
  · intro other
    rw [List.foldl_append, List.foldl_cons, List.foldl_nil, received, due.spawned, length]
  · intro other kind state found open_
    rw [called_and]
    by_cases same : task = other
    · subst same
      rw [runs] at found
      cases found
      simp [TaskState.due]
    · rw [others other same] at found
      rw [due.due other kind state found open_]
      simp [same]
  · intro other above
    rw [called_and, due.unspawned other (length ▸ above), Bool.false_and]

theorem step (due : Due trace state) (placed : Placed state) (stepped : PriorityRuntime.step state event = some next) :
    Due (trace ++ [event]) next := by
  cases step_cases stepped with
  | spawn made =>
    subst made
    exact due.spawn _
  | wakes _ | notes _ | ignores => exact due.wake stepped
  | misses calls _ _ =>
    refine due.keep rfl (by cases calls <;> simp [call]) ?_
    exact fun task order place found open_ => ⟨order, place, found, open_, rfl⟩
  | @takes _ worker task own channel place missed rest calls here first =>
    have at_task := (placed.queued channel).2 task (by rw [first]; exact List.mem_cons_self ..)
    have runs : (state.tasks.set task ⟨channel, .running false⟩)[task]? = some ⟨channel, .running false⟩ := by
      rw [getElem?_set_found at_task, if_pos rfl]
    exact due.takes calls (by simp) runs fun other different => List.getElem?_set_ne different
  | @reschedules worker task own order left here running made =>
    subst made
    refine due.keep (by simp) (by simp [call]) ?_
    intro other kind place found open_
    rw [schedule_tasks, getElem?_set_found running] at found
    split at found
    · rename_i same
      cases found
      exact ⟨order, .running true, same ▸ running, by simp, rfl⟩
    · exact ⟨kind, place, found, open_, rfl⟩
  | parks _ running =>
    refine due.keep (by simp) (by simp [call]) ?_
    intro other kind place found open_
    rw [getElem?_set_found running] at found
    split at found
    · rename_i same
      cases found
      exact ⟨_, .running false, same ▸ running, by simp, rfl⟩
    · exact ⟨kind, place, found, open_, rfl⟩
  | completes _ running =>
    refine due.keep (by simp) (by simp [call]) ?_
    intro other kind place found open_
    rw [getElem?_set_found running] at found
    split at found
    · cases found
      exact absurd rfl open_
    · exact ⟨kind, place, found, open_, rfl⟩

end Due

/-- What a state of the runtime says about one of its tasks: where its `Runnable`
is, who runs it, and whether it is going to be run again. -/
structure Accounted (trace : List Event) (state : State) (task : Nat) (order : FutureType) (place : TaskState) : Prop where
  own_channel : (state.channel order).count task = if place = .scheduled then 1 else 0
  other_channel : (state.channel order.other).count task = 0
  workers : state.workers.countP (fun worker => worker.place = .run task) = place.runners
  due : place ≠ .complete → (called task trace = true ↔ place = .scheduled ∨ place = .running true)

/-- Stealing neither loses nor doubles a task, and no wake is lost or made up. -/
theorem tasks_accounted {runtime : Runtime} {trace : List Event} (reaches : (run runtime).Reaches trace state)
    {order : FutureType} {place : TaskState} (found : state.tasks[task]? = some ⟨order, place⟩) :
    Accounted trace state task order place := by
  have placed := reaches_placed reaches
  have due : Due trace state := by
    refine reaches.trace_invariant Due ?_ fun _ _ _ _ earlier due stepped => due.step (reaches_placed earlier) stepped
    exact ⟨fun _ => rfl, by simp [run], fun _ _ => rfl⟩
  refine ⟨?_, ?_, ?_, ?_⟩
  · split
    · rename_i scheduled
      subst scheduled
      exact (List.nodup_iff_count_eq_one.mp (placed.queued order).1) task (placed.scheduled task order found)
    · rename_i off
      exact List.count_eq_zero.mpr (placed.queued.absent found off order)
  · apply List.count_eq_zero.mpr
    intro member
    have here := (placed.queued order.other).2 task member
    rw [found] at here
    cases order <;> cases here
  · have runs := placed.runs task
    rw [State.held, found] at runs
    exact runs
  · intro open_
    rw [due.due task order place found open_]
    cases place <;> simp [TaskState.due]

/-- The low worker has stolen a high task, which is woken while it runs; a low task waits in its channel. -/
theorem tasks_accounted_stolen :
    let trace : List Event := [.spawn_task .high, .spawn_task .low, .try_recv 1 (some 1), .ready 1 1, .try_recv 1 none,
      .steal 1 (some 0), .wake 0, .spawn_task .low]
    ∃ state, (run ⟨1, 1⟩).Reaches trace state ∧ Accounted trace state 0 .high (.running true) := by
  intro trace
  have reaches : (run ⟨1, 1⟩).Reaches trace
      ⟨[], [2], [⟨.high, .running true⟩, ⟨.low, .complete⟩, ⟨.low, .scheduled⟩], [⟨.high, .top⟩, ⟨.low, .run 0⟩]⟩ := rfl
  exact ⟨_, reaches, tasks_accounted reaches rfl⟩

end RustAsyncAwait.PriorityRuntime
