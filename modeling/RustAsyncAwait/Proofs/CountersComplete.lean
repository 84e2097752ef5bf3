import RustAsyncAwait.PriorityThreads
import RustAsyncAwait.Proofs.RunnableTurns

/-! The tasks of `chap3/3_4.rs` complete, whatever their order and however the
threads steal them from each other. -/

namespace RustAsyncAwait.PriorityThreads
open Library PriorityRuntime

variable {state next : State} {event : Event} {task worker count : Nat} {order : FutureType} {place : TaskState}

theorem new_threads_idle (runtime : PriorityRuntime.State) (order : FutureType) :
    ∀ worker ∈ new_threads runtime order, worker.place = .top := by
  intro worker member
  unfold new_threads at member
  split at member
  · cases member
  · rw [(List.mem_replicate.mp member).2]

/-- The queue of a task has a worker. -/
theorem new_threads_own (runtime : PriorityRuntime.State) (order : FutureType) :
    ∃ worker, Drives.Own order worker (hire runtime (new_threads runtime order)) := by
  have member : ∃ worker ∈ runtime.workers ++ new_threads runtime order, worker.order = order := by
    unfold new_threads
    split
    · rename_i started
      obtain ⟨worker, member, same⟩ := List.any_eq_true.mp started
      exact ⟨worker, List.mem_append_left _ member, by simpa using same⟩
    · exact ⟨{ order }, List.mem_append_right _ (by cases order <;> simp [threads, HIGH_PRIORITY_THREAD_NUM]), rfl⟩
  obtain ⟨⟨_, place⟩, member, rfl⟩ := member
  obtain ⟨worker, here⟩ := List.getElem?_of_mem member
  exact ⟨worker, place, here⟩

/-- How one step moves a task, with the count of its future. -/
inductive Moves (count : Nat) : TaskState → TaskState → Nat → Prop
  | stays {place : TaskState} : Moves count place place count
  | begins : Moves count .scheduled (.running false) (count + 1)
  | wakes (more : count < 3) : Moves count (.running false) (.running true) count
  | yields (more : count < 3) : Moves count (.running true) .scheduled count
  | returns {woken : Bool} (done : ¬ count < 3) : Moves count (.running woken) .complete count

/-- What each event asks of its future, and what the runtime does. -/
theorem step_runtime (stepped : step state event = some next) :
    ∃ more, (∀ worker ∈ more, worker.place = .top) ∧
      PriorityRuntime.step (hire state.runtime more) event = some next.runtime := by
  have alone {runtime : PriorityRuntime.State} (moved : PriorityRuntime.step state.runtime event = some runtime) :
      ∃ more, (∀ worker ∈ more, worker.place = .top) ∧ PriorityRuntime.step (hire state.runtime more) event = some runtime :=
    ⟨[], by simp, by rwa [hire, List.append_nil]⟩
  cases event with
  | spawn_task order =>
    simp only [step] at stepped
    obtain ⟨runtime, moved, rfl⟩ := Option.map_eq_some_iff.mp stepped
    exact ⟨_, new_threads_idle state.runtime order, moved⟩
  | try_recv worker found | steal worker found =>
    simp only [step] at stepped
    obtain ⟨runtime, moved, rfl⟩ := Option.map_eq_some_iff.mp stepped
    exact alone moved
  | wake task | pending worker task =>
    simp only [step] at stepped
    split at stepped
    · obtain ⟨_, stepped⟩ := Option.ite_none_right_eq_some.mp stepped
      obtain ⟨runtime, moved, rfl⟩ := Option.map_eq_some_iff.mp stepped
      exact alone moved
    · cases stepped
  | ready worker task =>
    simp only [step] at stepped
    split at stepped
    · obtain ⟨_, stepped⟩ := Option.ite_none_left_eq_some.mp stepped
      obtain ⟨runtime, moved, rfl⟩ := Option.map_eq_some_iff.mp stepped
      exact alone moved
    · cases stepped

theorem drives : Drives spawn_task State.runtime :=
  ⟨reaches_placed (.nil : (run ⟨0, 0⟩).Reaches [] _), fun _ _ _ => step_runtime⟩

/-- A worker's call of `try_recv`, and the poll that it begins if it has found a task. -/
theorem receive_moves {runtime : PriorityRuntime.State} {id : Nat} {found : Option Nat} (placed : Placed state.runtime)
    (at_task : state.runtime.tasks[task]? = some ⟨order, place⟩) (future : state.futures[task]? = some ⟨count, order⟩)
    (receives : event = .try_recv id found ∨ event = .steal id found)
    (moved : PriorityRuntime.step state.runtime event = some runtime) :
    ∃ after later, runtime.tasks[task]? = some ⟨order, after⟩ ∧
      (State.begin state.futures found)[task]? = some ⟨later, order⟩ ∧ Moves count place after later := by
  have stays (none : found = none) (same : runtime.tasks = state.runtime.tasks) :
      ∃ after later, runtime.tasks[task]? = some ⟨order, after⟩ ∧
        (State.begin state.futures found)[task]? = some ⟨later, order⟩ ∧ Moves count place after later := by
    subst none
    exact ⟨place, count, by rw [same, at_task], future, .stays⟩
  cases step_cases moved with
  | misses calls here empty =>
    refine stays ?_ rfl
    cases calls <;> rcases receives with same | same <;> cases same <;> rfl
  | @takes _ _ taken _ channel _ _ rest calls here first =>
    have some_ : found = some taken := by cases calls <;> rcases receives with same | same <;> cases same <;> rfl
    subst some_
    have at_taken := (placed.queued channel).2 taken (by rw [first]; exact List.mem_cons_self ..)
    simp only [State.begin, List.getElem?_modify]
    by_cases same : taken = task
    · subst same
      cases at_taken.symm.trans at_task
      refine ⟨.running false, count + 1, by rw [getElem?_set_found at_taken, if_pos rfl], ?_, .begins⟩
      simp [future, CounterFuture.increment]
    · refine ⟨place, count, (List.getElem?_set_ne same).trans at_task, ?_, .stays⟩
      simp [same, future]
  | spawn | wakes | notes | ignores | reschedules | parks | completes => rcases receives with same | same <;> cases same

theorem task_moves (placed : Placed state.runtime) (stepped : step state event = some next)
    (at_task : state.runtime.tasks[task]? = some ⟨order, place⟩) (future : state.futures[task]? = some ⟨count, order⟩) :
    ∃ after later, next.runtime.tasks[task]? = some ⟨order, after⟩ ∧ next.futures[task]? = some ⟨later, order⟩ ∧
      Moves count place after later := by
  cases event with
  | spawn_task kind =>
    simp only [step] at stepped
    obtain ⟨runtime, moved, rfl⟩ := Option.map_eq_some_iff.mp stepped
    cases moved
    have inside := (List.getElem?_eq_some_iff.mp at_task).1
    refine ⟨place, count, ?_, (List.getElem?_append_left (List.getElem?_eq_some_iff.mp future).1).trans future, .stays⟩
    rw [schedule_tasks, List.getElem?_set_ne (Nat.ne_of_gt inside), List.getElem?_append_left inside]
    exact at_task
  | try_recv id found =>
    simp only [step] at stepped
    obtain ⟨runtime, moved, rfl⟩ := Option.map_eq_some_iff.mp stepped
    exact receive_moves placed at_task future (.inl rfl) moved
  | steal id found =>
    simp only [step] at stepped
    obtain ⟨runtime, moved, rfl⟩ := Option.map_eq_some_iff.mp stepped
    exact receive_moves placed at_task future (.inr rfl) moved
  | wake id =>
    simp only [step] at stepped
    split at stepped
    · rename_i kind called running here
      obtain ⟨more, stepped⟩ := Option.ite_none_right_eq_some.mp stepped
      obtain ⟨runtime, moved, rfl⟩ := Option.map_eq_some_iff.mp stepped
      simp only [PriorityRuntime.step, running, Option.some.injEq] at moved
      subst moved
      by_cases same : id = task
      · subst same
        cases running.symm.trans at_task
        cases here.symm.trans future
        refine ⟨.running true, count, by rw [getElem?_set_found at_task, if_pos rfl], future, .wakes ?_⟩
        simpa [CounterFuture.pending] using more
      · exact ⟨place, count, (List.getElem?_set_ne same).trans at_task, future, .stays⟩
    · cases stepped
  | pending id ended =>
    simp only [step] at stepped
    split at stepped
    · rename_i kind called running here
      obtain ⟨more, stepped⟩ := Option.ite_none_right_eq_some.mp stepped
      obtain ⟨runtime, moved, rfl⟩ := Option.map_eq_some_iff.mp stepped
      cases step_cases moved with
      | reschedules there also left =>
        cases running.symm.trans also
        subst left
        by_cases same : ended = task
        · subst same
          cases running.symm.trans at_task
          cases here.symm.trans future
          refine ⟨.scheduled, count, ?_, future, .yields (by simpa [CounterFuture.pending] using more)⟩
          rw [schedule_tasks, getElem?_set_found at_task, if_pos rfl]
        · refine ⟨place, count, ?_, future, .stays⟩
          rw [schedule_tasks, List.getElem?_set_ne same]
          exact at_task
      | parks there also => cases running.symm.trans also
      | misses calls | takes calls => cases calls
    · cases stepped
  | ready id ended =>
    simp only [step] at stepped
    split at stepped
    · rename_i called here
      obtain ⟨done, stepped⟩ := Option.ite_none_left_eq_some.mp stepped
      obtain ⟨runtime, moved, rfl⟩ := Option.map_eq_some_iff.mp stepped
      cases step_cases moved with
      | completes there running =>
        by_cases same : ended = task
        · subst same
          cases running.symm.trans at_task
          cases here.symm.trans future
          refine ⟨.complete, count, ?_, future, .returns (by simpa [CounterFuture.pending] using done)⟩
          rw [getElem?_set_found at_task, if_pos rfl]
        · exact ⟨place, count, (List.getElem?_set_ne same).trans at_task, future, .stays⟩
      | misses calls | takes calls => cases calls
    · cases stepped

/-- Where a task is, and how often its future has been polled. -/
def At (task : Nat) (order : FutureType) (place : TaskState) (count : Nat) (state : State) : Prop :=
  state.runtime.tasks[task]? = some ⟨order, place⟩ ∧ state.futures[task]? = some ⟨count, order⟩

/-- A future that is not ready yet has left a call of its waker behind, whenever a poll of it ends. -/
theorem pending_woken {woken : Bool} (at_task : At task order (.running woken) count state)
    (stepped : step state (.pending worker task) = some next) : woken = true := by
  simp only [step] at stepped
  split at stepped
  · rename_i running _
    cases at_task.1.symm.trans running
    rfl
  · cases stepped

variable {schedule : Nat → Event}

/-- A scheduled task is polled. -/
theorem leads_polled (fair : Fair spawn_task State.runtime schedule) (task worker : Nat) (order : FutureType) (count : Nat) :
    spawn_task.LeadsTo schedule
      (fun state => Waits order task worker state.runtime ∧ Placed state.runtime ∧ At task order .scheduled count state)
      (At task order (.running false) (count + 1)) := by
  have keeps (state : State) (event : Event) (next : State)
      (holds : Placed state.runtime ∧ At task order .scheduled count state) (stepped : step state event = some next) :
      (Placed next.runtime ∧ At task order .scheduled count next) ∨ At task order (.running false) (count + 1) next := by
    obtain ⟨placed, at_task, future⟩ := holds
    obtain ⟨more, idle, moved⟩ := step_runtime stepped
    obtain ⟨after, later, at_after, future_after, moves⟩ := task_moves placed stepped at_task future
    cases moves with
    | stays => exact .inl ⟨(placed.hire idle).step (step_cases moved), at_after, future_after⟩
    | begins => exact .inr ⟨at_after, future_after⟩
  refine ((drives.leads_run fair order task worker).meanwhile keeps).trans (.now ?_)
  intro state either
  rcases either with ⟨running, _, scheduled, _⟩ | polled
  · cases running.symm.trans scheduled
  · exact polled

/-- A poll ends: the task is scheduled again, or complete with the third one. -/
theorem leads_ended (fair : Fair spawn_task State.runtime schedule) (task worker : Nat) (order : FutureType) (count : Nat) :
    spawn_task.LeadsTo schedule
      (fun state => Placed state.runtime ∧ ∃ woken, Runs order task worker woken state.runtime ∧
        At task order (.running woken) count state)
      (fun state => count < 3 ∧ At task order .scheduled count state ∨ ¬ count < 3 ∧ At task order .complete count state) := by
  refine .of_rank (fun state => if state.runtime.tasks[task]? = some ⟨order, .running false⟩ then 1 else 0)
    (fun state => Acts worker state.runtime) ?_ ?_
  · intro state event next holds stepped
    obtain ⟨placed, woken, runs, at_task, future⟩ := holds
    obtain ⟨more, idle, moved⟩ := step_runtime stepped
    obtain ⟨after, later, at_after, future_after, moves⟩ := task_moves placed stepped at_task future
    have hired := placed.hire idle
    have still_placed := hired.step (step_cases moved)
    have hired_runs : Runs order task worker woken (hire state.runtime more) := runs.hire
    cases hired_runs.step hired moved with
    | reschedules was scheduled =>
      cases at_after.symm.trans scheduled
      cases moves with
      | yields more => exact .inl (.inl ⟨more, at_after, future_after⟩)
    | parks was =>
      cases was.symm.trans (pending_woken ⟨at_task, future⟩ stepped)
    | completes complete =>
      cases at_after.symm.trans complete
      cases moves with
      | returns done => exact .inl (.inr ⟨done, at_after, future_after⟩)
    | wakes still =>
      cases at_after.symm.trans still.running
      cases woken with
      | false =>
        cases moves with
        | wakes =>
          refine .inr ⟨⟨still_placed, true, still, at_after, future_after⟩, ?_⟩
          simp [at_after, at_task]
      | true =>
        cases moves with
        | stays =>
          refine .inr ⟨⟨still_placed, true, still, at_after, future_after⟩, by simp [at_after, at_task], fun acts => ?_⟩
          obtain ⟨_, _, unwoken⟩ := acts
          cases at_task.symm.trans unwoken
    | others still idle =>
      have same := at_after.symm.trans still.running
      simp only [Option.some.injEq, Task.mk.injEq, true_and] at same
      subst same
      cases moves with
      | stays =>
        exact .inr ⟨⟨still_placed, woken, still, at_after, future_after⟩, by simp [at_after, at_task],
          fun acts => absurd acts.hire idle⟩
  · intro start always
    obtain ⟨_, _, runs, _⟩ := always start (Nat.le_refl start)
    obtain ⟨_, here⟩ := runs.here
    exact fair worker start (List.getElem?_eq_some_iff.mp here).1

/-- A scheduled task whose future has still to be polled so often completes. -/
theorem scheduled_completes (fair : Fair spawn_task State.runtime schedule) {remaining start : Nat}
    (own : Drives.Own order worker (spawn_task.states schedule start).runtime) (left : count + remaining = 3)
    (more : 0 < remaining) (at_task : At task order .scheduled count (spawn_task.states schedule start)) :
    ∃ later, start ≤ later ∧ At task order .complete 3 (spawn_task.states schedule later) := by
  induction remaining generalizing count start with
  | zero => exact absurd more (Nat.lt_irrefl 0)
  | succ remaining ih =>
    have placed : Placed (spawn_task.states schedule start).runtime := drives.placed start
    have waits : Waits order task worker (spawn_task.states schedule start).runtime :=
      ⟨placed, placed.scheduled task order at_task.1, own⟩
    obtain ⟨middle, after, polled⟩ := leads_polled fair task worker order count start ⟨waits, placed, at_task⟩
    have still_placed : Placed (spawn_task.states schedule middle).runtime := drives.placed middle
    obtain ⟨runner, kind, here⟩ := still_placed.runner polled.1
    obtain ⟨later, behind, ended⟩ := leads_ended fair task runner order (count + 1) middle
      ⟨still_placed, false, ⟨polled.1, kind, here⟩, polled⟩
    rcases ended with ⟨unready, scheduled⟩ | ⟨ready, complete⟩
    · obtain ⟨last, on, complete⟩ := ih (drives.own own (Nat.le_trans after behind)) (by omega) (by omega) scheduled
      exact ⟨last, Nat.le_trans (Nat.le_trans after behind) on, complete⟩
    · have third : count + 1 = 3 := by omega
      exact ⟨later, Nat.le_trans after behind, third ▸ complete⟩

/-- Only `spawn_task` makes a task. -/
theorem runtime_length {runtime : PriorityRuntime.State} (moved : PriorityRuntime.step state.runtime event = some runtime)
    (old : ∀ order, event ≠ .spawn_task order) : runtime.tasks.length = state.runtime.tasks.length := by
  cases step_cases moved with
  | spawn => exact absurd rfl (old _)
  | reschedules _ _ left => simp [left]
  | wakes | notes | ignores | misses | takes | parks | completes => simp

/-- Every task has its future. -/
theorem step_length (same : state.futures.length = state.runtime.tasks.length) (stepped : step state event = some next) :
    next.futures.length = next.runtime.tasks.length := by
  cases event with
  | spawn_task order =>
    simp only [step] at stepped
    obtain ⟨runtime, moved, rfl⟩ := Option.map_eq_some_iff.mp stepped
    cases moved
    simp [same]
  | try_recv worker found | steal worker found =>
    simp only [step] at stepped
    obtain ⟨runtime, moved, rfl⟩ := Option.map_eq_some_iff.mp stepped
    have begun : (State.begin state.futures found).length = state.futures.length := by
      cases found <;> simp [State.begin]
    rw [begun, runtime_length moved nofun, same]
  | wake task | pending worker task =>
    simp only [step] at stepped
    split at stepped
    · obtain ⟨_, stepped⟩ := Option.ite_none_right_eq_some.mp stepped
      obtain ⟨runtime, moved, rfl⟩ := Option.map_eq_some_iff.mp stepped
      rw [runtime_length moved nofun, same]
    · cases stepped
  | ready worker task =>
    simp only [step] at stepped
    split at stepped
    · obtain ⟨_, stepped⟩ := Option.ite_none_left_eq_some.mp stepped
      obtain ⟨runtime, moved, rfl⟩ := Option.map_eq_some_iff.mp stepped
      rw [runtime_length moved nofun, same]
    · cases stepped

theorem states_length (schedule : Nat → Event) (count : Nat) :
    (spawn_task.states schedule count).futures.length = (spawn_task.states schedule count).runtime.tasks.length := by
  have first : (spawn_task.states schedule 0).futures.length = (spawn_task.states schedule 0).runtime.tasks.length := rfl
  exact Machine.states_keep (fun state : State => state.futures.length = state.runtime.tasks.length)
    (fun _ _ _ => step_length) first (Nat.zero_le count)

/-- Every `CounterFuture` that is spawned returns 3, with its third poll. -/
theorem counters_complete {schedule : Nat → Event} (fair : Fair spawn_task State.runtime schedule) {start : Nat}
    {order : FutureType} (spawned : schedule start = .spawn_task order) :
    let task := (spawn_task.states schedule start).futures.length
    ∃ later, start < later ∧ (spawn_task.states schedule later).runtime.tasks[task]? = some ⟨order, .complete⟩ ∧
      (spawn_task.states schedule later).futures[task]? = some ⟨3, order⟩ := by
  intro task
  have length := states_length schedule start
  obtain ⟨next, stepped, made, own⟩ : ∃ next, step (spawn_task.states schedule start) (schedule start) = some next ∧
      At task order .scheduled 0 next ∧ ∃ worker, Drives.Own order worker next.runtime := by
    obtain ⟨worker, own⟩ := new_threads_own (spawn_task.states schedule start).runtime order
    rw [spawned]
    refine ⟨_, rfl, ⟨?_, ?_⟩, worker, ?_⟩
    · simp only [schedule_tasks, task]
      rw [length, List.getElem?_set_self (by simp)]
    · simp [task]
    · rw [Drives.Own, schedule_workers]
      exact own
  have reached : spawn_task.states schedule (start + 1) = next := by rw [Machine.states, Machine.turn_some stepped]
  obtain ⟨worker, own⟩ := own
  rw [← reached] at made own
  obtain ⟨later, after, complete⟩ := scheduled_completes fair own (Nat.zero_add 3) (by decide) made
  exact ⟨later, after, complete⟩

/-- A thread that has been started stays. -/
theorem workers_stay {start later : Nat} (inside : worker < (spawn_task.states schedule start).runtime.workers.length)
    (after : start ≤ later) : worker < (spawn_task.states schedule later).runtime.workers.length := by
  refine Machine.states_keep (fun state : State => worker < state.runtime.workers.length) ?_ inside after
  intro state event next inside stepped
  obtain ⟨more, _, moved⟩ := step_runtime stepped
  have length := congrArg List.length (step_orders moved)
  simp only [hire, List.length_map, List.length_append] at length
  omega

/-- The thread of `LOW_QUEUE` polls a task three times, and then looks for tasks for ever. -/
def low_thread (count : Nat) : Event :=
  [.spawn_task .low, .try_recv 0 (some 0), .wake 0, .pending 0 0, .try_recv 0 (some 0), .wake 0, .pending 0 0,
    .try_recv 0 (some 0), .ready 0 0].getD count (if count % 2 = 0 then .steal 0 none else .try_recv 0 none)

theorem fair_low_thread : Fair spawn_task State.runtime low_thread := by
  intro worker start inside
  have loops (count : Nat) (after : 9 ≤ count) : low_thread (count + 2) = low_thread count := by
    simp only [low_thread, List.getD_eq_getElem?_getD]
    rw [List.getElem?_eq_none (Nat.le_add_right_of_le after), List.getElem?_eq_none after, Nat.add_mod_right]
  have round (turns : Nat) := Machine.states_periodic loops (rfl : spawn_task.states low_thread 11 = _) (Nat.le_refl 9) turns
  have zero : worker = 0 := by
    have still := workers_stay inside (Nat.le_add_left start (9 + start))
    rw [show 9 + start + start = 9 + 2 * start by omega, (round start).1] at still
    exact Nat.lt_one_iff.mp still
  refine ⟨9 + 2 * start, by omega, ?_⟩
  rw [(round start).1, (round start).2, zero]
  exact ⟨rfl, _, rfl⟩

theorem counters_complete_low :
    let states := spawn_task.states low_thread
    ∃ later, 0 < later ∧ (states later).runtime.tasks[0]? = some ⟨.low, .complete⟩ ∧
      (states later).futures[0]? = some ⟨3, .low⟩ :=
  counters_complete fair_low_thread (rfl : low_thread 0 = .spawn_task .low)

end RustAsyncAwait.PriorityThreads
