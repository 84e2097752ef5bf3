import RustAsyncAwait.Proofs.PriorityPlaces
import RustAsyncAwait.Library.Fairness

/-! Every `Runnable` is run, if the workers of its own queue take their turns. -/

namespace RustAsyncAwait.PriorityRuntime
open Library

variable {state next : State} {event : Event} {task worker : Nat} {order : FutureType}

/-- A step of this worker. While it runs a task, that is the future's call of its
own waker or the end of the run. -/
def Acts (worker : Nat) (state : State) : Event → Prop
  | .try_recv id _ | .steal id _ | .pending id _ | .ready id _ => id = worker
  | .wake task => (∃ own, state.workers[worker]? = some ⟨own, .run task⟩) ∧
      ∃ order, state.tasks[task]? = some ⟨order, .running false⟩
  | .spawn_task _ => False

/-- How far a worker is from its next call of `try_recv` on its own channel. -/
def distance (worker : Nat) (state : State) : Nat :=
  match state.workers[worker]? with
  | some ⟨_, .run task⟩ => if (state.tasks[task]?.map Task.state) = some (.running true) then 1 else 2
  | some ⟨_, .steal⟩ => 3
  | some ⟨_, .top⟩ | none => 0

/-- A `Runnable` is in its channel, which is this worker's own one. -/
structure Waits (order : FutureType) (task worker : Nat) (state : State) : Prop where
  placed : Placed state
  member : task ∈ state.channel order
  own : ∃ place, state.workers[worker]? = some ⟨order, place⟩

def rank (order : FutureType) (task worker : Nat) (state : State) : Nat :=
  4 * (state.channel order).idxOf task + distance worker state

theorem distance_same (here : next.workers[worker]? = state.workers[worker]?)
    (runs : ∀ own task, state.workers[worker]? = some ⟨own, .run task⟩ → next.tasks[task]? = state.tasks[task]?) :
    distance worker next = distance worker state := by
  unfold distance
  rw [here]
  split
  · rename_i own task found
    rw [runs own task found]
  · rfl
  · rfl
  · rfl

theorem TaskState.runners_le_one (place : TaskState) : place.runners ≤ 1 := by
  cases place <;> simp [TaskState.runners]

theorem distance_le_three (worker : Nat) (state : State) : distance worker state ≤ 3 := by
  unfold distance
  split
  · split <;> decide
  · decide
  · decide
  · decide

namespace Placed

/-- A task that a worker runs is running. -/
theorem running (placed : Placed state) {own : FutureType} (here : state.workers[worker]? = some ⟨own, .run task⟩) :
    ∃ order woken, state.tasks[task]? = some ⟨order, .running woken⟩ := by
  have runs : 0 < state.runners task := List.countP_pos_iff.mpr ⟨_, List.mem_of_getElem? here, by simp⟩
  rw [placed.runs, State.held] at runs
  cases found : state.tasks[task]? with
  | none => simp [found] at runs
  | some found_task =>
    obtain ⟨order, place⟩ := found_task
    cases place with
    | running woken => exact ⟨order, woken, rfl⟩
    | scheduled | waiting | complete => simp [found, TaskState.runners] at runs

/-- Some worker runs a running task. -/
theorem runner (placed : Placed state) {woken : Bool} (found : state.tasks[task]? = some ⟨order, .running woken⟩) :
    ∃ (worker : Nat) (own : FutureType), state.workers[worker]? = some ⟨own, .run task⟩ := by
  have runs : state.runners task = 1 := by
    rw [placed.runs, State.held, found]
    rfl
  obtain ⟨⟨own, place⟩, member, at_task⟩ := List.countP_pos_iff.mp (runs ▸ Nat.one_pos)
  obtain ⟨worker, here⟩ := List.getElem?_of_mem member
  simp only [decide_eq_true_eq] at at_task
  subst at_task
  exact ⟨worker, own, here⟩

/-- Two workers do not run the same task. -/
theorem alone (placed : Placed state) {own order : FutureType} {other : Nat}
    (here : state.workers[worker]? = some ⟨own, .run task⟩) (there : state.workers[other]? = some ⟨order, .run task⟩) :
    worker = other := by
  by_contra apart
  have traded := @runners_set state worker own own (.run task) .top here state.tasks task
  have once : state.runners task ≤ 1 := by
    rw [placed.runs, State.held]
    cases state.tasks[task]? with
    | none => exact Nat.zero_le 1
    | some found => exact found.state.runners_le_one
  have still : 0 < (state.workers.set worker ⟨own, .top⟩).countP fun worker => worker.place = .run task := by
    have found : (state.workers.set worker ⟨own, .top⟩)[other]? = some ⟨order, .run task⟩ := by
      rw [List.getElem?_set_ne apart]
      exact there
    exact List.countP_pos_iff.mpr ⟨_, List.mem_of_getElem? found, by simp⟩
  simp only [State.runners, if_true, reduceCtorEq, if_false] at traded once
  omega

end Placed

/-- A step has not taken the `Runnable` further away, and its own worker's step has brought it forward. -/
def Nearer (order : FutureType) (task worker : Nat) (state : State) (event : Event) (next : State) : Prop :=
  Waits order task worker next ∧ rank order task worker next ≤ rank order task worker state ∧
    (Acts worker state event → rank order task worker next < rank order task worker state)

namespace Waits

/-- A step that leaves the worker, and what it runs, and only puts more behind the `Runnable`. -/
theorem behind (waits : Waits order task worker state) (placed : Placed next)
    (channel : ∃ more, next.channel order = state.channel order ++ more)
    (here : next.workers[worker]? = state.workers[worker]?)
    (runs : ∀ own task, state.workers[worker]? = some ⟨own, .run task⟩ → next.tasks[task]? = state.tasks[task]?)
    (idle : ¬ Acts worker state event) : Nearer order task worker state event next := by
  obtain ⟨more, channel⟩ := channel
  refine ⟨⟨placed, ?_, ?_⟩, ?_, fun acts => absurd acts idle⟩
  · rw [channel]
    exact List.mem_append_left _ waits.member
  · rw [here]
    exact waits.own
  · apply Nat.le_of_eq
    rw [rank, rank, channel, List.idxOf_append_of_mem waits.member, distance_same here runs]

/-- A step of the worker towards its next turn. -/
theorem acted (waits : Waits order task worker state) (placed : Placed next)
    (channel : ∃ more, next.channel order = state.channel order ++ more) {place : Place}
    (here : next.workers[worker]? = some ⟨order, place⟩) (closer : distance worker next < distance worker state) :
    Nearer order task worker state event next := by
  obtain ⟨more, channel⟩ := channel
  have nearer : rank order task worker next < rank order task worker state := by
    rw [rank, rank, channel, List.idxOf_append_of_mem waits.member]
    omega
  refine ⟨⟨placed, ?_, place, here⟩, Nat.le_of_lt nearer, fun _ => nearer⟩
  rw [channel]
  exact List.mem_append_left _ waits.member

/-- Some worker's run of a task ends. -/
theorem ends (waits : Waits order task worker state) (placed : Placed next) {other id : Nat} {own : FutureType}
    {changed : Task} (here : state.workers[other]? = some ⟨own, .run id⟩)
    (workers : next.workers = state.workers.set other ⟨own, .top⟩) (tasks : next.tasks = state.tasks.set id changed)
    (channel : ∃ more, next.channel order = state.channel order ++ more) (acts : Acts worker state event → other = worker) :
    Nearer order task worker state event next := by
  by_cases same : other = worker
  · subst same
    obtain ⟨place, at_worker⟩ := waits.own
    cases here.symm.trans at_worker
    have top : next.workers[other]? = some ⟨order, .top⟩ := by rw [workers, getElem?_set_found here, if_pos rfl]
    refine waits.acted placed channel top ?_
    simp only [distance, here, top]
    split <;> decide
  · refine waits.behind placed channel ?_ ?_ fun acting => same (acts acting)
    · rw [workers, List.getElem?_set_ne same]
    · intro kind task there
      rw [tasks, List.getElem?_set_ne]
      intro equal
      subst equal
      exact same (waits.placed.alone here there)

/-- What a worker runs is not a task in another state. -/
theorem unrun (waits : Waits order task worker state) {id : Nat} {kind own : FutureType} {place : TaskState}
    (found : state.tasks[id]? = some ⟨kind, place⟩) (idle : place.runners = 0) {other : Nat}
    (here : state.workers[worker]? = some ⟨own, .run other⟩) : id ≠ other := by
  intro same
  subst same
  obtain ⟨_, woken, running⟩ := waits.placed.running here
  rw [running] at found
  cases found
  cases idle

/-- A worker receives the first `Runnable` of a channel. -/
theorem takes (waits : Waits order task worker state) {other id : Nat} {kind channel : FutureType} {at_place missed : Place}
    {rest : List Nat} (calls : Calls other kind (some id) event channel at_place missed)
    (here : state.workers[other]? = some ⟨kind, at_place⟩) (first : state.channel channel = id :: rest)
    (placed : Placed { state.set_channel channel rest with
      tasks := state.tasks.set id ⟨channel, .running false⟩
      workers := state.workers.set other ⟨kind, .run id⟩ }) :
    (state.tasks.set id ⟨channel, .running false⟩)[task]? = some ⟨order, .running false⟩ ∨
      Nearer order task worker state event { state.set_channel channel rest with
        tasks := state.tasks.set id ⟨channel, .running false⟩
        workers := state.workers.set other ⟨kind, .run id⟩ } := by
  obtain ⟨place, own⟩ := waits.own
  have at_task := (waits.placed.queued channel).2 id (by rw [first]; exact List.mem_cons_self ..)
  have waiting := (waits.placed.queued order).2 task waits.member
  by_cases front : id = task
  · subst front
    cases at_task.symm.trans waiting
    exact .inl (by rw [getElem?_set_found at_task, if_pos rfl])
  · right
    have runs : (state.tasks.set id ⟨channel, .running false⟩)[id]? = some ⟨channel, .running false⟩ := by
      rw [getElem?_set_found at_task, if_pos rfl]
    have busy : (state.workers.set other ⟨kind, .run id⟩)[other]? = some ⟨kind, .run id⟩ := by
      rw [getElem?_set_found here, if_pos rfl]
    have elsewhere (kind : FutureType) (run : Nat) (there : state.workers[worker]? = some ⟨kind, .run run⟩) :
        (state.tasks.set id ⟨channel, .running false⟩)[run]? = state.tasks[run]? :=
      List.getElem?_set_ne (waits.unrun at_task rfl there)
    by_cases same_queue : channel = order
    · subst same_queue
      have left : task ∈ rest := by
        have member := waits.member
        rw [first] at member
        exact (List.mem_cons.mp member).resolve_left (Ne.symm front)
      have popped : (state.set_channel channel rest).channel channel = rest := by rw [channel_set_channel, if_pos rfl]
      have nearer : 4 * rest.idxOf task + 3 < rank channel task worker state := by
        rw [rank, first, List.idxOf_cons_ne _ front]
        omega
      have still : ∃ place, (state.workers.set other ⟨kind, .run id⟩)[worker]? = some ⟨channel, place⟩ := by
        by_cases same : other = worker
        · subst same
          cases here.symm.trans own
          exact ⟨_, busy⟩
        · exact ⟨place, (List.getElem?_set_ne same).trans own⟩
      refine ⟨⟨placed, by rwa [channel_with, popped], still⟩, Nat.le_of_lt ?_, fun _ => ?_⟩ <;>
      · rw [rank, channel_with, popped]
        exact Nat.lt_of_le_of_lt (Nat.add_le_add_left (distance_le_three _ _) _) nearer
    · have channel_same : ∃ more, (state.set_channel channel rest).channel order = state.channel order ++ more :=
        ⟨[], by rw [channel_set_channel, if_neg (Ne.symm same_queue), List.append_nil]⟩
      by_cases same : other = worker
      · subst same
        cases here.symm.trans own
        cases calls with
        | own => exact absurd rfl same_queue
        | steal =>
          refine waits.acted placed (by rwa [channel_with]) busy ?_
          simp [distance, here, busy, runs]
      · refine waits.behind placed (by rwa [channel_with]) (List.getElem?_set_ne same) elsewhere ?_
        cases calls <;> exact same

theorem step (waits : Waits order task worker state) (stepped : PriorityRuntime.step state event = some next) :
    next.tasks[task]? = some ⟨order, .running false⟩ ∨ Nearer order task worker state event next := by
  have placed := waits.placed.step (step_cases stepped)
  obtain ⟨place, own⟩ := waits.own
  have scheduled (kind : FutureType) (id : Nat) (base : State) (channels : base.channel order = state.channel order) :
      ∃ more, (base.schedule id kind).channel order = state.channel order ++ more := by
    rw [channel_schedule]
    split
    · rename_i same
      exact ⟨[id], by rw [← same, channels]⟩
    · exact ⟨[], by rw [channels, List.append_nil]⟩
  have same_channel : ∃ more, state.channel order = state.channel order ++ more := ⟨[], (List.append_nil _).symm⟩
  cases step_cases stepped with
  | @spawn kind grown made =>
    subst made
    refine .inr (waits.behind placed (scheduled _ _ _ rfl) (by rw [schedule_workers]) ?_ fun acts => acts.elim)
    intro kind id here
    obtain ⟨_, _, running⟩ := waits.placed.running here
    have inside := (List.getElem?_eq_some_iff.mp running).1
    rw [schedule_tasks, List.getElem?_set_ne (by omega), List.getElem?_append_left inside]
  | @wakes id kind waiting =>
    refine .inr (waits.behind placed (scheduled _ _ _ rfl) (by rw [schedule_workers]) ?_ ?_)
    · intro own other here
      rw [schedule_tasks, List.getElem?_set_ne (waits.unrun waiting rfl here)]
    · intro acts
      obtain ⟨_, _, running⟩ := acts
      cases waiting.symm.trans running
  | @notes id kind woken running =>
    by_cases runs : ∃ own, state.workers[worker]? = some ⟨own, .run id⟩
    · obtain ⟨own, here⟩ := runs
      have marked : (state.tasks.set id ⟨kind, .running true⟩)[id]? = some ⟨kind, .running true⟩ := by
        rw [getElem?_set_found running, if_pos rfl]
      refine .inr ⟨⟨placed, waits.member, waits.own⟩, Nat.add_le_add_left ?_ _, fun acts => Nat.add_lt_add_left ?_ _⟩
      · cases woken <;> simp [distance, here, marked, running]
      · obtain ⟨_, _, unwoken⟩ := acts
        simp [distance, here, marked, unwoken]
    · refine .inr (waits.behind placed same_channel rfl ?_ fun acts => runs acts.1)
      intro own other here
      rw [List.getElem?_set_ne]
      intro same
      subst same
      exact runs ⟨own, here⟩
  | ignores =>
    refine .inr (waits.behind placed same_channel rfl (fun _ _ _ => rfl) ?_)
    intro acts
    obtain ⟨_, _, running⟩ := acts
    cases wake_due stepped running (by simp)
  | @misses _ other kind channel at_place missed calls here empty =>
    by_cases same : other = worker
    · subst same
      cases here.symm.trans own
      cases calls with
      | own =>
        have member := waits.member
        rw [empty] at member
        cases member
      | steal =>
        have top : (state.workers.set other ⟨order, .top⟩)[other]? = some ⟨order, .top⟩ := by
          rw [getElem?_set_found here, if_pos rfl]
        refine .inr (waits.acted placed same_channel top ?_)
        simp [distance, here, top]
    · refine .inr (waits.behind placed same_channel (List.getElem?_set_ne same) (fun _ _ _ => rfl) ?_)
      cases calls <;> exact same
  | takes calls here first => exact waits.takes calls here first placed
  | @reschedules other id own kind left here running made =>
    subst made
    refine .inr (waits.ends placed here (by rw [schedule_workers]) (by rw [schedule_tasks]) (scheduled _ _ _ rfl) fun acts => acts)
  | parks here running => exact .inr (waits.ends placed here rfl rfl same_channel id)
  | completes here running => exact .inr (waits.ends placed here rfl rfl same_channel id)

end Waits

/-- More workers are started. -/
def hire (state : State) (more : List Worker) : State := { state with workers := state.workers ++ more }

section Hire
variable {more : List Worker}

theorem hire_worker {found : Worker} (here : state.workers[worker]? = some found) :
    (hire state more).workers[worker]? = some found :=
  (List.getElem?_append_left (List.getElem?_eq_some_iff.mp here).1).trans here

theorem Placed.hire (placed : Placed state) (idle : ∀ worker ∈ more, worker.place = .top) : Placed (hire state more) := by
  refine ⟨placed.queued, placed.scheduled, fun task => ?_⟩
  have none : more.countP (fun worker => worker.place = .run task) = 0 := by
    apply List.countP_eq_zero.mpr
    intro worker member
    simp [idle worker member]
  have before := placed.runs task
  simp only [State.runners] at before ⊢
  rw [PriorityRuntime.hire, List.countP_append, none, Nat.add_zero, before]
  rfl

theorem Waits.hire (waits : Waits order task worker state) (idle : ∀ worker ∈ more, worker.place = .top) :
    Waits order task worker (hire state more) ∧ rank order task worker (hire state more) = rank order task worker state := by
  obtain ⟨place, own⟩ := waits.own
  have here := @hire_worker state worker more _ own
  refine ⟨⟨waits.placed.hire idle, waits.member, place, here⟩, ?_⟩
  exact congrArg (4 * (state.channel order).idxOf task + ·) (distance_same (here.trans own.symm) fun _ _ _ => rfl)

theorem Acts.hire (acts : Acts worker state event) : Acts worker (hire state more) event := by
  cases event with
  | wake task =>
    obtain ⟨⟨own, here⟩, running⟩ := acts
    exact ⟨⟨own, hire_worker here⟩, running⟩
  | spawn_task => exact acts
  | try_recv | steal | pending | ready => exact acts

end Hire

/-- This worker runs the task. -/
structure Runs (order : FutureType) (task worker : Nat) (woken : Bool) (state : State) : Prop where
  running : state.tasks[task]? = some ⟨order, .running woken⟩
  here : ∃ own, state.workers[worker]? = some ⟨own, .run task⟩

/-- What becomes of a run in one step. -/
inductive Runs.After (order : FutureType) (task worker : Nat) (woken : Bool) (state next : State) : Event → Prop
  | reschedules (was : woken = true) (scheduled : next.tasks[task]? = some ⟨order, .scheduled⟩) :
      After order task worker woken state next (.pending worker task)
  | parks (was : woken = false) : After order task worker woken state next (.pending worker task)
  | completes (complete : next.tasks[task]? = some ⟨order, .complete⟩) :
      After order task worker woken state next (.ready worker task)
  | wakes (still : Runs order task worker true next) : After order task worker woken state next (.wake task)
  | others {event : Event} (still : Runs order task worker woken next) (idle : ¬ Acts worker state event) :
      After order task worker woken state next event

theorem Runs.step {woken : Bool} (runs : Runs order task worker woken state) (placed : Placed state)
    (stepped : PriorityRuntime.step state event = some next) : Runs.After order task worker woken state next event := by
  obtain ⟨running, own, here⟩ := runs
  have inside := (List.getElem?_eq_some_iff.mp running).1
  have elsewhere {other id : Nat} {kind : FutureType} (there : state.workers[other]? = some ⟨kind, .run id⟩)
      (different : id ≠ task) : other ≠ worker := by
    intro same
    subst same
    cases there.symm.trans here
    exact different rfl
  have busy {other : Nat} {kind : FutureType} {place : Place} (there : state.workers[other]? = some ⟨kind, place⟩)
      (free : place ≠ .run task) : other ≠ worker := by
    intro same
    subst same
    cases there.symm.trans here
    exact free rfl
  have untouched {id : Nat} {kind : FutureType} {place : TaskState} (at_id : state.tasks[id]? = some ⟨kind, place⟩)
      (idle : place.runners = 0) : id ≠ task := by
    intro same
    subst same
    cases at_id.symm.trans running
    cases idle
  cases step_cases stepped with
  | @spawn kind grown made =>
    subst made
    refine .others ⟨?_, own, by rwa [schedule_workers]⟩ fun acts => acts.elim
    rw [schedule_tasks, List.getElem?_set_ne (by omega), List.getElem?_append_left inside]
    exact running
  | @wakes id kind waiting =>
    refine .others ⟨?_, own, by rwa [schedule_workers]⟩ ?_
    · rw [schedule_tasks, List.getElem?_set_ne (untouched waiting rfl)]
      exact running
    · intro acts
      obtain ⟨_, _, unwoken⟩ := acts
      cases waiting.symm.trans unwoken
  | @notes id kind flag at_id =>
    by_cases same : id = task
    · subst same
      cases at_id.symm.trans running
      exact .wakes ⟨by rw [getElem?_set_found at_id, if_pos rfl], own, here⟩
    · refine .others ⟨(List.getElem?_set_ne same).trans running, own, here⟩ ?_
      intro acts
      obtain ⟨⟨_, there⟩, _⟩ := acts
      cases here.symm.trans there
      exact same rfl
  | ignores =>
    refine .others ⟨running, own, here⟩ ?_
    intro acts
    obtain ⟨_, _, unwoken⟩ := acts
    cases wake_due stepped unwoken (by simp)
  | @misses _ other _ _ _ _ calls there _ =>
    have apart := busy there (by cases calls <;> simp)
    refine .others ⟨running, own, (List.getElem?_set_ne apart).trans here⟩ ?_
    cases calls <;> exact apart
  | @takes _ other id _ channel _ _ rest calls there first =>
    have apart := busy there (by cases calls <;> simp)
    have at_id := (placed.queued channel).2 id (by rw [first]; exact List.mem_cons_self ..)
    refine .others ⟨(List.getElem?_set_ne (untouched at_id rfl)).trans running, own,
      (List.getElem?_set_ne apart).trans here⟩ ?_
    cases calls <;> exact apart
  | @reschedules other id _ kind left there at_id made =>
    subst made
    by_cases same : id = task
    · subst same
      cases at_id.symm.trans running
      cases placed.alone there here
      exact .reschedules rfl (by rw [schedule_tasks, getElem?_set_found at_id, if_pos rfl])
    · have apart := elsewhere there same
      refine .others ⟨?_, own, by rw [schedule_workers, List.getElem?_set_ne apart, here]⟩ apart
      rw [schedule_tasks, List.getElem?_set_ne same]
      exact running
  | @parks other id _ kind there at_id =>
    by_cases same : id = task
    · subst same
      cases at_id.symm.trans running
      cases placed.alone there here
      exact .parks rfl
    · have apart := elsewhere there same
      exact .others ⟨(List.getElem?_set_ne same).trans running, own, (List.getElem?_set_ne apart).trans here⟩ apart
  | @completes other id _ kind _ there at_id =>
    by_cases same : id = task
    · subst same
      cases at_id.symm.trans running
      cases placed.alone there here
      exact .completes (by rw [getElem?_set_found at_id, if_pos rfl])
    · have apart := elsewhere there same
      exact .others ⟨(List.getElem?_set_ne same).trans running, own, (List.getElem?_set_ne apart).trans here⟩ apart

theorem Runs.hire {woken : Bool} {more : List Worker} (runs : Runs order task worker woken state) :
    Runs order task worker woken (hire state more) :=
  ⟨runs.running, runs.here.imp fun _ here => hire_worker here⟩

section Drives
variable {σ : Type} {machine : Machine σ Event} {view : σ → State} {schedule : Nat → Event}

/-- The steps of such a machine are those of the runtime, after more workers may have been started. -/
structure Drives (machine : Machine σ Event) (view : σ → State) : Prop where
  init : Placed (view machine.init)
  step : ∀ state event next, machine.step state event = some next → ∃ more, (∀ worker ∈ more, worker.place = .top) ∧
    PriorityRuntime.step (hire (view state) more) event = some (view next)

/-- Every worker goes on for ever. -/
def Fair (machine : Machine σ Event) (view : σ → State) (schedule : Nat → Event) : Prop :=
  ∀ worker start, worker < (view (machine.states schedule start)).workers.length → ∃ later, start ≤ later ∧
    Acts worker (view (machine.states schedule later)) (schedule later) ∧
    ∃ next, machine.step (machine.states schedule later) (schedule later) = some next

namespace Drives

theorem placed (drives : Drives machine view) (count : Nat) : Placed (view (machine.states schedule count)) := by
  have first : Placed (view (machine.states schedule 0)) := drives.init
  refine Machine.states_keep (fun state => Placed (view state)) ?_ first (Nat.zero_le count)
  intro state event next placed stepped
  obtain ⟨more, idle, stepped⟩ := drives.step state event next stepped
  exact (placed.hire idle).step (step_cases stepped)

/-- This worker belongs to the queue. -/
def Own (order : FutureType) (worker : Nat) (state : State) : Prop := ∃ place, state.workers[worker]? = some ⟨order, place⟩

theorem own (drives : Drives machine view) {start later : Nat}
    (own : Own order worker (view (machine.states schedule start))) (after : start ≤ later) :
    Own order worker (view (machine.states schedule later)) := by
  refine Machine.states_keep (fun state => Own order worker (view state)) ?_ own after
  intro state event next own stepped
  obtain ⟨more, _, stepped⟩ := drives.step state event next stepped
  obtain ⟨place, here⟩ := own
  have orders := congrArg (·[worker]?) (step_orders stepped)
  simp only [List.getElem?_map, hire_worker here, Option.map_some] at orders
  obtain ⟨⟨_, place⟩, there, rfl⟩ := Option.map_eq_some_iff.mp orders
  exact ⟨place, there⟩

theorem leads_run (drives : Drives machine view) (fair : Fair machine view schedule) (order : FutureType) (task worker : Nat) :
    machine.LeadsTo schedule (fun state => Waits order task worker (view state))
      (fun state => (view state).tasks[task]? = some ⟨order, .running false⟩) := by
  refine .of_rank (fun state => rank order task worker (view state)) (fun state => Acts worker (view state)) ?_ ?_
  · intro state event next waits stepped
    obtain ⟨more, idle, stepped⟩ := drives.step state event next stepped
    obtain ⟨hired, same⟩ := waits.hire idle
    rcases hired.step stepped with runs | ⟨still, closer, nearer⟩
    · exact .inl runs
    · rw [same] at closer nearer
      exact .inr ⟨still, closer, fun acts => nearer acts.hire⟩
  · intro start always
    obtain ⟨place, own⟩ := (always start (Nat.le_refl start)).own
    exact fair worker start (List.getElem?_eq_some_iff.mp own).1

/-- A run in which the task has been woken ends, and the task is scheduled again or complete. -/
theorem leads_left (drives : Drives machine view) (fair : Fair machine view schedule) (order : FutureType) (task worker : Nat) :
    machine.LeadsTo schedule (fun state => Placed (view state) ∧ Runs order task worker true (view state))
      (fun state => (view state).tasks[task]? = some ⟨order, .scheduled⟩ ∨
        (view state).tasks[task]? = some ⟨order, .complete⟩) := by
  refine .of_rank (fun _ => 0) (fun state => Acts worker (view state)) ?_ ?_
  · intro state event next holds stepped
    obtain ⟨placed, runs⟩ := holds
    obtain ⟨more, idle, stepped⟩ := drives.step state event next stepped
    have hired := placed.hire idle
    have still_placed := hired.step (step_cases stepped)
    have hired_runs : Runs order task worker true (PriorityRuntime.hire (view state) more) := runs.hire
    cases hired_runs.step hired stepped with
    | reschedules _ scheduled => exact .inl (.inl scheduled)
    | parks was => cases was
    | completes complete => exact .inl (.inr complete)
    | wakes still =>
      refine .inr ⟨⟨still_placed, still⟩, Nat.le_refl 0, fun acts => ?_⟩
      obtain ⟨_, _, unwoken⟩ := acts
      cases runs.running.symm.trans unwoken
    | others still idle => exact .inr ⟨⟨still_placed, still⟩, Nat.le_refl 0, fun acts => absurd acts.hire idle⟩
  · intro start always
    obtain ⟨_, here⟩ := (always start (Nat.le_refl start)).2.here
    exact fair worker start (List.getElem?_eq_some_iff.mp here).1

/-- A task that is due will be run, from the beginning of a run, unless it completes before. -/
theorem due_runs (drives : Drives machine view) (fair : Fair machine view schedule) {place : TaskState} {start : Nat}
    (own : Own order worker (view (machine.states schedule start)))
    (found : (view (machine.states schedule start)).tasks[task]? = some ⟨order, place⟩) (due : place.due = true) :
    ∃ later, start ≤ later ∧ ((view (machine.states schedule later)).tasks[task]? = some ⟨order, .running false⟩ ∨
      (view (machine.states schedule later)).tasks[task]? = some ⟨order, .complete⟩) := by
  have scheduled_runs (start : Nat) (own : Own order worker (view (machine.states schedule start)))
      (scheduled : (view (machine.states schedule start)).tasks[task]? = some ⟨order, .scheduled⟩) :
      ∃ later, start ≤ later ∧ (view (machine.states schedule later)).tasks[task]? = some ⟨order, .running false⟩ := by
    have placed : Placed (view (machine.states schedule start)) := drives.placed start
    exact drives.leads_run fair order task worker start ⟨placed, placed.scheduled task order scheduled, own⟩
  cases place with
  | scheduled =>
    obtain ⟨later, after, runs⟩ := scheduled_runs start own found
    exact ⟨later, after, .inl runs⟩
  | running woken =>
    cases due
    have placed : Placed (view (machine.states schedule start)) := drives.placed start
    obtain ⟨runner, kind, here⟩ := placed.runner found
    obtain ⟨middle, after, left⟩ := drives.leads_left fair order task runner start ⟨placed, found, kind, here⟩
    rcases left with scheduled | complete
    · obtain ⟨later, behind, runs⟩ := scheduled_runs middle (drives.own own after) scheduled
      exact ⟨later, Nat.le_trans after behind, .inl runs⟩
    · exact ⟨middle, after, .inr complete⟩
  | waiting | complete => cases due

end Drives
end Drives

/-- The steps of the runtime itself. -/
theorem run_drives (runtime : Runtime) : Drives (run runtime) id := by
  refine ⟨reaches_placed (.nil : (run runtime).Reaches [] _), ?_⟩
  intro state event next stepped
  refine ⟨[], by simp, ?_⟩
  rw [hire, List.append_nil]
  exact stepped

/-- Whenever a task of a queue that has a worker is called while it is not
complete, it is run again, or completes in the run it is in. -/
theorem called_tasks_run {runtime : Runtime} {schedule : Nat → Event} (fair : Fair (run runtime) id schedule)
    {order : FutureType} (own : order ∈ runtime.workers) {start task : Nat} {place : TaskState}
    (found : ((run runtime).states schedule start).tasks[task]? = some ⟨order, place⟩) (due : place.due = true) :
    ∃ later, start ≤ later ∧ (((run runtime).states schedule later).tasks[task]? = some ⟨order, .running false⟩ ∨
      ((run runtime).states schedule later).tasks[task]? = some ⟨order, .complete⟩) := by
  obtain ⟨worker, at_worker⟩ := List.getElem?_of_mem own
  have first : Drives.Own order worker ((run runtime).states schedule 0) :=
    ⟨.top, by simp [Machine.states, run, at_worker]⟩
  exact (run_drives runtime).due_runs fair ((run_drives runtime).own first (Nat.zero_le start)) found due

/-- The high worker steals a task that calls its waker, and the low worker runs it
again to its end. Then both look for tasks for ever. -/
def stolen_once : Nat → Event :=
  Machine.lasso [.spawn_task .low, .try_recv 0 none, .steal 0 (some 0), .wake 0, .pending 0 0, .try_recv 1 (some 0), .ready 1 0]
    (.try_recv 0 none) [.try_recv 1 none, .steal 0 none, .steal 1 none]

theorem fair_stolen_once : Fair (run ⟨1, 1⟩) id stolen_once := by
  intro worker start inside
  have two : ((run ⟨1, 1⟩).states stolen_once start).workers.map Worker.order = [.high, .low] := by
    have first : ((run ⟨1, 1⟩).states stolen_once 0).workers.map Worker.order = [.high, .low] := rfl
    refine Machine.states_keep (fun state : State => state.workers.map Worker.order = [.high, .low]) ?_ first (Nat.zero_le start)
    exact fun _ _ _ orders stepped => (step_orders stepped).trans orders
  have small : worker < 2 := by
    have length := congrArg List.length two
    rw [List.length_map] at length
    exact Nat.lt_of_lt_of_eq inside length
  have looks : Event.try_recv worker none ∈ [Event.try_recv 0 none, .try_recv 1 none, .steal 0 none, .steal 1 none] := by
    have either : worker = 0 ∨ worker = 1 := by omega
    rcases either with rfl | rfl <;> simp
  obtain ⟨last, runs, round⟩ : ∃ last, (run ⟨1, 1⟩).Reaches [.spawn_task .low, .try_recv 0 none, .steal 0 (some 0), .wake 0,
        .pending 0 0, .try_recv 1 (some 0), .ready 1 0] last ∧
      (run ⟨1, 1⟩).runFrom last [.try_recv 0 none, .try_recv 1 none, .steal 0 none, .steal 1 none] = some last := ⟨_, rfl, rfl⟩
  have turns : (run ⟨1, 1⟩).StronglyFair stolen_once (fun _ => True) fun event => event = .try_recv worker none :=
    Machine.lasso_fair runs round (.inl ⟨_, looks, rfl⟩)
  obtain ⟨later, after, own, stepped⟩ := turns start fun middle _ => ⟨middle, Nat.le_refl middle, trivial⟩
  exact ⟨later, after, by rw [own]; rfl, stepped⟩

theorem called_tasks_run_stolen :
    let states := (run ⟨1, 1⟩).states stolen_once
    ∃ later, 4 ≤ later ∧ ((states later).tasks[0]? = some ⟨.low, .running false⟩ ∨
      (states later).tasks[0]? = some ⟨.low, .complete⟩) :=
  @called_tasks_run ⟨1, 1⟩ stolen_once fair_stolen_once .low (by decide) 4 0 (.running true) rfl rfl

end RustAsyncAwait.PriorityRuntime
