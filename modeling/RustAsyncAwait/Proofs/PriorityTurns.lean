import RustAsyncAwait.PriorityRuntime
import RustAsyncAwait.Library.Lists

/-! How many turns of the workers it takes until the `Runnable`s of the high
channel have been run. -/

namespace RustAsyncAwait.PriorityRuntime
open Library

/-- A call of `try_recv` by a worker, on the channel and with the place the
worker is at before it and, if it finds nothing, after it. -/
inductive Calls (worker : Nat) (own : FutureType) (found : Option Nat) : Event → FutureType → Place → Place → Prop
  | own : Calls worker own found (.try_recv worker found) own .top .steal
  | steal : Calls worker own found (.steal worker found) own.other .steal .top

/-- What each event does. -/
inductive Step (state : State) : Event → State → Prop
  | spawn {order : FutureType} {next : State}
      (made : next = { state with tasks := state.tasks ++ [⟨order, .scheduled⟩] }) :
      Step state (.spawn_task order) (next.schedule state.tasks.length order)
  | wakes {task : Nat} {order : FutureType} (waiting : state.tasks[task]? = some ⟨order, .waiting⟩) :
      Step state (.wake task) (state.schedule task order)
  | notes {task : Nat} {order : FutureType} {woken : Bool} (running : state.tasks[task]? = some ⟨order, .running woken⟩) :
      Step state (.wake task) { state with tasks := state.tasks.set task ⟨order, .running true⟩ }
  | ignores {task : Nat} : Step state (.wake task) state
  | misses {event : Event} {worker : Nat} {own channel : FutureType} {place missed : Place}
      (called : Calls worker own none event channel place missed) (here : state.workers[worker]? = some ⟨own, place⟩)
      (empty : state.channel channel = []) :
      Step state event { state with workers := state.workers.set worker ⟨own, missed⟩ }
  | takes {event : Event} {worker task : Nat} {own channel : FutureType} {place missed : Place} {rest : List Nat}
      (called : Calls worker own (some task) event channel place missed)
      (here : state.workers[worker]? = some ⟨own, place⟩) (first : state.channel channel = task :: rest) :
      Step state event { state.set_channel channel rest with
        tasks := state.tasks.set task ⟨channel, .running false⟩
        workers := state.workers.set worker ⟨own, .run task⟩ }
  | reschedules {worker task : Nat} {own order : FutureType} {next : State}
      (here : state.workers[worker]? = some ⟨own, .run task⟩) (running : state.tasks[task]? = some ⟨order, .running true⟩)
      (left : next = { state with workers := state.workers.set worker ⟨own, .top⟩ }) :
      Step state (.pending worker task) (next.schedule task order)
  | parks {worker task : Nat} {own order : FutureType} (here : state.workers[worker]? = some ⟨own, .run task⟩)
      (running : state.tasks[task]? = some ⟨order, .running false⟩) :
      Step state (.pending worker task) { state with
        workers := state.workers.set worker ⟨own, .top⟩
        tasks := state.tasks.set task ⟨order, .waiting⟩ }
  | completes {worker task : Nat} {own order : FutureType} {woken : Bool}
      (here : state.workers[worker]? = some ⟨own, .run task⟩)
      (running : state.tasks[task]? = some ⟨order, .running woken⟩) :
      Step state (.ready worker task) { state with
        workers := state.workers.set worker ⟨own, .top⟩
        tasks := state.tasks.set task ⟨order, .complete⟩ }

theorem receive_cases {state next : State} {event : Event} {worker : Nat} {own channel : FutureType}
    {place missed : Place} {found : Option Nat} (called : Calls worker own found event channel place missed)
    (here : state.workers[worker]? = some ⟨own, place⟩)
    (received : state.receive worker own channel missed found = some next) : Step state event next := by
  simp only [State.receive] at received
  split at received
  · rename_i empty
    cases received
    exact .misses called here empty
  · rename_i first rest task queue
    simp only [Option.ite_none_right_eq_some, Option.some.injEq] at received
    obtain ⟨rfl, rfl⟩ := received
    exact .takes called here queue
  · cases received

theorem step_cases {state next : State} {event : Event} (stepped : step state event = some next) :
    Step state event next := by
  cases event with
  | spawn_task order =>
    cases stepped
    exact .spawn rfl
  | wake task =>
    simp only [step] at stepped
    split at stepped
    · rename_i waiting
      cases stepped
      exact .wakes waiting
    · rename_i running
      cases stepped
      exact .notes running
    · cases stepped
      exact .ignores
    · cases stepped
  | try_recv worker found =>
    simp only [step] at stepped
    split at stepped
    · rename_i own here
      exact receive_cases .own here stepped
    · cases stepped
  | steal worker found =>
    simp only [step] at stepped
    split at stepped
    · rename_i own here
      exact receive_cases .steal here stepped
    · cases stepped
  | pending worker task =>
    simp only [step] at stepped
    split at stepped
    · rename_i own at_worker order woken here running
      simp only [Option.ite_none_right_eq_some] at stepped
      obtain ⟨rfl, stepped⟩ := stepped
      cases woken with
      | true =>
        cases stepped
        exact .reschedules here running rfl
      | false =>
        cases stepped
        exact .parks here running
    · cases stepped
  | ready worker task =>
    simp only [step] at stepped
    split at stepped
    · rename_i own at_worker order woken here running
      simp only [Option.ite_none_right_eq_some, Option.some.injEq] at stepped
      obtain ⟨rfl, rfl⟩ := stepped
      exact .completes here running
    · cases stepped

@[simp] theorem set_channel_tasks (state : State) (order : FutureType) (channel : List Nat) :
    (state.set_channel order channel).tasks = state.tasks := by
  cases order <;> rfl

@[simp] theorem set_channel_workers (state : State) (order : FutureType) (channel : List Nat) :
    (state.set_channel order channel).workers = state.workers := by
  cases order <;> rfl

@[simp] theorem channel_set_channel (state : State) (order other : FutureType) (channel : List Nat) :
    (state.set_channel order channel).channel other = if other = order then channel else state.channel other := by
  cases order <;> cases other <;> rfl

@[simp] theorem schedule_tasks (state : State) (task : Nat) (order : FutureType) :
    (state.schedule task order).tasks = state.tasks.set task ⟨order, .scheduled⟩ := by
  simp [State.schedule]

@[simp] theorem schedule_workers (state : State) (task : Nat) (order : FutureType) :
    (state.schedule task order).workers = state.workers := by
  simp [State.schedule]

@[simp] theorem channel_schedule (state : State) (task : Nat) (order other : FutureType) :
    (state.schedule task order).channel other =
      if other = order then state.channel order ++ [task] else state.channel other := by
  rw [State.schedule, channel_set_channel]
  rfl

@[simp] theorem channel_with (state : State) (tasks : List Task) (workers : List Worker) (order : FutureType) :
    { state with tasks, workers }.channel order = state.channel order := by
  cases order <;> rfl

/-- The tasks of a channel are scheduled there, each once. -/
def Queued (state : State) : Prop :=
  ∀ order, (state.channel order).Nodup ∧ ∀ task ∈ state.channel order, state.tasks[task]? = some ⟨order, .scheduled⟩

namespace Queued
variable {state : State}

theorem absent (queued : Queued state) {task : Nat} {order : FutureType} {place : TaskState}
    (found : state.tasks[task]? = some ⟨order, place⟩) (off : place ≠ .scheduled) (other : FutureType) :
    task ∉ state.channel other := by
  intro member
  have here := (queued other).2 task member
  rw [found, Option.some.injEq, Task.mk.injEq] at here
  exact off here.2

theorem set (queued : Queued state) {task : Nat} (absent : ∀ order, task ∉ state.channel order) (changed : Task)
    (workers : List Worker) : Queued { state with tasks := state.tasks.set task changed, workers } := by
  intro order
  rw [channel_with]
  refine ⟨(queued order).1, fun other member => ?_⟩
  have different : task ≠ other := by
    intro same
    subst same
    exact absent order member
  rw [List.getElem?_set_ne different]
  exact (queued order).2 other member

theorem schedule (queued : Queued state) {task : Nat} (absent : ∀ order, task ∉ state.channel order)
    (made : task < state.tasks.length) (order : FutureType) : Queued (state.schedule task order) := by
  have kept := queued.set absent ⟨order, .scheduled⟩ state.workers
  intro other
  obtain ⟨distinct, scheduled⟩ := kept other
  rw [channel_with] at distinct scheduled
  rw [channel_schedule, schedule_tasks]
  split
  · rename_i same
    rw [same] at distinct scheduled ⊢
    refine ⟨List.nodup_append.mpr ⟨distinct, by simp, ?_⟩, ?_⟩
    · intro one member last here
      rw [List.mem_singleton.mp here]
      intro same
      subst same
      exact absent order member
    · intro one member
      rcases List.mem_append.mp member with old | new
      · exact scheduled one old
      · rw [List.mem_singleton.mp new]
        simp [made]
  · exact ⟨distinct, scheduled⟩

theorem takes (queued : Queued state) {task : Nat} {channel : FutureType} {rest : List Nat}
    (first : state.channel channel = task :: rest) (changed : Task) (workers : List Worker) :
    Queued { state.set_channel channel rest with tasks := state.tasks.set task changed, workers } := by
  obtain ⟨distinct, scheduled⟩ := queued channel
  rw [first] at distinct scheduled
  have popped : Queued (state.set_channel channel rest) := by
    intro order
    rw [channel_set_channel, set_channel_tasks]
    split
    · rename_i same
      rw [same]
      exact ⟨(List.nodup_cons.mp distinct).2, fun other member => scheduled other (List.mem_cons_of_mem _ member)⟩
    · exact queued order
  have absent : ∀ order, task ∉ (state.set_channel channel rest).channel order := by
    intro order
    rw [channel_set_channel]
    split
    · exact (List.nodup_cons.mp distinct).1
    · rename_i different
      intro member
      have here := (queued order).2 task member
      rw [scheduled task (List.mem_cons_self ..), Option.some.injEq, Task.mk.injEq] at here
      exact different here.1.symm
  have kept := popped.set absent changed workers
  rwa [set_channel_tasks] at kept

end Queued

theorem step_queued {state next : State} {event : Event} (queued : Queued state)
    (stepped : step state event = some next) : Queued next := by
  cases step_cases stepped with
  | spawn made =>
    rename_i order next
    have grown : Queued next := by
      intro other
      rw [made]
      refine ⟨(queued other).1, fun task member => ?_⟩
      have scheduled := (queued other).2 task member
      rw [← scheduled]
      exact List.getElem?_append_left (List.getElem?_eq_some_iff.mp scheduled).1
    refine grown.schedule ?_ (by simp [made]) _
    intro other member
    rw [made] at member
    have inside := (List.getElem?_eq_some_iff.mp ((queued other).2 _ member)).1
    exact Nat.lt_irrefl _ inside
  | wakes waiting =>
    exact queued.schedule (queued.absent waiting (by simp)) (List.getElem?_eq_some_iff.mp waiting).1 _
  | notes running => exact queued.set (queued.absent running (by simp)) _ _
  | ignores => exact queued
  | misses _ _ _ => exact queued
  | takes _ _ first => exact queued.takes first _ _
  | reschedules here running left =>
    rename_i next
    have moved : Queued next := by
      rw [left]
      exact queued
    rw [show state.tasks = next.tasks by rw [left]] at running
    exact moved.schedule (moved.absent running (by simp)) (List.getElem?_eq_some_iff.mp running).1 _
  | parks _ running => exact queued.set (queued.absent running (by simp)) _ _
  | completes _ running => exact queued.set (queued.absent running (by simp)) _ _

theorem reaches_queued {runtime : Runtime} {trace : List Event} {state : State}
    (reaches : (run runtime).Reaches trace state) : Queued state := by
  refine reaches.invariant Queued ?_ fun _ _ _ queued stepped => step_queued queued stepped
  intro order
  cases order <;> exact ⟨List.nodup_nil, fun task member => (by cases member)⟩

/-- The tasks whose `Runnable`s the workers have received, in this order. -/
def dequeued (trace : List Event) : List Nat :=
  trace.filterMap fun
    | .try_recv _ found | .steal _ found => found
    | _ => none

/-- The tasks of which a run has ended. -/
def ran (trace : List Event) : List Nat :=
  trace.filterMap fun
    | .pending _ task | .ready _ task => some task
    | _ => none

/-- Each `Runnable` that was in the high channel at the start has been received
and run. A run that has not ended is that of a worker whose turn has not ended. -/
def Served (start : State) (trace : List Event) (state : State) : Prop :=
  ∀ task ∈ start.high, task ∈ dequeued trace ∧
    (task ∈ ran trace ∨ ∃ (worker : Nat) (own : FutureType), state.workers[worker]? = some ⟨own, .run task⟩)

/-- Whether a worker calls `try_recv` on the high channel. -/
def Event.high (workers : List FutureType) : Event → Bool
  | .try_recv worker _ => workers[worker]? = some .high
  | .steal worker _ => workers[worker]? = some .low
  | _ => false

/-- How far the high channel has come since the start. -/
structure Progress (workers : List FutureType) (start : State) (trace : List Event) (state : State) : Prop where
  queued : Queued state
  orders : state.workers.map Worker.order = workers
  split : ∃ gone left new, start.high = gone ++ left ∧ state.high = left ++ new ∧ (∀ task ∈ gone, task ∈ dequeued trace) ∧
    (∀ task ∈ left, task ∉ dequeued trace) ∧ gone.length ≤ trace.countP (Event.high workers) ∧
    (left = [] ∨ gone.length = trace.countP (Event.high workers))
  runs : ∀ task ∈ dequeued trace,
    task ∈ ran trace ∨ ∃ (worker : Nat) (own : FutureType), state.workers[worker]? = some ⟨own, .run task⟩

theorem others_run {workers : List Worker} {worker other task : Nat} {own order : FutureType} {place : Place}
    (here : workers[worker]? = some ⟨own, place⟩) (there : workers[other]? = some ⟨order, .run task⟩)
    (idle : place ≠ .run task) (changed : Worker) : (workers.set worker changed)[other]? = some ⟨order, .run task⟩ := by
  rw [List.getElem?_set_ne, there]
  intro same
  subst same
  rw [there, Option.some.injEq, Worker.mk.injEq] at here
  exact idle here.2.symm

theorem step_orders {state next : State} {event : Event} (stepped : step state event = some next) :
    next.workers.map Worker.order = state.workers.map Worker.order := by
  cases step_cases stepped with
  | spawn made => simp [made]
  | wakes _ => rw [schedule_workers]
  | notes _ | ignores => rfl
  | misses _ here _ | takes _ here _ | parks here _ | completes here _ => exact map_set_found here Worker.order rfl
  | reschedules here _ left =>
    rw [schedule_workers, left]
    exact map_set_found here Worker.order rfl

theorem high_channel (state : State) : state.high = state.channel .high := rfl

namespace Progress
variable {workers : List FutureType} {start state next : State} {trace : List Event} {event : Event}

/-- A step that receives nothing and ends no run. -/
theorem quiet (progress : Progress workers start trace state) (stepped : step state event = some next)
    (kept : ∀ (worker : Nat) own task, state.workers[worker]? = some ⟨own, .run task⟩ →
      next.workers[worker]? = some ⟨own, .run task⟩ ∨ task ∈ ran (trace ++ [event]))
    (silent : dequeued (trace ++ [event]) = dequeued trace) (grown : ∃ new, next.high = state.high ++ new)
    (tried : event.high workers = true → state.high = []) : Progress workers start (trace ++ [event]) next := by
  obtain ⟨queued, orders, ⟨gone, left, new, whole, high, done, waits, few, all⟩, runs⟩ := progress
  obtain ⟨more, grown⟩ := grown
  refine ⟨step_queued queued stepped, (step_orders stepped).trans orders, ⟨gone, left, new ++ more, whole, ?_, ?_, ?_, ?_, ?_⟩, ?_⟩
  · rw [grown, high, List.append_assoc]
  · rwa [silent]
  · rwa [silent]
  · rw [List.countP_append]
    omega
  · rw [List.countP_append, List.countP_singleton]
    split
    · rename_i tries
      have none := tried tries
      rw [high] at none
      exact .inl (List.append_eq_nil_iff.mp none).1
    · exact all
  · intro task member
    rw [silent] at member
    rcases runs task member with ended | ⟨worker, own, here⟩
    · exact .inl (by simp only [ran, List.filterMap_append, List.mem_append] at ended ⊢; exact .inl ended)
    · rcases kept worker own task here with there | ended
      · exact .inr ⟨worker, own, there⟩
      · exact .inl ended

theorem called_high {worker : Nat} {own channel : FutureType} {place missed : Place} {found : Option Nat}
    (progress : Progress workers start trace state) (called : Calls worker own found event channel place missed)
    (here : state.workers[worker]? = some ⟨own, place⟩) : event.high workers = true ↔ channel = .high := by
  have order : workers[worker]? = some own := by
    rw [← progress.orders, List.getElem?_map, here]
    rfl
  cases called with
  | own => simp [Event.high, order]
  | steal =>
    cases own with
    | high => simp [Event.high, order, FutureType.other]
    | low => simp [Event.high, order, FutureType.other]

theorem receives {worker task : Nat} {own channel : FutureType} {place missed : Place} {rest : List Nat}
    (progress : Progress workers start trace state) (called : Calls worker own (some task) event channel place missed)
    (here : state.workers[worker]? = some ⟨own, place⟩) (first : state.channel channel = task :: rest)
    (stepped : step state event = some { state.set_channel channel rest with
      tasks := state.tasks.set task ⟨channel, .running false⟩
      workers := state.workers.set worker ⟨own, .run task⟩ }) :
    Progress workers start (trace ++ [event]) { state.set_channel channel rest with
      tasks := state.tasks.set task ⟨channel, .running false⟩
      workers := state.workers.set worker ⟨own, .run task⟩ } := by
  have counted := progress.called_high called here
  have received : dequeued (trace ++ [event]) = dequeued trace ++ [task] := by
    rw [dequeued, List.filterMap_append]
    cases called <;> rfl
  have ended : ran (trace ++ [event]) = ran trace := by
    rw [ran, List.filterMap_append]
    cases called <;> exact List.append_nil _
  have idle : ∀ other, place ≠ .run other := by
    cases called <;> simp
  obtain ⟨queued, orders, ⟨gone, left, new, whole, high, done, waits, few, all⟩, runs⟩ := progress
  refine ⟨step_queued queued stepped, (step_orders stepped).trans orders, ?_, ?_⟩
  · by_cases is_high : channel = .high
    · subst is_high
      have tries := counted.mpr rfl
      rw [List.countP_append, List.countP_singleton, if_pos tries]
      change state.high = task :: rest at first
      have distinct := (queued .high).1
      rw [← high_channel, first, List.nodup_cons] at distinct
      rw [received]
      cases left with
      | nil =>
        rw [List.nil_append] at high
        refine ⟨gone, [], rest, whole, rfl, ?_, by simp, by omega, .inl rfl⟩
        exact fun other member => List.mem_append_left _ (done other member)
      | cons next left =>
        rw [first, List.cons_append, List.cons.injEq] at high
        obtain ⟨rfl, high⟩ := high
        have length : gone.length = trace.countP (Event.high workers) := all.resolve_left (by simp)
        refine ⟨gone ++ [task], left, new, by simp [whole], high, ?_, ?_, ?_, .inr ?_⟩
        · intro other member
          rcases List.mem_append.mp member with old | last
          · exact List.mem_append_left _ (done other old)
          · exact List.mem_append_right _ last
        · intro other member inside
          rcases List.mem_append.mp inside with old | last
          · exact waits other (List.mem_cons_of_mem _ member) old
          · rw [List.mem_singleton.mp last] at member
            exact distinct.1 (high ▸ List.mem_append_left _ member)
        · rw [List.length_append, List.length_singleton]
          omega
        · rw [List.length_append, List.length_singleton, length]
    · have quiet : ¬ event.high workers = true := fun tries => is_high (counted.mp tries)
      rw [List.countP_append, List.countP_singleton, if_neg quiet, received]
      refine ⟨gone, left, new, whole, ?_, ?_, ?_, few, all⟩
      · rw [← high, high_channel state, high_channel, channel_with, channel_set_channel, if_neg (Ne.symm is_high)]
      · exact fun other member => List.mem_append_left _ (done other member)
      · intro other member inside
        rcases List.mem_append.mp inside with old | new
        · exact waits other member old
        · have in_high : other ∈ state.channel .high := by
            rw [← high_channel, high]
            exact List.mem_append_left _ member
          have in_channel : other ∈ state.channel channel := by
            rw [first, List.mem_singleton.mp new]
            exact List.mem_cons_self ..
          have two := ((queued .high).2 other in_high).symm.trans ((queued channel).2 other in_channel)
          rw [Option.some.injEq, Task.mk.injEq] at two
          exact is_high two.1.symm
  · intro other member
    rw [received] at member
    rw [ended]
    rcases List.mem_append.mp member with old | new
    · rcases runs other old with ended | ⟨place, order, there⟩
      · exact .inl ended
      · exact .inr ⟨place, order, others_run here there (idle other) _⟩
    · rw [List.mem_singleton.mp new]
      exact .inr ⟨worker, own, (getElem?_set_found here _ worker).trans (if_pos rfl)⟩

end Progress

theorem schedule_high (state : State) (task : Nat) (order : FutureType) :
    ∃ new, (state.schedule task order).high = state.high ++ new := by
  rw [high_channel, high_channel, channel_schedule]
  split
  · rename_i same
    exact ⟨[task], by rw [same]⟩
  · exact ⟨[], (List.append_nil _).symm⟩

theorem leaves {state : State} {worker task : Nat} {own : FutureType} {trace : List Event} {event : Event}
    (here : state.workers[worker]? = some ⟨own, .run task⟩) (ended : task ∈ ran (trace ++ [event])) (id : Nat)
    (order : FutureType) (other : Nat) (there : state.workers[id]? = some ⟨order, .run other⟩) (changed : Worker) :
    (state.workers.set worker changed)[id]? = some ⟨order, .run other⟩ ∨ other ∈ ran (trace ++ [event]) := by
  by_cases same : task = other
  · exact .inr (same ▸ ended)
  · exact .inl (others_run here there (by simpa) _)

theorem step_progress {workers : List FutureType} {start state next : State} {trace : List Event} {event : Event}
    (progress : Progress workers start trace state) (stepped : step state event = some next) :
    Progress workers start (trace ++ [event]) next := by
  have same : ∃ new, state.high = state.high ++ new := ⟨[], (List.append_nil _).symm⟩
  cases step_cases stepped with
  | spawn made =>
    subst made
    refine progress.quiet stepped (fun _ _ _ here => .inl (by simpa using here)) (by simp [dequeued]) ?_
      (by simp [Event.high])
    exact schedule_high _ _ _
  | wakes waiting =>
    exact progress.quiet stepped (fun _ _ _ here => .inl (by simpa using here)) (by simp [dequeued])
      (schedule_high _ _ _) (by simp [Event.high])
  | notes running =>
    exact progress.quiet stepped (fun _ _ _ here => .inl here) (by simp [dequeued]) same (by simp [Event.high])
  | ignores =>
    exact progress.quiet stepped (fun _ _ _ here => .inl here) (by simp [dequeued]) same (by simp [Event.high])
  | misses called here empty =>
    have counted := progress.called_high called here
    refine progress.quiet stepped (fun id order task there => .inl ?_) ?_ same ?_
    · exact others_run here there (by cases called <;> simp) _
    · cases called <;> simp [dequeued]
    · intro tries
      rwa [counted.mp tries] at empty
  | takes called here first => exact progress.receives called here first stepped
  | reschedules here running left =>
    subst left
    refine progress.quiet stepped (fun id order other there => ?_) (by simp [dequeued]) (schedule_high _ _ _)
      (by simp [Event.high])
    rw [schedule_workers]
    exact leaves here (by simp [ran]) id order other there _
  | parks here running =>
    exact progress.quiet stepped
      (fun id order other there => leaves here (by simp [ran]) id order other there _) (by simp [dequeued]) same
      (by simp [Event.high])
  | completes here running =>
    exact progress.quiet stepped
      (fun id order other there => leaves here (by simp [ran]) id order other there _) (by simp [dequeued]) same
      (by simp [Event.high])

theorem runs_progress {runtime : Runtime} {before after : List Event} {start state : State}
    (reaches : (run runtime).Reaches before start) (runs : (run runtime).runFrom start after = some state) :
    Progress runtime.workers start after state := by
  induction after using List.reverseRecOn generalizing state with
  | nil =>
    cases runs
    have orders : start.workers.map Worker.order = runtime.workers := by
      refine reaches.invariant (fun state => state.workers.map Worker.order = runtime.workers) ?_ ?_
      · simp [run, Function.comp_def]
      · exact fun _ _ _ orders stepped => (step_orders stepped).trans orders
    refine ⟨reaches_queued reaches, orders, ⟨[], start.high, [], rfl, (List.append_nil _).symm, ?_, ?_, ?_, ?_⟩, ?_⟩
    · intro task member
      cases member
    · simp [dequeued]
    · exact Nat.le_refl 0
    · exact .inr rfl
    · simp [dequeued]
  | append_singleton after event ih =>
    obtain ⟨middle, earlier, last⟩ := (Machine.runFrom_append_some (run runtime)).mp runs
    have stepped : step middle event = some state := by simpa [run] using last
    exact step_progress (ih earlier) stepped

/-- The high `Runnable`s of the start have been run exactly if `try_recv` has
been called on their channel so many times. -/
theorem served_iff {runtime : Runtime} {before after : List Event} {start state : State}
    (reaches : (run runtime).Reaches before start) (runs : (run runtime).runFrom start after = some state) :
    Served start after state ↔ start.high.length ≤ after.countP (Event.high runtime.workers) := by
  have progress := runs_progress reaches runs
  obtain ⟨gone, left, new, whole, _, done, waits, few, all⟩ := progress.split
  have length : start.high.length = gone.length + left.length := by rw [whole, List.length_append]
  constructor
  · intro served
    cases left with
    | nil =>
      rw [List.length_nil] at length
      omega
    | cons task left =>
      have member : task ∈ start.high := by simp [whole]
      exact absurd (served task member).1 (waits task (List.mem_cons_self ..))
  · intro enough task member
    have received : task ∈ dequeued after := by
      rcases all with none | counted
      · rw [none, List.append_nil] at whole
        exact done task (whole ▸ member)
      · have none : left = [] := List.eq_nil_of_length_eq_zero (by omega)
        rw [none, List.append_nil] at whole
        exact done task (whole ▸ member)
    exact ⟨received, progress.runs task received⟩

/-- The turns that a worker has begun. -/
def turns (worker : Nat) (trace : List Event) : Nat :=
  trace.countP fun
    | .try_recv id _ => id = worker
    | _ => false

/-- The turns in which a worker has found its own channel empty. -/
def steals (worker : Nat) (trace : List Event) : Nat :=
  trace.countP fun
    | .steal id _ => id = worker
    | _ => false

/-- A worker of the high queue serves the high channel in each of its turns. -/
theorem turns_high {workers : List FutureType} {worker : Nat} (high : workers[worker]? = some .high) (trace : List Event) :
    turns worker trace ≤ trace.countP (Event.high workers) := by
  refine List.countP_mono_left fun event _ own => ?_
  cases event with
  | try_recv id _ =>
    have same : id = worker := by simpa using own
    simp [Event.high, same, high]
  | _ => simp at own

theorem steals_low (trace : List Event) : trace.countP (Event.high [.low]) = steals 0 trace := by
  refine List.countP_congr fun event _ => ?_
  cases event with
  | try_recv id _ => cases id <;> simp [Event.high]
  | steal id _ => cases id <;> simp [Event.high]
  | _ => simp [Event.high]

/-- With two cores there is no high worker, and the low worker, which has the
number `num_cores - 2`, serves the high channel only when its own is empty. -/
theorem high_tasks_served {num_cores : Nat} {runtime : Runtime} (new : Runtime.new num_cores = some runtime)
    {before after : List Event} {start state : State} (reaches : (run runtime).Reaches before start)
    (runs : (run runtime).runFrom start after = some state)
    (each : ∀ worker < runtime.workers.length, start.high.length ≤ turns worker after) :
    Served start after state ↔ 3 ≤ num_cores ∨ start.high.length ≤ steals (num_cores - 2) after := by
  rw [served_iff reaches runs]
  simp only [Runtime.new, Option.ite_none_right_eq_some, Option.some.injEq] at new
  obtain ⟨enough, rfl⟩ := new
  by_cases many : 3 ≤ num_cores
  · have first : (Runtime.mk (num_cores - 2) 1).workers[0]? = some .high := by
      obtain ⟨cores, rfl⟩ := Nat.exists_eq_add_of_le many
      simp [Runtime.workers, show 3 + cores - 2 = cores + 1 by omega, List.replicate_succ]
    have inside := (List.getElem?_eq_some_iff.mp first).1
    exact iff_of_true (Nat.le_trans (each 0 inside) (turns_high first after)) (.inl many)
  · have two : num_cores = 2 := by omega
    subst two
    rw [show (Runtime.mk (2 - 2) 1).workers = [.low] from rfl, steals_low]
    exact ⟨fun served => .inr served, fun either => either.resolve_left many⟩

/-- A low task that reschedules itself, like the `BackgroundProcess`. -/
def background : List Event := [.try_recv 0 (some 0), .wake 0, .pending 0 0]

/-- With two cores it is the only one to run, for as many turns as one likes. -/
theorem background_starves (count : Nat) :
    let start : State := ⟨[1], [0], [⟨.low, .scheduled⟩, ⟨.high, .scheduled⟩], [⟨.low, .top⟩]⟩
    (run ⟨0, 1⟩).runFrom start (List.replicate count background).flatten = some start := by
  intro start
  induction count with
  | zero => rfl
  | succ count ih =>
    rw [List.replicate_succ, List.flatten_cons]
    exact (Machine.runFrom_append_some _).mpr ⟨start, rfl, ih⟩

/-- On three cores the low worker has stolen the task when the high worker looks for it. -/
theorem high_tasks_served_stealing :
    let after : List Event := [.try_recv 1 (some 1), .ready 1 1, .try_recv 1 none, .steal 1 (some 0), .try_recv 0 none]
    let start : State := ⟨[0], [1], [⟨.high, .scheduled⟩, ⟨.low, .scheduled⟩], [⟨.high, .top⟩, ⟨.low, .top⟩]⟩
    ∃ state, (run ⟨1, 1⟩).runFrom start after = some state ∧
      (Served start after state ↔ 3 ≤ 3 ∨ 1 ≤ steals (3 - 2) after) := by
  intro after start
  have reaches : (run ⟨1, 1⟩).Reaches [.spawn_task .high, .spawn_task .low] start := rfl
  have new : Runtime.new 3 = some ⟨1, 1⟩ := rfl
  exact ⟨_, rfl, high_tasks_served new reaches rfl (by decide)⟩

/-- `main` on two cores: the tasks of `run` complete, and a `BackgroundProcess`
and a high task are spawned. -/
theorem high_task_waits :
    ¬ ∀ num_cores runtime before after start state, Runtime.new num_cores = some runtime →
      (run runtime).Reaches before start → (run runtime).runFrom start after = some state →
      (∀ worker < runtime.workers.length, start.high.length ≤ turns worker after) → Served start after state := by
  intro always
  let before : List Event := [.spawn_task .high, .spawn_task .low, .try_recv 0 (some 1), .ready 0 1, .try_recv 0 none,
    .steal 0 (some 0), .ready 0 0, .spawn_task .low, .spawn_task .high]
  let after : List Event := [.try_recv 0 (some 2), .wake 2, .pending 0 2]
  have served := always 2 ⟨0, 1⟩ before after _ _ rfl rfl rfl (by decide) 3 (by decide)
  exact absurd served.1 (by decide)

end RustAsyncAwait.PriorityRuntime
