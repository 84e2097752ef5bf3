import RustAsyncAwait.Executor
import Mathlib.Data.List.Nodup
import Mathlib.Tactic.Common

/-! Every task of the executor is in one place. The argument needs distinct
task ids, so it holds while the spawn counter has not wrapped. -/

namespace RustAsyncAwait.Executor
open Library

namespace State

def spawned (state : State) : Nat := state.wakers.length

def InPolling (state : State) (future : Nat) : Prop := ∃ task : Task, task ∈ state.polling ∧ task.future = future

def InWaiting (state : State) (future : Nat) : Prop :=
  ∃ (key : Nat) (task : Task), state.waiting[key]? = some task ∧ task.future = future

/-- The poll loop holds the task on its stack, from `pop_front` until it is
dropped or stored in `waiting`. -/
def BeingPolled (state : State) (future : Nat) : Prop :=
  ∃ caller task, state.control = .polling caller task ∧ task.future = future

end State

/-- All that one step can do, with the guards it passed. -/
inductive Step : State → Event → State → Prop
  | spawn_rcv {state} (outside : state.control = .idle ∨ ∃ caller task, state.control = .polling caller task) :
      Step state .spawn_rcv state.spawn_rcv
  | wake {state future task_id} (made : state.wakers[future]? = some task_id) :
      Step state (.wake future) (state.send task_id)
  | run {state} (idle : state.control = .idle) : Step state .run { state with control := .poll .run }
  | poll {state} (idle : state.control = .idle) : Step state .poll { state with control := .poll .owner }
  | pop {state caller task rest} (control : state.control = .poll caller) (front : state.polling = task :: rest) :
      Step state (.pop task.future) { state with polling := rest, control := .polling caller task }
  | pending {state caller task} (control : state.control = .polling caller task) :
      Step state (.pending task.future)
        { state with waiting := state.waiting.insert task.task_id task, control := .poll caller }
  | ready {state caller task} (control : state.control = .polling caller task) :
      Step state (.ready task.future) { state with control := .poll caller }
  | drained {state caller} (control : state.control = .poll caller) (empty : state.polling = []) :
      Step state .drained (state.returnFromPoll caller)
  | finish {state} (control : state.control = .check) (polling : state.polling = [])
      (waiting : state.waiting.isEmpty = true) :
      Step state .finish { state with control := .idle }
  | block {state} (control : state.control = .check)
      (left : ¬ (state.polling = [] ∧ state.waiting.isEmpty = true)) :
      Step state .block { state with control := .recv }
  | recv {state task_id rest} (control : state.control = .recv) (head : state.channel = task_id :: rest) :
      Step state (.recv task_id) ({ state with channel := rest, control := .poll .run }.unpark task_id)

theorem step_cases {state next : State} {event : Event} (stepped : step state event = some next) :
    Step state event next := by
  cases event with
  | spawn_rcv =>
    simp only [step] at stepped
    split at stepped
    next idle => cases stepped; exact .spawn_rcv (.inl idle)
    next caller task held => cases stepped; exact .spawn_rcv (.inr ⟨caller, task, held⟩)
    next => cases stepped
  | wake future =>
    obtain ⟨task_id, made, rfl⟩ := Option.map_eq_some_iff.mp stepped
    exact .wake made
  | run =>
    simp only [step, Option.ite_none_right_eq_some, Option.some.injEq] at stepped
    obtain ⟨idle, rfl⟩ := stepped
    exact .run idle
  | poll =>
    simp only [step, Option.ite_none_right_eq_some, Option.some.injEq] at stepped
    obtain ⟨idle, rfl⟩ := stepped
    exact .poll idle
  | pop future =>
    simp only [step] at stepped
    split at stepped
    next caller task rest control front =>
      simp only [Option.ite_none_right_eq_some, Option.some.injEq] at stepped
      obtain ⟨rfl, rfl⟩ := stepped
      exact .pop control front
    next => cases stepped
  | pending future =>
    simp only [step] at stepped
    split at stepped
    next caller task control =>
      simp only [Option.ite_none_right_eq_some, Option.some.injEq] at stepped
      obtain ⟨rfl, rfl⟩ := stepped
      exact .pending control
    next => cases stepped
  | ready future =>
    simp only [step] at stepped
    split at stepped
    next caller task control =>
      simp only [Option.ite_none_right_eq_some, Option.some.injEq] at stepped
      obtain ⟨rfl, rfl⟩ := stepped
      exact .ready control
    next => cases stepped
  | drained =>
    simp only [step] at stepped
    split at stepped
    next caller control empty =>
      cases stepped
      exact .drained control empty
    next => cases stepped
  | finish =>
    simp only [step, Option.ite_none_right_eq_some, Option.some.injEq, List.isEmpty_iff] at stepped
    obtain ⟨⟨control, polling, waiting⟩, rfl⟩ := stepped
    exact .finish control polling waiting
  | block =>
    simp only [step, Option.ite_none_right_eq_some, Option.some.injEq, List.isEmpty_iff] at stepped
    obtain ⟨⟨control, left⟩, rfl⟩ := stepped
    exact .block control left
  | recv task_id =>
    simp only [step] at stepped
    split at stepped
    next received rest control head =>
      simp only [Option.ite_none_right_eq_some, Option.some.injEq] at stepped
      obtain ⟨rfl, rfl⟩ := stepped
      exact .recv control head
    next => cases stepped

theorem Step.sound {state next : State} {event : Event} (stepped : Step state event next) :
    step state event = some next := by
  cases stepped with
  | spawn_rcv outside =>
    rcases outside with control | ⟨caller, task, control⟩ <;> simp only [step, control]
  | wake made => simp only [step, made, Option.map_some]
  | run idle | poll idle => simp only [step, idle, if_true]
  | pop control front => simp only [step, control, front, if_true]
  | pending control | ready control => simp only [step, control, if_true]
  | drained control empty => simp only [step, control, empty]
  | finish control polling waiting => simp [step, control, polling, waiting]
  | block control left => simpa [step, control] using left
  | recv control head => simp only [step, control, head, if_true]

inductive Place
  | polling
  | waiting
  | polled
deriving DecidableEq

/-- The abstract executor only says where each live future is. `home` is its
state: a function, so that no future can be in two places. -/
structure Tracks (trace : List Event) (state : State) (home : Nat → Option Place) : Prop where
  count : state.count = state.spawned % usizeSize
  wakers : ∀ future, future < state.spawned → state.wakers[future]? = some future
  polling : ∀ future task_id, ⟨future, task_id⟩ ∈ state.polling ↔ task_id = future ∧ home future = some .polling
  distinct : state.polling.Nodup
  waiting : ∀ key future task_id : Nat, state.waiting[key]? = some ⟨future, task_id⟩ ↔
    key = future ∧ task_id = future ∧ home future = some .waiting
  polled : ∀ future task_id, state.control.held = some ⟨future, task_id⟩ ↔
    task_id = future ∧ home future = some .polled
  live : ∀ future, home future = none ↔ future < state.spawned → .ready future ∈ trace
  finished : ∀ future, .ready future ∈ trace → future < state.spawned
  drained : state.control = .check ∨ state.control = .recv → state.polling = []

theorem Tracks.initial : Tracks [] {} fun _ => none := by
  constructor <;> simp [State.spawned, Control.held]

private theorem distinct_snoc {tasks : List Task} {task : Task} (distinct : tasks.Nodup) (absent : task ∉ tasks) :
    (tasks ++ [task]).Nodup :=
  List.nodup_append_comm.mp (List.nodup_cons.mpr ⟨absent, distinct⟩)

/-- Tasks that carry their own future as their id. -/
private theorem task_eq {other id future : Nat} : (⟨other, id⟩ : Task) = ⟨future, future⟩ ↔ id = other ∧ other = future := by
  rw [Task.mk.injEq]
  constructor
  · intro same
    exact ⟨same.2.trans same.1.symm, same.1⟩
  · intro same
    exact ⟨same.2, same.1.trans same.2⟩

section Update
variable {α β : Type} [DecidableEq α] {home : α → β} {future other : α} {place target : β}

/-- A task that moves between two other places. -/
private theorem update_elsewhere (from_other : home future ≠ target) (to_other : place ≠ target) :
    Function.update home future place other = target ↔ home other = target := by
  by_cases same : other = future
  · subst same
    simp [from_other, to_other]
  · simp [same]

private theorem update_target : Function.update home future target other = target ↔ other = future ∨ home other = target := by
  by_cases same : other = future <;> simp [same]

private theorem update_source (to_other : place ≠ target) :
    Function.update home future place other = target ↔ other ≠ future ∧ home other = target := by
  by_cases same : other = future <;> simp [same, to_other]

end Update

namespace Tracks
variable {trace : List Event} {state : State} {home : Nat → Option Place}

/-- Only spawned tasks that are not finished have a place. -/
theorem of_placed (tracks : Tracks trace state home) {future : Nat} {place : Place} (placed : home future = some place) :
    future < state.spawned ∧ .ready future ∉ trace := by
  apply Classical.not_imp.mp
  rw [← tracks.live, placed]
  simp

/-- Events that complete no task are not in the record. -/
theorem later (tracks : Tracks trace state home) {event : Event} (unready : ∀ future, event ≠ .ready future) :
    Tracks (trace ++ [event]) state home := by
  have same : ∀ future, .ready future ∈ trace ++ [event] ↔ .ready future ∈ trace := by
    intro future
    simp [Ne.symm (unready future)]
  refine { tracks with live := fun future => ?_, finished := fun future => ?_ }
  · rw [same]
    exact tracks.live future
  · rw [same]
    exact tracks.finished future

/-- The thread goes on without a task. -/
theorem goes (tracks : Tracks trace state home) {control : Control} (channel : List Nat)
    (free : state.control.held = none) (still : control.held = none)
    (drained : control = .check ∨ control = .recv → state.polling = []) :
    Tracks trace { state with channel := channel, control := control } home := by
  refine { tracks with polled := fun future task_id => ?_, drained := drained }
  rw [still, ← free]
  exact tracks.polled future task_id

/-- The deque with one more task. -/
theorem enqueued (tracks : Tracks trace state home) {other id future : Nat} :
    (⟨other, id⟩ : Task) ∈ state.polling ++ [⟨future, future⟩] ↔
      id = other ∧ Function.update home future (some .polling) other = some .polling := by
  rw [List.mem_append, List.mem_singleton, tracks.polling, task_eq, update_target, ← and_or_left, or_comm]

theorem unqueued (tracks : Tracks trace state home) {future : Nat} (placed : home future ≠ some .polling) :
    (state.polling ++ [(⟨future, future⟩ : Task)]).Nodup := by
  apply distinct_snoc tracks.distinct
  intro member
  exact placed ((tracks.polling _ _).mp member).2

theorem spawns (tracks : Tracks trace state home) (room : state.spawned < usizeSize)
    (outside : state.control = .idle ∨ ∃ caller task, state.control = .polling caller task) :
    Tracks trace state.spawn_rcv (Function.update home state.spawned (some .polling)) := by
  have unborn : home state.spawned = none := (tracks.live _).mpr fun later => absurd later (Nat.lt_irrefl _)
  have named : state.count = state.spawned := tracks.count.trans (Nat.mod_eq_of_lt room)
  have grown : state.spawn_rcv.spawned = state.spawned + 1 := by simp [State.spawn_rcv, State.spawned]
  constructor
  · show (state.count + 1) % usizeSize = _
    rw [grown, named]
  · intro future inside
    show (state.wakers ++ [state.count])[future]? = some future
    rw [grown] at inside
    rcases Nat.lt_succ_iff_lt_or_eq.mp inside with before | rfl
    · rw [List.getElem?_append_left before]
      exact tracks.wakers future before
    · rw [State.spawned, List.getElem?_concat_length, named, State.spawned]
  · intro future task_id
    show (⟨future, task_id⟩ : Task) ∈ state.polling ++ [⟨state.spawned, state.count⟩] ↔ _
    rw [named]
    exact tracks.enqueued
  · show (state.polling ++ [(⟨state.spawned, state.count⟩ : Task)]).Nodup
    rw [named]
    exact tracks.unqueued (by simp [unborn])
  · intro key future task_id
    rw [update_elsewhere (by simp [unborn]) (by simp)]
    exact tracks.waiting key future task_id
  · intro future task_id
    rw [update_elsewhere (by simp [unborn]) (by simp)]
    exact tracks.polled future task_id
  · intro future
    rw [update_source (by simp), tracks.live, grown]
    constructor
    · intro ⟨old, finished⟩ inside
      exact finished (by omega)
    · intro finished
      refine ⟨?_, fun inside => finished (by omega)⟩
      intro new
      have old := tracks.finished _ (finished (by omega))
      omega
  · intro future finished
    rw [grown]
    exact Nat.lt_succ_of_lt (tracks.finished future finished)
  · intro place
    rcases outside with control | ⟨caller, task, control⟩ <;> simp [State.spawn_rcv, control] at place

theorem pops (tracks : Tracks trace state home) {caller : Caller} {task : Task} {rest : List Task}
    (control : state.control = .poll caller) (front : state.polling = task :: rest) :
    Tracks trace { state with polling := rest, control := .polling caller task }
      (Function.update home task.future (some .polled)) := by
  obtain ⟨future, task_id⟩ := task
  obtain ⟨rfl, placed⟩ := (tracks.polling future task_id).mp (by simp [front])
  have distinct := tracks.distinct
  rw [front, List.nodup_cons] at distinct
  refine { tracks with
    polling := fun other task_id => ?_, distinct := distinct.2, waiting := fun key other task_id => ?_,
    polled := fun other task_id => ?_, live := fun other => ?_, drained := fun place => by simp at place }
  · have listed := tracks.polling other task_id
    rw [front, List.mem_cons, Task.mk.injEq] at listed
    rw [update_source (by simp)]
    constructor
    · intro member
      obtain ⟨rfl, waits⟩ := listed.mp (.inr member)
      refine ⟨rfl, ?_, waits⟩
      intro same
      subst same
      exact distinct.1 member
    · intro placed
      obtain ⟨same, different, waits⟩ := placed
      rcases listed.mpr ⟨same, waits⟩ with ⟨head, _⟩ | member
      · exact absurd head different
      · exact member
  · rw [update_elsewhere (by simp [placed]) (by simp)]
    exact tracks.waiting key other task_id
  · have nobody : home other ≠ some .polled := by
      intro polled
      have held := (tracks.polled other other).mpr ⟨rfl, polled⟩
      rw [control] at held
      cases held
    rw [update_target, or_iff_left nobody, Control.held, Option.some.injEq, eq_comm, task_eq]
  · rw [update_elsewhere (by simp [placed]) (by simp)]
    exact tracks.live other

/-- The task on the stack is the one that is polled. -/
theorem on_stack (tracks : Tracks trace state home) {caller : Caller} {task : Task}
    (control : state.control = .polling caller task) :
    task = ⟨task.future, task.future⟩ ∧ home task.future = some .polled ∧
      ∀ other, home other = some .polled → other = task.future := by
  obtain ⟨future, task_id⟩ := task
  obtain ⟨rfl, placed⟩ := (tracks.polled future task_id).mp (by rw [control, Control.held])
  refine ⟨rfl, placed, fun other polled => ?_⟩
  have held := (tracks.polled other other).mpr ⟨rfl, polled⟩
  rw [control, Control.held, Option.some.injEq, Task.mk.injEq] at held
  exact held.1.symm

/-- Once its task has a place, the stack is empty. -/
private theorem unstacked {caller : Caller} {future : Nat} {place : Option Place} (moved : place ≠ some .polled)
    (only : ∀ other, home other = some .polled → other = future) (other id : Nat) :
    (Control.poll caller).held = some ⟨other, id⟩ ↔
      id = other ∧ Function.update home future place other = some .polled := by
  rw [update_source moved]
  constructor
  · intro held
    cases held
  · intro placed
    exact absurd (only other placed.2.2) placed.2.1

theorem waits (tracks : Tracks trace state home) {caller : Caller} {task : Task}
    (control : state.control = .polling caller task) :
    Tracks trace { state with waiting := state.waiting.insert task.task_id task, control := .poll caller }
      (Function.update home task.future (some .waiting)) := by
  obtain ⟨named, placed, only⟩ := tracks.on_stack control
  refine { tracks with
    polling := fun other task_id => ?_, waiting := fun key other task_id => ?_,
    polled := unstacked (by simp) only, live := fun other => ?_, drained := fun place => by simp at place }
  · rw [update_elsewhere (by simp [placed]) (by simp)]
    exact tracks.polling other task_id
  · rw [update_target]
    simp only [HashMap.get_insert]
    have stored := tracks.waiting key other task_id
    rw [named]
    split
    next same =>
      subst same
      rw [Option.some.injEq, eq_comm, task_eq]
      constructor
      · intro new
        exact ⟨new.2.symm, new.1, .inl new.2⟩
      · intro placed
        exact ⟨placed.2.1, placed.1.symm⟩
    next different =>
      rw [stored]
      constructor
      · intro old
        exact ⟨old.1, old.2.1, .inr old.2.2⟩
      · intro placed
        obtain ⟨same, id, new | waits⟩ := placed
        · exact absurd (same.trans new).symm different
        · exact ⟨same, id, waits⟩
  · rw [update_elsewhere (by simp [placed]) (by simp)]
    exact tracks.live other

theorem completes (tracks : Tracks trace state home) {caller : Caller} {task : Task}
    (control : state.control = .polling caller task) :
    Tracks (trace ++ [.ready task.future]) { state with control := .poll caller } (Function.update home task.future none) := by
  obtain ⟨_, placed, only⟩ := tracks.on_stack control
  refine { tracks with
    polling := fun other task_id => ?_, waiting := fun key other task_id => ?_,
    polled := unstacked (by simp) only, live := fun other => ?_, finished := fun other => ?_,
    drained := fun place => by simp at place }
  · rw [update_elsewhere (by simp [placed]) (by simp)]
    exact tracks.polling other task_id
  · rw [update_elsewhere (by simp [placed]) (by simp)]
    exact tracks.waiting key other task_id
  · rw [update_target, tracks.live, List.mem_append, List.mem_singleton, Event.ready.injEq]
    constructor
    · intro placed inside
      rcases placed with same | finished
      · exact .inr same
      · exact .inl (finished inside)
    · intro finished
      by_cases same : other = task.future
      · exact .inl same
      · exact .inr fun inside => (finished inside).resolve_right same
  · rw [List.mem_append, List.mem_singleton, Event.ready.injEq]
    intro completed
    rcases completed with finished | rfl
    · exact tracks.finished other finished
    · exact (tracks.of_placed placed).1

theorem returns (tracks : Tracks trace state home) {task_id : Nat} {task : Task}
    (found : state.waiting[task_id]? = some task) (free : state.control.held = none) (rest : List Nat) :
    Tracks trace { state with
        channel := rest, control := .poll .run, waiting := state.waiting.erase task_id, polling := state.polling ++ [task] }
      (Function.update home task.future (some .polling)) := by
  obtain ⟨future, stored⟩ := task
  obtain ⟨rfl, rfl, placed⟩ := (tracks.waiting task_id future stored).mp found
  refine { tracks with
    polling := fun other id => tracks.enqueued, distinct := tracks.unqueued (by simp [placed]),
    waiting := fun key other id => ?_, polled := fun other id => ?_, live := fun other => ?_,
    drained := fun place => by simp at place }
  · rw [update_source (by simp)]
    simp only [HashMap.get_erase]
    split
    next same =>
      constructor
      · intro absent
        cases absent
      · intro placed
        exact absurd (same.trans placed.1).symm placed.2.2.1
    next different =>
      rw [tracks.waiting]
      constructor
      · intro old
        exact ⟨old.1, old.2.1, fun same => different (old.1.trans same).symm, old.2.2⟩
      · intro placed
        exact ⟨placed.1, placed.2.1, placed.2.2.2⟩
  · rw [update_elsewhere (by simp [placed]) (by simp)]
    have polled := tracks.polled other id
    rwa [free] at polled
  · rw [update_elsewhere (by simp [placed]) (by simp)]
    exact tracks.live other

end Tracks

theorem Tracks.step {trace : List Event} {state next : State} {event : Event} {home : Nat → Option Place}
    (tracks : Tracks trace state home) (stepped : Step state event next) (fits : next.spawned ≤ usizeSize) :
    ∃ home, Tracks (trace ++ [event]) next home := by
  cases stepped with
  | spawn_rcv outside =>
    have room : state.spawned < usizeSize := Nat.lt_of_succ_le (by simpa [State.spawn_rcv, State.spawned] using fits)
    exact ⟨_, (tracks.spawns room outside).later (by simp)⟩
  | wake made => exact ⟨home, { tracks.later (by simp) with }⟩
  | run idle | poll idle =>
    exact ⟨home, (tracks.goes state.channel (by rw [idle]; rfl) rfl (by simp)).later (by simp)⟩
  | pop control front => exact ⟨_, (tracks.pops control front).later (by simp)⟩
  | pending control => exact ⟨_, (tracks.waits control).later (by simp)⟩
  | ready control => exact ⟨_, tracks.completes control⟩
  | @drained caller control empty =>
    have free : state.control.held = none := by rw [control]; rfl
    cases caller with
    | run => exact ⟨home, (tracks.goes state.channel free rfl fun _ => empty).later (by simp)⟩
    | owner => exact ⟨home, (tracks.goes state.channel free rfl (by simp)).later (by simp)⟩
  | finish control _ _ =>
    exact ⟨home, (tracks.goes state.channel (by rw [control]; rfl) rfl (by simp)).later (by simp)⟩
  | block control _ =>
    have free : state.control.held = none := by rw [control]; rfl
    exact ⟨home, (tracks.goes state.channel free rfl fun _ => tracks.drained (.inl control)).later (by simp)⟩
  | @recv task_id rest control head =>
    have free : state.control.held = none := by rw [control]; rfl
    unfold State.unpark
    split
    next task found => exact ⟨_, (tracks.returns found free rest).later (by simp)⟩
    next => exact ⟨home, (tracks.goes rest free rfl (by simp)).later (by simp)⟩

@[simp] theorem unpark_control (state : State) (task_id : Nat) : (state.unpark task_id).control = state.control := by
  simp only [State.unpark]
  split <;> rfl

@[simp] theorem unpark_wakers (state : State) (task_id : Nat) : (state.unpark task_id).wakers = state.wakers := by
  simp only [State.unpark]
  split <;> rfl

@[simp] theorem unpark_channel (state : State) (task_id : Nat) : (state.unpark task_id).channel = state.channel := by
  simp only [State.unpark]
  split <;> rfl

theorem Step.spawned_eq {state next : State} {event : Event} (stepped : Step state event next) :
    next.spawned = state.spawned + [event].count .spawn_rcv := by
  cases stepped with
  | @drained caller => cases caller <;> simp [State.spawned, State.returnFromPoll]
  | spawn_rcv | wake | run | poll | pop | pending | ready | finish | block | recv =>
    simp [State.spawned, State.spawn_rcv, State.send]

theorem Step.spawned_le {state next : State} {event : Event} (stepped : Step state event next) :
    state.spawned ≤ next.spawned := by
  rw [stepped.spawned_eq]
  exact Nat.le_add_right _ _

theorem spawned_eq {trace : List Event} {state : State} (reaches : executor.Reaches trace state) :
    state.spawned = trace.count .spawn_rcv := by
  apply reaches.trace_invariant (fun trace state => state.spawned = trace.count .spawn_rcv) rfl
  intro trace state event next _ counted stepped
  rw [List.count_append, ← counted, (step_cases stepped).spawned_eq]

/-- In every reachable state the abstract executor can follow the code, as long
as the ids are distinct. -/
theorem tracked {trace : List Event} {state : State} (reaches : executor.Reaches trace state)
    (fits : state.spawned ≤ usizeSize) : ∃ home, Tracks trace state home := by
  refine reaches.trace_invariant
    (fun trace state => state.spawned ≤ usizeSize → ∃ home, Tracks trace state home) ?_ ?_ fits
  · exact fun _ => ⟨_, .initial⟩
  · intro trace state event next _ earlier stepped fits
    have stepped := step_cases stepped
    obtain ⟨home, tracks⟩ := earlier (Nat.le_trans stepped.spawned_le fits)
    exact tracks.step stepped fits

namespace Tracks
variable {trace : List Event} {state : State} {home : Nat → Option Place} {future : Nat}

theorem alive (tracks : Tracks trace state home) (inside : future < state.spawned)
    (unfinished : .ready future ∉ trace) : ∃ place, home future = some place := by
  apply Option.ne_none_iff_exists'.mp
  intro absent
  exact unfinished ((tracks.live future).mp absent inside)

theorem inPolling (tracks : Tracks trace state home) : state.InPolling future ↔ home future = some .polling := by
  constructor
  · intro queued
    obtain ⟨⟨_, task_id⟩, member, rfl⟩ := queued
    exact ((tracks.polling _ task_id).mp member).2
  · intro placed
    exact ⟨⟨future, future⟩, (tracks.polling _ _).mpr ⟨rfl, placed⟩, rfl⟩

theorem inWaiting (tracks : Tracks trace state home) : state.InWaiting future ↔ home future = some .waiting := by
  constructor
  · intro parked
    obtain ⟨key, ⟨_, task_id⟩, found, rfl⟩ := parked
    exact ((tracks.waiting key _ task_id).mp found).2.2
  · intro placed
    exact ⟨future, ⟨future, future⟩, (tracks.waiting _ _ _).mpr ⟨rfl, rfl, placed⟩, rfl⟩

theorem beingPolled (tracks : Tracks trace state home) : state.BeingPolled future ↔ home future = some .polled := by
  constructor
  · intro stacked
    obtain ⟨caller, ⟨_, task_id⟩, control, rfl⟩ := stacked
    exact ((tracks.polled _ task_id).mp (by rw [control, Control.held])).2
  · intro placed
    have held := (tracks.polled future future).mpr ⟨rfl, placed⟩
    cases control : state.control with
    | polling caller task =>
      simp only [control, Control.held, Option.some.injEq] at held
      exact ⟨caller, task, control, by rw [held]⟩
    | idle | poll _ | check | recv => simp [control, Control.held] at held

theorem once (tracks : Tracks trace state home) (placed : home future = some .polling) :
    (state.polling.map Task.future).count future = 1 := by
  have distinct : (state.polling.map Task.future).Nodup := by
    apply List.Nodup.map_on _ tracks.distinct
    intro task member twin present same
    obtain ⟨first, id⟩ := task
    obtain ⟨second, other⟩ := twin
    rw [((tracks.polling _ _).mp member).1, ((tracks.polling _ _).mp present).1]
    exact congrArg (fun future => Task.mk future future) same
  apply List.count_eq_one_of_mem distinct
  exact List.mem_map.mpr ⟨⟨future, future⟩, (tracks.polling _ _).mpr ⟨rfl, placed⟩, rfl⟩

end Tracks

/-- Once in `polling`, or under one key of `waiting`, or on the poll loop's
stack, and never in two of them. -/
def InOnePlace (state : State) (future : Nat) : Prop :=
  (state.polling.map Task.future).count future = 1 ∧ ¬ state.InWaiting future ∧ ¬ state.BeingPolled future ∨
  ¬ state.InPolling future ∧
    (∃! key : Nat, ∃ task : Task, state.waiting[key]? = some task ∧ task.future = future) ∧
    ¬ state.BeingPolled future ∨
  ¬ state.InPolling future ∧ ¬ state.InWaiting future ∧ state.BeingPolled future

theorem Tracks.inOnePlace {trace : List Event} {state : State} {home : Nat → Option Place} {future : Nat}
    (tracks : Tracks trace state home) (inside : future < state.spawned) (unfinished : .ready future ∉ trace) :
    InOnePlace state future := by
  obtain ⟨place, placed⟩ := tracks.alive inside unfinished
  simp only [InOnePlace, tracks.inPolling, tracks.inWaiting, tracks.beingPolled, placed]
  cases place with
  | polling => exact .inl ⟨tracks.once placed, by simp, by simp⟩
  | waiting =>
    refine .inr (.inl ⟨by simp, ?_, by simp⟩)
    refine ⟨future, ⟨⟨future, future⟩, (tracks.waiting _ _ _).mpr ⟨rfl, rfl, placed⟩, rfl⟩, ?_⟩
    intro key parked
    obtain ⟨⟨_, task_id⟩, found, rfl⟩ := parked
    exact ((tracks.waiting key _ task_id).mp found).1
  | polled => exact .inr (.inr ⟨by simp, by simp, rfl⟩)

/-- What the executor owes its tasks in a state reached by `trace`. -/
structure PlacesKept (trace : List Event) (state : State) : Prop where
  place : ∀ future, future < state.spawned → .ready future ∉ trace → InOnePlace state future
  keyed : ∀ (key : Nat) task, state.waiting[key]? = some task → task.task_id = key
  unreplaced : ∀ caller task next, state.control = .polling caller task →
    step state (.pending task.future) = some next → state.waiting[task.task_id]? = none
  unrepeated : ∀ future, ¬ [.ready future, .pop future].Sublist trace

private theorem finished_unpolled {trace : List Event} {state : State} (reaches : executor.Reaches trace state)
    (fits : state.spawned ≤ usizeSize) (future : Nat) : ¬ [.ready future, .pop future].Sublist trace := by
  refine reaches.trace_invariant
    (fun trace state => state.spawned ≤ usizeSize → ¬ [.ready future, .pop future].Sublist trace) ?_ ?_ fits
  · simp
  · intro trace state event next reached earlier stepped fits before
    have stepped := step_cases stepped
    have fits := Nat.le_trans stepped.spawned_le fits
    rcases before_snoc.mp before with before | ⟨finished, rfl⟩
    · exact earlier fits before
    · obtain ⟨home, tracks⟩ := tracked reached fits
      cases stepped with
      | @pop caller task rest control front =>
        have queued : state.InPolling task.future := ⟨task, by simp [front], rfl⟩
        exact (tracks.of_placed (tracks.inPolling.mp queued)).2 finished

/-- No task is lost or duplicated, however its wakes arrive. -/
theorem places_kept {trace : List Event} {state : State} (reaches : executor.Reaches trace state)
    (fewer : trace.count .spawn_rcv < usizeSize) : PlacesKept trace state := by
  have fits : state.spawned ≤ usizeSize := by rw [spawned_eq reaches]; exact Nat.le_of_lt fewer
  obtain ⟨home, tracks⟩ := tracked reaches fits
  refine ⟨fun future inside unfinished => tracks.inOnePlace inside unfinished, ?_, ?_, finished_unpolled reaches fits⟩
  · intro key task found
    obtain ⟨future, task_id⟩ := task
    obtain ⟨rfl, rfl, _⟩ := (tracks.waiting key future task_id).mp found
    rfl
  · intro caller task next control _
    obtain ⟨future, task_id⟩ := task
    obtain ⟨rfl, held⟩ := (tracks.polled future task_id).mp (by rw [control, Control.held])
    cases found : state.waiting[task_id]? with
    | none => rfl
    | some task =>
      obtain ⟨rfl, _, placed⟩ := (tracks.waiting task_id task.future task.task_id).mp found
      rw [held] at placed
      cases placed

/-- Two tasks, one woken twice in a poll and once after it completed. -/
theorem places_kept_duplicate_wakes :
    let trace : List Event := [.spawn_rcv, .spawn_rcv, .run, .pop 0, .wake 0, .wake 0, .pending 0, .pop 1,
      .wake 1, .ready 1, .drained, .block, .recv 0, .pop 0, .spawn_rcv, .wake 1, .pending 0, .pop 2]
    ∃ state, executor.Reaches trace state ∧ PlacesKept trace state := by
  intro trace
  have runs : (executor.runFrom executor.init trace).isSome = true := by decide
  obtain ⟨state, reaches⟩ := Option.isSome_iff_exists.mp runs
  exact ⟨state, reaches, places_kept reaches (by decide)⟩

end RustAsyncAwait.Executor
