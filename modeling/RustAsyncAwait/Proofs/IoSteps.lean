import RustAsyncAwait.IoMultiplexing
import Mathlib.Tactic.Common

/-! What one step of the server does, and which descriptors its tasks have. -/

namespace RustAsyncAwait.IoMultiplexing
open Library State

/-- All that one step can do, with the guards it passed. -/
inductive Step : State → Event → State → Prop
  | recv {state task rest} (control : state.control = .recv) (head : state.channel = task :: rest) :
      Step state (.recv task) { state.setStatus task .polling with channel := rest, control := .poll task }
  | accept {state writer reader} (control : state.control = .poll 0) (free : state.fds writer = none)
      (also : state.fds reader = none) (different : writer ≠ reader) :
      Step state (.accept writer reader)
        { state with
          fds := Function.update (Function.update state.fds writer (some (.socket state.tasks.length))) reader
            (some (.socket state.tasks.length))
          refs := Function.update state.refs (.socket state.tasks.length) 2
          tasks := state.tasks ++ [⟨reader, some writer, .spawned⟩]
          channel := state.channel ++ [state.tasks.length] }
  | block {state task found} (control : state.control = .poll task) (at_task : state.tasks[task]? = some found) :
      Step state .block { state with control := .leave task [.push (.ADD found.fd task), .write_eventfd] .pending }
  | finish {state task found writer writer_first} (control : state.control = .poll task)
      (at_task : state.tasks[task]? = some found) (connection : found.writer = some writer) :
      Step state (.finish writer_first)
        { state with control := .leave task (dropped found.fd writer writer_first) .ready }
  | push {state task op effects result} (control : state.control = .leave task (.push op :: effects) result)
      (unlocked : state.lock = none) :
      Step state .effect
        { state with queue := state.queue ++ [op], lock := some .executor, control := .leave task effects result }
  | write_eventfd {state task effects result} (control : state.control = .leave task (.write_eventfd :: effects) result)
      (room : state.counter < counterMax) :
      Step state .effect
        { state with counter := state.counter + 1, lock := none, control := .leave task effects result }
  | close {state task fd effects result} (control : state.control = .leave task (.close fd :: effects) result) :
      Step state .effect { state.close fd with control := .leave task effects result }
  | returned {state task result} (control : state.control = .leave task [] result) :
      Step state .returned { state.setStatus task result with control := .recv }
  | epoll_wait {state ready} (waiting : state.select = .epoll_wait) (distinct : ready.Nodup)
      (reported : ∀ pair ∈ ready, state.reported pair = true) :
      Step state (.epoll_wait ready)
        { state with
          interest := fun fd file => if (fd, file) ∈ ready then (state.interest fd file).map fun _ => false
            else state.interest fd file
          select := .events (ready.map Prod.fst) }
  | wake {state fd task batch} (handling : state.select = .events (fd :: batch)) (socket : fd ≠ event)
      (waker : state.wakers[fd]? = some task) :
      Step state (.wake fd)
        { state with
          wakers := state.wakers.erase fd, channel := state.channel ++ [task], select := .events batch }
  | missing {state fd batch} (handling : state.select = .events (fd :: batch)) (socket : fd ≠ event)
      (waker : state.wakers[fd]? = none) :
      Step state (.wake fd) { state with select := .panicked }
  | lock {state batch} (handling : state.select = .events (event :: batch)) (unlocked : state.lock = none) :
      Step state .lock { state with lock := some .select, select := .drain batch }
  | request {state op batch queue} (draining : state.select = .drain batch) (front : state.queue = op :: queue) :
      Step state (.request op) ({ state with queue := queue }.request op)
  | read_eventfd {state batch} (draining : state.select = .drain batch) (empty : state.queue = [])
      (counted : state.counter ≠ 0) :
      Step state .read_eventfd { state with counter := 0, lock := none, select := .events batch }
  | again {state} (handled : state.select = .events []) : Step state .again { state with select := .epoll_wait }

theorem step_cases {state next : State} {event : Event} (stepped : step state event = some next) :
    Step state event next := by
  cases event with
  | recv task =>
    simp only [step] at stepped
    split at stepped
    next first rest control head =>
      simp only [Option.ite_none_right_eq_some, Option.some.injEq] at stepped
      obtain ⟨rfl, rfl⟩ := stepped
      exact .recv control head
    next => cases stepped
  | accept writer reader =>
    simp only [step, Option.ite_none_right_eq_some, Option.some.injEq] at stepped
    obtain ⟨⟨control, free, also, different⟩, rfl⟩ := stepped
    exact .accept control free also different
  | block =>
    simp only [step] at stepped
    split at stepped
    next task control =>
      obtain ⟨found, at_task, rfl⟩ := Option.map_eq_some_iff.mp stepped
      exact .block control at_task
    next => cases stepped
  | finish writer_first =>
    simp only [step] at stepped
    split at stepped
    next task control =>
      obtain ⟨found, at_task, stepped⟩ := Option.bind_eq_some_iff.mp stepped
      obtain ⟨writer, connection, rfl⟩ := Option.map_eq_some_iff.mp stepped
      exact .finish control at_task connection
    next => cases stepped
  | effect =>
    simp only [step] at stepped
    split at stepped
    next task effect effects result control =>
      obtain ⟨last, performed, rfl⟩ := Option.map_eq_some_iff.mp stepped
      cases effect with
      | push op =>
        simp only [perform, Option.ite_none_right_eq_some, Option.some.injEq] at performed
        obtain ⟨unlocked, rfl⟩ := performed
        exact .push control unlocked
      | write_eventfd =>
        simp only [perform, Option.ite_none_right_eq_some, Option.some.injEq] at performed
        obtain ⟨room, rfl⟩ := performed
        exact .write_eventfd control room
      | close fd =>
        cases performed
        exact .close control
    next => cases stepped
  | returned =>
    simp only [step] at stepped
    split at stepped
    next task result control =>
      cases stepped
      exact .returned control
    next => cases stepped
  | epoll_wait ready =>
    simp only [step, Option.ite_none_right_eq_some, Option.some.injEq, List.all_eq_true] at stepped
    obtain ⟨⟨waiting, _, _, distinct, reported⟩, rfl⟩ := stepped
    exact .epoll_wait waiting distinct reported
  | wake fd =>
    simp only [step] at stepped
    split at stepped
    next first batch handling =>
      simp only [Option.ite_none_right_eq_some] at stepped
      obtain ⟨⟨rfl, socket⟩, stepped⟩ := stepped
      split at stepped
      next waker => cases stepped; exact .missing handling socket waker
      next task waker => cases stepped; exact .wake handling socket waker
    next => cases stepped
  | lock =>
    simp only [step] at stepped
    split at stepped
    next first batch handling =>
      simp only [Option.ite_none_right_eq_some, Option.some.injEq] at stepped
      obtain ⟨⟨rfl, unlocked⟩, rfl⟩ := stepped
      exact .lock handling unlocked
    next => cases stepped
  | request op =>
    simp only [step] at stepped
    split at stepped
    next batch first queue draining front =>
      simp only [Option.ite_none_right_eq_some, Option.some.injEq] at stepped
      obtain ⟨rfl, rfl⟩ := stepped
      exact .request draining front
    next => cases stepped
  | read_eventfd =>
    simp only [step] at stepped
    split at stepped
    next batch draining empty =>
      simp only [Option.ite_none_right_eq_some, Option.some.injEq] at stepped
      obtain ⟨counted, rfl⟩ := stepped
      exact .read_eventfd draining empty counted
    next => cases stepped
  | again =>
    simp only [step, Option.ite_none_right_eq_some, Option.some.injEq] at stepped
    obtain ⟨handled, rfl⟩ := stepped
    exact .again handled

theorem close_open {state : State} {fd : RawFd} {file : File} (is_open : state.fds fd = some file) :
    state.close fd =
      { state with
        fds := Function.update state.fds fd none
        refs := Function.update state.refs file (state.refs file - 1)
        interest := fun other of => if of = file ∧ state.refs file = 1 then none else state.interest other of } := by
  simp only [State.close, is_open]

theorem add_event_open {state : State} {fd : RawFd} {file : File} (task : Nat) (is_open : state.fds fd = some file)
    (absent : state.wakers[fd]? = none) :
    state.add_event fd task =
      { state with
        interest := fun other of => if other = fd ∧ of = file then some true else state.interest other of
        wakers := state.wakers.insert fd task } := by
  simp only [State.add_event, is_open, absent, if_true, State.register]

theorem rm_event_eq (state : State) (fd : RawFd) :
    state.rm_event fd =
      { state with
        interest := fun other of =>
          if other = fd ∧ state.fds fd = some of then none else state.interest other of
        wakers := state.wakers.erase fd } := by
  unfold State.rm_event
  split
  next closed => simp [closed]
  next file is_open => simp [is_open, State.register, eq_comm]

theorem setStatus_at {state : State} {task other : Nat} {status : Status} {found : Task} :
    (state.setStatus task status).tasks[other]? = some found ↔
      ∃ old, state.tasks[other]? = some old ∧ found = if other = task then { old with status } else old := by
  simp only [State.setStatus, List.getElem?_modify, Option.map_eq_map, Option.map_eq_some_iff, @eq_comm _ task other]
  constructor
  · intro changed
    obtain ⟨old, at_old, rfl⟩ := changed
    exact ⟨old, at_old, by split <;> rfl⟩
  · intro changed
    obtain ⟨old, at_old, rfl⟩ := changed
    exact ⟨old, at_old, by split <;> rfl⟩

/-- The task whose future is being polled. -/
def Control.task : Control → Option Nat
  | .recv => none
  | .poll task | .leave task _ _ => some task

/-- The thread leaves the last poll of this task. -/
def Control.drops (control : Control) (task : Nat) : Prop := ∃ effects, control = .leave task effects .ready

/-- Who has which descriptors: a task that has not completed has its own open,
and one that is completing still those it has yet to close. -/
structure Owners (fds : RawFd → Option File) (tasks : List Task) (control : Control) : Prop where
  event : fds event = some .eventfd
  distinct : ∀ found ∈ tasks, found.writer ≠ some found.fd
  polled : ∀ task, control.task = some task → ∃ found, tasks[task]? = some found ∧ found.status = .polling
  polling : ∀ task found, tasks[task]? = some found → found.status = .polling → control.task = some task
  pending : ∀ task effects, control = .leave task effects .pending → ∃ found, tasks[task]? = some found ∧
    effects <:+ [.push (.ADD found.fd task), .write_eventfd]
  ready : ∀ task effects, control = .leave task effects .ready → ∃ found writer writer_first,
    tasks[task]? = some found ∧ found.writer = some writer ∧ effects <:+ dropped found.fd writer writer_first ∧
      ∀ fd, .close fd ∈ effects → fds fd = some (.socket task)
  leaves : ∀ task effects result, control = .leave task effects result → result = .pending ∨ result = .ready
  opened : ∀ task found, tasks[task]? = some found → found.status ≠ .ready → ¬ control.drops task →
    fds found.fd = some (.socket task) ∧ ∀ writer, found.writer = some writer → fds writer = some (.socket task)

def State.Owned (state : State) : Prop := Owners state.fds state.tasks state.control

theorem Owners.running {fds : RawFd → Option File} {tasks : List Task} {control : Control} (owned : Owners fds tasks control)
    {task : Nat} {found : Task} (runs : control.task = some task) (at_task : tasks[task]? = some found) :
    found.status = .polling := by
  obtain ⟨known, at_known, polled⟩ := owned.polled task runs
  rw [at_task] at at_known
  cases at_known
  exact polled

/-- A change of status leaves a task its descriptors. -/
theorem setStatus_mem {state : State} {task : Nat} {status : Status} {found : Task}
    (member : found ∈ (state.setStatus task status).tasks) :
    ∃ old ∈ state.tasks, found.fd = old.fd ∧ found.writer = old.writer := by
  obtain ⟨other, inside⟩ := List.getElem?_of_mem member
  obtain ⟨old, at_old, rfl⟩ := setStatus_at.mp inside
  refine ⟨old, List.mem_of_getElem? at_old, ?_⟩
  split <;> exact ⟨rfl, rfl⟩

private theorem owned_recv {state : State} {task : Nat} {rest : List Nat} (owned : state.Owned)
    (control : state.control = .recv) (alive : ∃ old, state.tasks[task]? = some old ∧ old.status ≠ .ready) :
    State.Owned { state.setStatus task .polling with channel := rest, control := .poll task } := by
  have idle : ∀ other, state.control.task ≠ some other := by simp [control, Control.task]
  refine ⟨owned.event, ?_, ?_, ?_, ?_, ?_, ?_, ?_⟩
  · intro found member
    obtain ⟨old, before, fd, writer⟩ := setStatus_mem member
    rw [fd, writer]
    exact owned.distinct old before
  · intro other same
    cases same
    obtain ⟨old, at_old, _⟩ := alive
    exact ⟨_, setStatus_at.mpr ⟨old, at_old, rfl⟩, by simp⟩
  · intro other found at_found polling
    obtain ⟨old, at_old, rfl⟩ := setStatus_at.mp at_found
    split at polling
    next same => rw [same]; rfl
    next => exact absurd (owned.polling other old at_old polling) (idle other)
  · intro other effects same
    cases same
  · intro other effects same
    cases same
  · intro other effects result same
    cases same
  · intro other found at_found unready _
    obtain ⟨old, at_old, rfl⟩ := setStatus_at.mp at_found
    have open_ := owned.opened other old at_old (by
      intro ready
      split at unready
      next same =>
        obtain ⟨known, at_known, unready⟩ := alive
        rw [same, at_known] at at_old
        cases at_old
        exact unready ready
      next => exact unready ready) (by simp [Control.drops, control])
    split <;> exact open_

private theorem owned_returned {state : State} {task : Nat} {result : Status} (owned : state.Owned)
    (control : state.control = .leave task [] result) :
    State.Owned { state.setStatus task result with control := .recv } := by
  have own : ∀ other, state.control.task = some other → other = task := by
    intro other same
    rw [control] at same
    cases same
    rfl
  refine ⟨owned.event, ?_, ?_, ?_, ?_, ?_, ?_, ?_⟩
  · intro found member
    obtain ⟨old, before, fd, writer⟩ := setStatus_mem member
    rw [fd, writer]
    exact owned.distinct old before
  · intro other same
    cases same
  · intro other found at_found polling
    obtain ⟨old, at_old, rfl⟩ := setStatus_at.mp at_found
    split at polling
    next same =>
      rcases owned.leaves task [] result control with rfl | rfl <;> cases polling
    next different => exact absurd (own other (owned.polling other old at_old polling)) different
  · intro other effects same
    cases same
  · intro other effects same
    cases same
  · intro other effects result same
    cases same
  · intro other found at_found unready _
    obtain ⟨old, at_old, rfl⟩ := setStatus_at.mp at_found
    have open_ := owned.opened other old at_old
    split at unready
    next same =>
      subst same
      have polled := owned.running (by rw [control]; rfl) at_old
      rw [if_pos rfl]
      exact open_ (by simp [polled]) (by
        intro drops
        obtain ⟨effects, same⟩ := drops
        rw [control] at same
        cases same
        exact unready rfl)
    next different =>
      rw [if_neg different]
      exact open_ unready (by
        intro drops
        obtain ⟨effects, same⟩ := drops
        rw [control] at same
        cases same
        exact different rfl)

/-- Fewer effects are left, and no descriptor has been closed. -/
private theorem owned_effect {state : State} {task : Nat} {effect : Effect} {effects : List Effect} {result : Status}
    (owned : state.Owned) (control : state.control = .leave task (effect :: effects) result) :
    Owners state.fds state.tasks (.leave task effects result) := by
  refine ⟨owned.event, owned.distinct, ?_, ?_, ?_, ?_, ?_, ?_⟩
  · intro other same
    exact owned.polled other (by rw [control]; exact same)
  · intro other found at_found polling
    have same := owned.polling other found at_found polling
    rw [control] at same
    exact same
  · intro other rest same
    cases same
    obtain ⟨found, at_found, suffix⟩ := owned.pending task _ control
    exact ⟨found, at_found, (List.suffix_cons ..).trans suffix⟩
  · intro other rest same
    cases same
    obtain ⟨found, writer, writer_first, at_found, connection, suffix, closing⟩ := owned.ready task _ control
    exact ⟨found, writer, writer_first, at_found, connection, (List.suffix_cons ..).trans suffix,
      fun fd member => closing fd (List.mem_cons_of_mem _ member)⟩
  · intro other rest outcome same
    cases same
    exact owned.leaves task _ result control
  · intro other found at_found unready stays
    refine owned.opened other found at_found unready fun drops => stays ?_
    obtain ⟨rest, same⟩ := drops
    rw [control] at same
    cases same
    exact ⟨effects, rfl⟩

private theorem dropped_closes {fd writer closed : RawFd} {writer_first : Bool} {effects : List Effect} (different : writer ≠ fd)
    (suffix : .close closed :: effects <:+ dropped fd writer writer_first) : .close closed ∉ effects := by
  have nodup : (dropped fd writer writer_first).Nodup := by
    cases writer_first <;> simp [dropped, different, Ne.symm different]
  exact (List.nodup_cons.mp (nodup.sublist suffix.sublist)).1

theorem snoc_at {tasks : List Task} {last found : Task} {task : Nat} :
    (tasks ++ [last])[task]? = some found ↔ tasks[task]? = some found ∨ task = tasks.length ∧ last = found := by
  rcases Nat.lt_trichotomy task tasks.length with old | same | beyond
  · rw [List.getElem?_append_left old]
    simp [Nat.ne_of_lt old]
  · simp [same]
  · have outside : tasks[task]? = none := List.getElem?_eq_none (Nat.le_of_lt beyond)
    have also : (tasks ++ [last])[task]? = none := by
      apply List.getElem?_eq_none
      simp only [List.length_append, List.length_singleton]
      omega
    simp [outside, also, Nat.ne_of_gt beyond]

private theorem owned_accept {fds : RawFd → Option File} {tasks : List Task} {writer reader : RawFd}
    (owned : Owners fds tasks (.poll 0)) (free : fds writer = none) (also : fds reader = none) (different : writer ≠ reader) :
    Owners
      (Function.update (Function.update fds writer (some (.socket tasks.length))) reader (some (.socket tasks.length)))
      (tasks ++ [⟨reader, some writer, .spawned⟩]) (.poll 0) := by
  have kept : ∀ fd file, fds fd = some file → Function.update
      (Function.update fds writer (some (.socket tasks.length))) reader (some (.socket tasks.length)) fd = some file := by
    intro fd file is_open
    have not_reader : fd ≠ reader := fun same => by rw [same, also] at is_open; cases is_open
    have not_writer : fd ≠ writer := fun same => by rw [same, free] at is_open; cases is_open
    rw [Function.update_of_ne not_reader, Function.update_of_ne not_writer, is_open]
  refine ⟨kept _ _ owned.event, ?_, ?_, ?_, ?_, ?_, ?_, ?_⟩
  · intro found member
    rcases List.mem_append.mp member with old | new
    · exact owned.distinct found old
    · rw [List.mem_singleton.mp new]
      simpa using different
  · intro task same
    obtain ⟨found, at_found, polled⟩ := owned.polled task same
    exact ⟨found, snoc_at.mpr (.inl at_found), polled⟩
  · intro task found at_found polling
    rcases snoc_at.mp at_found with old | ⟨rfl, rfl⟩
    · exact owned.polling task found old polling
    · cases polling
  · intro task effects same
    cases same
  · intro task effects same
    cases same
  · intro task effects result same
    cases same
  · intro task found at_found unready stays
    rcases snoc_at.mp at_found with old | ⟨rfl, rfl⟩
    · obtain ⟨own, writers⟩ := owned.opened task found old unready stays
      exact ⟨kept _ _ own, fun writer has => kept _ _ (writers writer has)⟩
    · refine ⟨Function.update_self .., fun fd has => ?_⟩
      cases has
      rw [Function.update_of_ne different, Function.update_self]

private theorem owned_leave {state : State} {task : Nat} {found : Task} {effects : List Effect} {result : Status}
    (owned : state.Owned) (control : state.control = .poll task) (at_task : state.tasks[task]? = some found)
    (pending : result = .pending → effects <:+ [.push (.ADD found.fd task), .write_eventfd])
    (ready : result = .ready → ∃ writer writer_first, found.writer = some writer ∧
      effects = dropped found.fd writer writer_first)
    (leaves : result = .pending ∨ result = .ready) : Owners state.fds state.tasks (.leave task effects result) := by
  have unready : found.status ≠ .ready := by
    have polled := owned.running (by rw [control]; rfl) at_task
    simp [polled]
  have stays : ∀ other, ¬ state.control.drops other := by simp [control, Control.drops]
  refine ⟨owned.event, owned.distinct, ?_, ?_, ?_, ?_, ?_, ?_⟩
  · intro other same
    exact owned.polled other (by rw [control]; exact same)
  · intro other known at_known polling
    have same := owned.polling other known at_known polling
    rw [control] at same
    exact same
  · intro other rest same
    cases same
    exact ⟨found, at_task, pending rfl⟩
  · intro other rest same
    cases same
    obtain ⟨writer, writer_first, connection, rfl⟩ := ready rfl
    obtain ⟨own, writers⟩ := owned.opened task found at_task unready (stays task)
    refine ⟨found, writer, writer_first, at_task, connection, List.suffix_refl _, fun fd member => ?_⟩
    have either : fd = found.fd ∨ fd = writer := by
      cases writer_first with
      | true => simpa [dropped, or_comm] using member
      | false => simpa [dropped] using member
    rcases either with rfl | rfl
    · exact own
    · exact writers fd connection
  · intro other rest outcome same
    cases same
    exact leaves
  · intro other known at_known unready _
    exact owned.opened other known at_known unready (stays other)

theorem owned_close {state : State} {task : Nat} {fd : RawFd} {effects : List Effect} {result : Status}
    (owned : state.Owned) (control : state.control = .leave task (.close fd :: effects) result) :
    state.fds fd = some (.socket task) ∧
      Owners (Function.update state.fds fd none) state.tasks (.leave task effects result) := by
  have rest := owned_effect owned control
  rcases owned.leaves task _ result control with rfl | rfl
  · obtain ⟨found, _, suffix⟩ := owned.pending task _ control
    simp [List.suffix_cons_iff] at suffix
  · obtain ⟨found, writer, writer_first, at_task, connection, suffix, closing⟩ := owned.ready task _ control
    have is_open := closing fd (List.mem_cons_self ..)
    have different : writer ≠ found.fd := fun same =>
      owned.distinct found (List.mem_of_getElem? at_task) (by rw [connection, same])
    have kept : ∀ other file, state.fds other = some file → file ≠ .socket task ∨ other ≠ fd →
        Function.update state.fds fd none other = some file := by
      intro other file known away
      have distinct : other ≠ fd := by
        intro same
        rw [same, is_open] at known
        cases known
        rcases away with foreign | away
        · exact foreign rfl
        · exact away same
      rw [Function.update_of_ne distinct, known]
    refine ⟨is_open, kept _ _ owned.event (.inl (by simp)), rest.distinct, rest.polled, rest.polling, rest.pending, ?_,
      rest.leaves, ?_⟩
    · intro other more same
      cases same
      refine ⟨found, writer, writer_first, at_task, connection, (List.suffix_cons ..).trans suffix, fun other member => ?_⟩
      apply kept _ _ (closing other (List.mem_cons_of_mem _ member))
      exact .inr fun same => dropped_closes different suffix (same ▸ member)
    · intro other known at_known unready stays
      obtain ⟨own, writers⟩ := rest.opened other known at_known unready stays
      have foreign : File.socket other ≠ .socket task := by
        intro same
        cases same
        exact stays ⟨effects, rfl⟩
      exact ⟨kept _ _ own (.inl foreign), fun writer has => kept _ _ (writers writer has) (.inl foreign)⟩

theorem request_frame (state : State) (op : IOOps) :
    (state.request op).fds = state.fds ∧ (state.request op).tasks = state.tasks ∧
      (state.request op).control = state.control := by
  cases op with
  | ADD fd task =>
    simp only [State.request, State.add_event]
    split
    · exact ⟨rfl, rfl, rfl⟩
    · split <;> exact ⟨rfl, rfl, rfl⟩
  | REMOVE fd =>
    simp only [State.request, State.rm_event]
    split <;> exact ⟨rfl, rfl, rfl⟩

theorem owned_step {state next : State} {event : Event} (owned : state.Owned)
    (alive : ∀ task ∈ state.channel, ∃ old, state.tasks[task]? = some old ∧ old.status ≠ .ready)
    (stepped : Step state event next) : next.Owned := by
  cases stepped with
  | recv control head => exact owned_recv owned control (alive _ (by simp [head]))
  | accept control free also different =>
    have same := owned
    unfold State.Owned at same ⊢
    rw [control] at same
    simp only [control]
    exact owned_accept same free also different
  | block control at_task =>
    have kept := owned_leave owned control at_task (fun _ => List.suffix_refl _) (fun ready => by cases ready) (.inl rfl)
    exact kept
  | @finish _ _ _ writer_first control at_task connection =>
    have kept := owned_leave owned control at_task (fun pending => by cases pending)
      (fun _ => ⟨_, writer_first, connection, rfl⟩) (.inr rfl)
    exact kept
  | push control unlocked =>
    have kept := owned_effect owned control
    exact kept
  | write_eventfd control room =>
    have kept := owned_effect owned control
    exact kept
  | close control =>
    obtain ⟨is_open, kept⟩ := owned_close owned control
    rw [close_open is_open]
    exact kept
  | returned control => exact owned_returned owned control
  | request draining front =>
    unfold State.Owned
    rw [(request_frame ..).1, (request_frame ..).2.1, (request_frame ..).2.2]
    exact owned
  | epoll_wait | wake | missing | lock | read_eventfd | again => exact owned

end RustAsyncAwait.IoMultiplexing
