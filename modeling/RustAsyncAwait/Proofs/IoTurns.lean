import RustAsyncAwait.Library.Fairness
import RustAsyncAwait.Proofs.IoSelects

/-! The threads of the server get on. Each comes back to where it waits for work,
whatever the other one does, if neither is left where it can go on, the polls of
the futures end, and the eventfd is reported. -/

namespace RustAsyncAwait.IoMultiplexing
open Library State

/-- What the executor's thread does next, outside of its futures. -/
def State.executes (state : State) : Option Event :=
  match state.control, state.channel with
  | .recv, task :: _ => some (.recv task)
  | .leave _ (_ :: _) _, _ => some .effect
  | .leave _ [] _, _ => some .returned
  | .recv, [] | .poll _, _ => none

/-- What the selecting thread does next, outside of `epoll_wait`. -/
def State.selects (state : State) : Option Event :=
  match state.select, state.queue with
  | .events [], _ => some .again
  | .events (fd :: _), _ => some (if fd = event then .lock else .wake fd)
  | .drain _, op :: _ => some (.request op)
  | .drain _, [] => some .read_eventfd
  | .epoll_wait, _ | .panicked, _ => none

variable {schedule : Nat → Event} {state next : State} {other : Event}

/-- `epoll_wait` does not leave out for ever what it could report at any time. -/
def Reports (schedule : Nat → Event) (pair : RawFd × File) : Prop :=
  ∀ start, (∀ later, start ≤ later → (server.states schedule later).reported pair = true) →
    (∀ moment, ∃ later, moment ≤ later ∧ (server.states schedule later).select = .epoll_wait) →
    ∃ later ready next, start ≤ later ∧ schedule later = .epoll_wait ready ∧ pair ∈ ready ∧
      step (server.states schedule later) (.epoll_wait ready) = some next

/-- What a schedule owes the server: no thread is left where it can always go
on, every poll of a future ends, and the counter of the eventfd never fills up. -/
structure Fair (schedule : Nat → Event) : Prop where
  executor : ∀ start event, (∀ later, start ≤ later → (server.states schedule later).executes = some event ∧
    ∃ next, step (server.states schedule later) event = some next) → ∃ later, start ≤ later ∧ schedule later = event
  select : ∀ start event, (∀ later, start ≤ later → (server.states schedule later).selects = some event ∧
    ∃ next, step (server.states schedule later) event = some next) → ∃ later, start ≤ later ∧ schedule later = event
  polls : ∀ start task, ∃ later, start ≤ later ∧ (server.states schedule later).control ≠ .poll task
  eventfd : Reports schedule (event, .eventfd)
  room : ∀ count, (server.states schedule count).counter < counterMax

/-- A step of the executor's thread, as far as the other one sees it. -/
inductive Executes (state : State) : State → Prop
  | recv {task rest tasks} (control : state.control = .recv) (head : state.channel = task :: rest) :
      Executes state { state with tasks, channel := rest, control := .poll task }
  | accept {fds refs tasks} (control : state.control = .poll 0) (positive : 0 < state.tasks.length) :
      Executes state { state with fds, refs, tasks, channel := state.channel ++ [state.tasks.length] }
  | leave {task effects result} (control : state.control = .poll task) :
      Executes state { state with control := .leave task effects result }
  | push {task op effects result} (control : state.control = .leave task (.push op :: .write_eventfd :: effects) result)
      (unlocked : state.lock = none) :
      Executes state { state with
        queue := state.queue ++ [op], lock := some .executor, control := .leave task (.write_eventfd :: effects) result }
  | write_eventfd {task effects result} (control : state.control = .leave task (.write_eventfd :: effects) result) :
      Executes state { state with counter := state.counter + 1, lock := none, control := .leave task effects result }
  | close {task fd effects result fds refs interest} (control : state.control = .leave task (.close fd :: effects) result) :
      Executes state { state with fds, refs, interest, control := .leave task effects result }
  | returned {task result tasks} (control : state.control = .leave task [] result) :
      Executes state { state with tasks, control := .recv }

/-- A step of the selecting thread, as far as the other one sees it. -/
inductive Selects (state : State) : State → Prop
  | reports {ready : List (RawFd × File)} {interest} (waiting : state.select = .epoll_wait)
      (reported : ∀ pair ∈ ready, state.reported pair = true) :
      Selects state { state with interest, select := .events (ready.map Prod.fst) }
  | wakes {fd task batch} (handling : state.select = .events (fd :: batch)) (socket : fd ≠ event)
      (waker : state.wakers[fd]? = some task) :
      Selects state { state with
        wakers := state.wakers.erase fd, channel := state.channel ++ [task], select := .events batch }
  | locks {batch} (handling : state.select = .events (event :: batch)) (unlocked : state.lock = none) :
      Selects state { state with lock := some .select, select := .drain batch }
  | requests {op batch queue interest wakers} (draining : state.select = .drain batch) (front : state.queue = op :: queue)
      (added : ∀ fd task, op = .ADD fd task → wakers[fd]? = some task)
      (kept : ∀ (fd : RawFd) (task : Nat), state.wakers[fd]? = some task → wakers[fd]? = some task) :
      Selects state { state with queue, interest, wakers }
  | reads {batch} (draining : state.select = .drain batch) (empty : state.queue = []) :
      Selects state { state with counter := 0, lock := none, select := .events batch }
  | again (handled : state.select = .events []) : Selects state { state with select := .epoll_wait }

/-- A request that is handled does not take the waker of another task. -/
theorem Placed.request (placed : Placed state) {op : IOOps} {batch : List RawFd} {queue : List IOOps}
    (draining : state.select = .drain batch) (front : state.queue = op :: queue) :
    Selects state ({ state with queue := queue }.request op) := by
  have first : op ∈ state.queue := by rw [front]; exact List.mem_cons_self ..
  cases op with
  | ADD fd task =>
    have absent := placed.add_absent first
    have opened : State.request { state with queue := queue } (.ADD fd task) = _ :=
      @add_event_open { state with queue := queue } fd _ task (placed.queued_holds first) absent
    rw [opened]
    refine .requests draining front ?_ ?_
    · intro key waiter same
      cases same
      simp
    · intro key waiter waker
      have different : fd ≠ key := fun same => by rw [← same, absent] at waker; cases waker
      rw [HashMap.get_insert, if_neg different, waker]
  | REMOVE fd =>
    have absent := placed.removed fd first
    rw [show State.request { state with queue := queue } (.REMOVE fd) = _ from rm_event_eq { state with queue := queue } fd]
    refine .requests draining front (fun _ _ same => by cases same) ?_
    intro key waiter waker
    have different : fd ≠ key := fun same => by rw [← same, absent] at waker; cases waker
    show (state.wakers.erase fd)[key]? = some waiter
    rw [HashMap.get_erase, if_neg different, waker]

def Event.party : Event → Party
  | .recv _ | .accept _ _ | .block | .finish _ | .effect | .returned => .executor
  | .epoll_wait _ | .wake _ | .lock | .request _ | .read_eventfd | .again => .select

/-- Whose step it is, and what it is for the other one. -/
theorem Placed.turn (placed : Placed state) (stepped : Step state other next) :
    match other.party with
    | .executor => Executes state next
    | .select => Selects state next := by
  cases stepped with
  | recv control head => exact .recv control head
  | accept control free also different =>
    obtain ⟨found, at_found, _⟩ := placed.owned.polled 0 (by rw [control]; rfl)
    exact .accept control (List.getElem?_eq_some_iff.mp at_found).1
  | block control | finish control => exact .leave control
  | @push task op effects result control unlocked =>
    obtain ⟨_, _, head, _⟩ := Placed.effects_shape placed.owned control
    obtain ⟨rest, rfl⟩ := List.head?_eq_some_iff.mp head
    exact .push control unlocked
  | write_eventfd control => exact .write_eventfd control
  | close control =>
    rw [close_open (owned_close placed.owned control).1]
    exact .close control
  | returned control => exact .returned control
  | epoll_wait waiting _ reported => exact .reports waiting reported
  | wake handling socket waker => exact .wakes handling socket waker
  | missing handling socket waker => exact absurd waker (placed.not_missing handling socket)
  | lock handling unlocked => exact .locks handling unlocked
  | request draining front => exact placed.request draining front
  | read_eventfd draining empty => exact .reads draining empty
  | again handled => exact .again handled

theorem Placed.turns (placed : Placed state) (stepped : Step state other next) : Executes state next ∨ Selects state next := by
  have turn := placed.turn stepped
  cases party : other.party with
  | executor =>
    rw [party] at turn
    exact .inl turn
  | select =>
    rw [party] at turn
    exact .inr turn

/-- Who holds the lock of the queue, and that a thread which is going to read the
eventfd finds it counted. -/
structure Locked (state : State) : Prop where
  placed : Placed state
  executor : state.lock = some .executor → ∃ task effects result, state.control = .leave task (.write_eventfd :: effects) result
  select : state.lock = some .select → ∃ batch, state.select = .drain batch
  reported : event ∈ state.select.batch → state.counter ≠ 0
  draining : ∀ batch, state.select = .drain batch → state.counter ≠ 0 ∧ event ∉ batch

namespace Locked

theorem initial : Locked initial where
  placed := Placed.initial
  executor := fun held => by cases held
  select := fun held => by cases held
  reported := fun member => by cases member
  draining := fun batch same => by cases same

/-- The eventfd is only reported when it is counted. -/
theorem counted (locked : Locked state) {ready : List (RawFd × File)} (reported : ∀ pair ∈ ready, state.reported pair = true)
    (member : event ∈ ready.map Prod.fst) : state.counter ≠ 0 := by
  obtain ⟨⟨fd, file⟩, inside, same⟩ := List.mem_map.mp member
  have shown := reported _ inside
  simp only at same
  subst same
  unfold State.reported at shown
  split at shown
  · simp only [decide_eq_true_eq] at shown
    exact shown.2
  · obtain ⟨task, _, waker⟩ := locked.placed.armed event file (by simpa using shown)
    exact absurd waker (locked.placed.event_unused task)

theorem executes (locked : Locked state) (placed : Placed next) (turn : Executes state next) : Locked next := by
  obtain ⟨_, executor, select, reported, draining⟩ := locked
  have elsewhere (different : ∀ task effects result, state.control ≠ .leave task (.write_eventfd :: effects) result) :
      state.lock ≠ some .executor := by
    intro held
    obtain ⟨task, effects, result, writes⟩ := executor held
    exact different task effects result writes
  cases turn with
  | recv control | accept control | leave control | close control | returned control =>
    exact ⟨placed, fun held => absurd held (elsewhere (by simp [control])), select, reported, draining⟩
  | push control unlocked =>
    exact ⟨placed, fun _ => ⟨_, _, _, rfl⟩, fun held => (by cases held), reported, draining⟩
  | write_eventfd control =>
    refine ⟨placed, fun held => (by cases held), fun held => (by cases held), fun _ => Nat.succ_ne_zero _, ?_⟩
    exact fun batch same => ⟨Nat.succ_ne_zero _, (draining batch same).2⟩

theorem selects (locked : Locked state) (placed : Placed next) (turn : Selects state next) : Locked next := by
  obtain ⟨before, executor, select, reported, draining⟩ := locked
  have elsewhere (different : ∀ batch, state.select ≠ .drain batch) : state.lock ≠ some .select := by
    intro held
    obtain ⟨batch, drains⟩ := select held
    exact different batch drains
  cases turn with
  | reports waiting shown =>
    refine ⟨placed, executor, fun held => absurd held (elsewhere (by simp [waiting])), ?_, fun batch same => (by cases same)⟩
    exact Locked.counted ⟨before, executor, select, reported, draining⟩ shown
  | wakes handling =>
    rw [handling] at reported
    refine ⟨placed, executor, fun held => absurd held (elsewhere (by simp [handling])), ?_, fun batch same => (by cases same)⟩
    exact fun member => reported (List.mem_cons_of_mem _ member)
  | locks handling =>
    have nodup := before.nodup
    rw [handling] at nodup reported
    have counted := reported (List.mem_cons_self ..)
    refine ⟨placed, fun held => (by cases held), fun _ => ⟨_, rfl⟩, fun _ => counted, ?_⟩
    intro batch same
    cases same
    exact ⟨counted, (List.nodup_cons.mp nodup).1⟩
  | requests => exact ⟨placed, executor, select, reported, draining⟩
  | reads drains =>
    refine ⟨placed, fun held => (by cases held), fun held => (by cases held), ?_, fun batch same => (by cases same)⟩
    exact fun member => absurd member (draining _ drains).2
  | again handled =>
    refine ⟨placed, executor, fun held => absurd held (elsewhere (by simp [handled])), ?_, fun batch same => (by cases same)⟩
    exact fun member => (by cases member)

theorem step (locked : Locked state) (stepped : IoMultiplexing.step state other = some next) : Locked next := by
  have cases_ := step_cases stepped
  rcases locked.placed.turns cases_ with turn | turn
  · exact locked.executes (locked.placed.step cases_) turn
  · exact locked.selects (locked.placed.step cases_) turn

end Locked

theorem locked_states (schedule : Nat → Event) (count : Nat) : Locked (server.states schedule count) := by
  have first : Locked (server.states schedule 0) := Locked.initial
  exact Machine.states_keep Locked (fun _ _ _ locked stepped => locked.step stepped) first (Nat.zero_le count)

theorem selects_party (chosen : state.selects = some other) : other.party = .select := by
  unfold State.selects at chosen
  split at chosen
  · cases chosen
    rfl
  · cases chosen
    split <;> rfl
  · cases chosen
    rfl
  · cases chosen
    rfl
  · cases chosen
  · cases chosen

theorem executes_party (chosen : state.executes = some other) : other.party = .executor := by
  unfold State.executes at chosen
  split at chosen <;> cases chosen <;> rfl

section Leads
variable {first second : State → Prop}

/-- The selecting thread makes its next step, while the other one does not keep it from that. -/
theorem leads_selects (fair : Fair schedule) (event : Event)
    (goes : ∀ state, Locked state → first state → state.selects = some event ∧ ∃ next, step state event = some next)
    (waits : ∀ state next, Locked state → first state → Executes state next → first next)
    (own : ∀ state next, Locked state → first state → Selects state next → second next) :
    server.LeadsTo schedule first second := by
  refine .always (locked_states schedule) (.of_event event ?_ ?_ ?_)
  · intro state other next holds stepped
    obtain ⟨locked, holds⟩ := holds
    rcases locked.placed.turns (step_cases stepped) with turn | turn
    · exact .inl ⟨locked.step stepped, waits state next locked holds turn⟩
    · exact .inr (own state next locked holds turn)
  · intro state holds
    obtain ⟨chosen, next, stepped⟩ := goes state holds.1 holds.2
    have turn := holds.1.placed.turn (step_cases stepped)
    rw [selects_party chosen] at turn
    exact ⟨next, stepped, own state next holds.1 holds.2 turn⟩
  · intro start always
    apply fair.select start event
    intro later after
    exact goes _ (always later after).1 (always later after).2

/-- The executor's thread makes its next step, if it is able to from some time on. -/
theorem leads_executes (fair : Fair schedule) (event : Event)
    (goes : ∀ start, (∀ later, start ≤ later → first (server.states schedule later)) → ∃ middle, start ≤ middle ∧
      ∀ later, middle ≤ later → (server.states schedule later).executes = some event ∧
        ∃ next, step (server.states schedule later) event = some next)
    (waits : ∀ state next, Locked state → first state → Selects state next → first next)
    (own : ∀ state next, Locked state → first state → Executes state next → second next)
    (left : ∀ state, second state → ¬ first state) : server.LeadsTo schedule first second := by
  refine .of_turns ?_ ?_
  · intro count next holds stepped
    have locked := locked_states schedule count
    rcases locked.placed.turns (step_cases stepped) with turn | turn
    · exact .inr (own _ next locked holds turn)
    · exact .inl (waits _ next locked holds turn)
  · intro start always
    obtain ⟨middle, after, able⟩ := goes start always
    obtain ⟨later, behind, offers⟩ := fair.executor middle event able
    obtain ⟨chosen, next, stepped⟩ := able later behind
    have turn := (locked_states schedule later).placed.turn (step_cases stepped)
    rw [executes_party chosen] at turn
    refine ⟨later + 1, by omega, left _ ?_⟩
    rw [Machine.states, offers, Machine.turn_some stepped]
    exact own _ next (locked_states schedule later) (always later (by omega)) turn

end Leads

/-- The selecting thread handles the requests, and nobody adds to them meanwhile. -/
theorem drained (fair : Fair schedule) (batch : List RawFd) :
    server.LeadsTo schedule (fun state => state.select = .drain batch)
      (fun state => state.select = .events batch ∧ state.counter = 0) := by
  have empties (queue : List IOOps) :
      server.LeadsTo schedule (fun state => state.select = .drain batch ∧ state.queue = queue)
        (fun state => state.select = .events batch ∧ state.counter = 0) := by
    -- the lock is held, so the executor's thread pushes nothing
    have waits (queue : List IOOps) (state next : State) (locked : Locked state)
        (holds : state.select = .drain batch ∧ state.queue = queue) (turn : Executes state next) :
        next.select = .drain batch ∧ next.queue = queue := by
      cases turn with
      | recv | accept | leave | write_eventfd | close | returned => exact holds
      | push _ unlocked =>
        rw [locked.placed.drains batch holds.1] at unlocked
        cases unlocked
    induction queue with
    | nil =>
      refine leads_selects fair .read_eventfd ?_ (waits []) ?_
      · intro state locked holds
        obtain ⟨drains, empty⟩ := holds
        exact ⟨by simp [State.selects, drains, empty], _, by
          simp [IoMultiplexing.step, drains, empty, (locked.draining batch drains).1]; rfl⟩
      · intro state next locked holds turn
        obtain ⟨drains, empty⟩ := holds
        cases turn with
        | reports other | wakes other | locks other | again other => cases drains.symm.trans other
        | requests _ front => cases empty.symm.trans front
        | reads other =>
          cases drains.symm.trans other
          exact ⟨rfl, rfl⟩
    | cons op queue ih =>
      refine .trans ?_ ih
      refine leads_selects fair (.request op) ?_ (waits (op :: queue)) ?_
      · intro state locked holds
        obtain ⟨drains, front⟩ := holds
        exact ⟨by simp [State.selects, drains, front], _, by simp [IoMultiplexing.step, drains, front]; rfl⟩
      · intro state next locked holds turn
        obtain ⟨drains, front⟩ := holds
        cases turn with
        | reports other | wakes other | locks other | again other => cases drains.symm.trans other
        | requests _ other =>
          cases front.symm.trans other
          exact ⟨drains, rfl⟩
        | reads _ other => cases front.symm.trans other
  exact fun start drains => empties _ start ⟨drains, rfl⟩

theorem Locked.unlocked (locked : Locked state) (unwritten : ∀ task effects result,
      state.control ≠ .leave task (.write_eventfd :: effects) result)
    (undrained : ∀ batch, state.select ≠ .drain batch) : state.lock = none := by
  cases held : state.lock with
  | none => rfl
  | some party =>
    cases party with
    | executor =>
      obtain ⟨task, effects, result, writes⟩ := locked.executor held
      exact absurd writes (unwritten task effects result)
    | select =>
      obtain ⟨batch, drains⟩ := locked.select held
      exact absurd drains (undrained batch)

/-- While the executor's thread waits for the lock, the selecting thread takes it
at most once more: then the eventfd has been read, and nobody writes it. -/
theorem lock_freed (fair : Fair schedule) {start task : Nat} {op : IOOps} {effects : List Effect} {result : Status}
    (always : ∀ later, start ≤ later → (server.states schedule later).control = .leave task (.push op :: effects) result) :
    ∃ middle, start ≤ middle ∧ ∀ later, middle ≤ later → (server.states schedule later).lock = none := by
  have unlocked (later : Nat) (after : start ≤ later)
      (undrained : ∀ batch, (server.states schedule later).select ≠ .drain batch) :
      (server.states schedule later).lock = none :=
    (locked_states schedule later).unlocked (by simp [always later after]) undrained
  by_cases drains : ∃ later batch, start ≤ later ∧ (server.states schedule later).select = .drain batch
  · obtain ⟨drain, batch, after, drains⟩ := drains
    obtain ⟨middle, before, events, read⟩ := drained fair batch drain drains
    have kept (later : Nat) (behind : middle ≤ later) : (server.states schedule later).counter = 0 ∧
        ∀ batch, (server.states schedule later).select ≠ .drain batch := by
      induction behind with
      | refl => exact ⟨read, by simp [events]⟩
      | @step later behind ih =>
        obtain ⟨zero, undrained⟩ := ih
        have late : start ≤ later := Nat.le_trans after (Nat.le_trans before behind)
        rcases Machine.turn_cases server (server.states schedule later) (schedule later) with same | stepped
        · rw [Machine.states, same]
          exact ⟨zero, undrained⟩
        · have locked := locked_states schedule later
          have control := always later late
          have still := always (later + 1) (Nat.le_succ_of_le late)
          rw [Machine.states] at still ⊢
          generalize server.turn _ _ = next at stepped still ⊢
          rcases locked.placed.turns (step_cases stepped) with turn | turn
          · cases turn with
            | recv other | accept other | leave other | write_eventfd other | close other | returned other =>
              cases control.symm.trans other
            | push other => simp at still
          · cases turn with
            | reports | wakes | again => exact ⟨zero, by simp⟩
            | locks handling => exact absurd zero (locked.reported (by simp [handling, Select.batch]))
            | requests drains | reads drains => exact absurd drains (undrained _)
    exact ⟨middle, by omega, fun later behind => unlocked later (by omega) (kept later behind).2⟩
  · simp only [not_exists, not_and] at drains
    exact ⟨start, Nat.le_refl start, fun later after => unlocked later after fun batch => drains later batch after⟩

theorem selects_control (turn : Selects state next) : next.control = state.control := by
  cases turn <;> rfl

theorem effect_done (fair : Fair schedule) (task : Nat) (effect : Effect) (effects : List Effect) (result : Status) :
    server.LeadsTo schedule (fun state => state.control = .leave task (effect :: effects) result)
      (fun state => state.control = .leave task effects result) := by
  refine leads_executes fair .effect ?_ (fun state next _ holds turn => (selects_control turn).trans holds) ?_ ?_
  · intro start always
    have able (later : Nat) (after : start ≤ later) {moved : State}
        (performed : (server.states schedule later).perform effect = some moved) :
        (server.states schedule later).executes = some .effect ∧
          ∃ next, step (server.states schedule later) .effect = some next := by
      have control := always later after
      exact ⟨by simp [State.executes, control], _, by simp [step, control, performed]; rfl⟩
    cases effect with
    | push op =>
      obtain ⟨middle, after, free⟩ := lock_freed fair always
      exact ⟨middle, after, fun later behind => able later (by omega) (by rw [perform, if_pos (free later behind)])⟩
    | write_eventfd =>
      exact ⟨start, Nat.le_refl start, fun later after => able later after (by rw [perform, if_pos (fair.room later)])⟩
    | close fd => exact ⟨start, Nat.le_refl start, fun later after => able later after rfl⟩
  · intro state next locked control turn
    cases turn with
    | recv other | accept other | leave other | returned other => cases control.symm.trans other
    | push other | write_eventfd other | close other =>
      cases control.symm.trans other
      rfl
  · intro state control
    simp [control]

theorem returned (fair : Fair schedule) (task : Nat) (effects : List Effect) (result : Status) :
    server.LeadsTo schedule (fun state => state.control = .leave task effects result) (fun state => state.control = .recv) := by
  induction effects with
  | nil =>
    refine leads_executes fair .returned ?_ (fun state next _ holds turn => (selects_control turn).trans holds) ?_ ?_
    · intro start always
      refine ⟨start, Nat.le_refl start, fun later after => ?_⟩
      have control := always later after
      exact ⟨by simp [State.executes, control], _, by simp [step, control]; rfl⟩
    · intro state next locked control turn
      cases turn with
      | recv other | accept other | leave other | push other | write_eventfd other | close other =>
        cases control.symm.trans other
      | returned => rfl
    · intro state control
      simp [control]
  | cons effect effects ih => exact (effect_done fair task effect effects result).trans ih

/-- The executor's thread comes back to its channel. -/
theorem recv_again (fair : Fair schedule) : server.LeadsTo schedule (fun _ => True) (fun state => state.control = .recv) := by
  have polled (task : Nat) : server.LeadsTo schedule (fun state => state.control = .poll task)
      (fun state => ∃ effects result, state.control = .leave task effects result) := by
    refine .of_turns ?_ fun start _ => fair.polls start task
    intro count next control stepped
    rcases (locked_states schedule count).placed.turns (step_cases stepped) with turn | turn
    · cases turn with
      | recv other | push other | write_eventfd other | close other | returned other => cases control.symm.trans other
      | accept => exact .inl control
      | leave other =>
        cases control.symm.trans other
        exact .inr ⟨_, _, rfl⟩
    · exact .inl ((selects_control turn).trans control)
  intro start _
  cases control : (server.states schedule start).control with
  | recv => exact ⟨start, Nat.le_refl start, control⟩
  | poll task =>
    obtain ⟨middle, after, effects, result, left⟩ := polled task start control
    obtain ⟨later, behind, back⟩ := returned fair task effects result middle left
    exact ⟨later, Nat.le_trans after behind, back⟩
  | leave task effects result => exact returned fair task effects result start control

/-- The executor's thread takes a task off the channel, or the channel only grows. -/
theorem Placed.channel_moves (placed : Placed state) (stepped : Step state other next) :
    (∃ task, state.channel = task :: next.channel ∧ next.control = .poll task) ∨
      ¬ (state.control = .recv ∧ other.party = .executor) ∧ ∃ more, next.channel = state.channel ++ more := by
  have turn := placed.turn stepped
  cases party : other.party with
  | executor =>
    rw [party] at turn
    cases turn with
    | recv control head => exact .inl ⟨_, head, rfl⟩
    | accept control => exact .inr ⟨by simp [control], _, rfl⟩
    | leave control | push control | write_eventfd control | close control | returned control =>
      exact .inr ⟨by simp [control], [], (List.append_nil _).symm⟩
  | select =>
    rw [party] at turn
    refine .inr ⟨by simp, ?_⟩
    cases turn with
    | wakes => exact ⟨_, rfl⟩
    | reports | locks | requests | reads | again => exact ⟨[], (List.append_nil _).symm⟩

/-- A thread that waits for tasks takes the one in front. -/
theorem taken (fair : Fair schedule) {start : Nat}
    (filled : ∀ later, start ≤ later → (server.states schedule later).channel ≠ []) :
    ∃ later, start ≤ later ∧ ((server.states schedule later).control = .recv ∧ (schedule later).party = .executor) ∧
      ∃ next, step (server.states schedule later) (schedule later) = some next := by
  obtain ⟨middle, after, control⟩ := recv_again fair start trivial
  by_contra never
  simp only [not_exists, not_and] at never
  obtain ⟨task, rest, head⟩ := List.exists_cons_of_ne_nil (filled middle after)
  have kept (later : Nat) (behind : middle ≤ later) : (server.states schedule later).control = .recv ∧
      ∃ rest, (server.states schedule later).channel = task :: rest := by
    induction behind with
    | refl => exact ⟨control, rest, head⟩
    | @step later behind ih =>
      obtain ⟨control, rest, head⟩ := ih
      rcases Machine.turn_cases server (server.states schedule later) (schedule later) with same | stepped
      · rw [Machine.states, same]
        exact ⟨control, rest, head⟩
      · have placed := (locked_states schedule later).placed
        have turn := placed.turn (step_cases stepped)
        rw [Machine.states]
        cases party : (schedule later).party with
        | executor => exact absurd stepped (never later (Nat.le_trans after behind) ⟨control, party⟩ _)
        | select =>
          rw [party] at turn
          refine ⟨(selects_control turn).trans control, ?_⟩
          rcases placed.channel_moves (step_cases stepped) with ⟨task, _, polls⟩ | ⟨_, more, grown⟩
          · rw [selects_control turn, control] at polls
            cases polls
          · exact ⟨rest ++ more, by rw [grown, head, List.cons_append]⟩
  have able (later : Nat) (behind : middle ≤ later) : (server.states schedule later).executes = some (.recv task) ∧
      ∃ next, step (server.states schedule later) (.recv task) = some next := by
    obtain ⟨control, rest, head⟩ := kept later behind
    exact ⟨by simp [State.executes, control, head], _, by simp [step, control, head]; rfl⟩
  obtain ⟨later, behind, offers⟩ := fair.executor middle (.recv task) able
  obtain ⟨next, stepped⟩ := (able later behind).2
  exact never later (Nat.le_trans after behind) ⟨(kept later behind).1, by rw [offers]; rfl⟩ next (by rw [offers]; exact stepped)

/-- A task in the channel is polled. -/
theorem received (fair : Fair schedule) (task : Nat) :
    server.LeadsTo schedule (fun state => task ∈ state.channel) (fun state => state.control = .poll task) := by
  refine .always (locked_states schedule) (.of_rank (fun state => state.channel.idxOf task)
    (fun state event => state.control = .recv ∧ event.party = .executor) ?_ ?_)
  · intro state event next holds stepped
    obtain ⟨locked, member⟩ := holds
    have still := locked.step stepped
    rcases locked.placed.channel_moves (step_cases stepped) with ⟨first, front, polls⟩ | ⟨idle, more, grown⟩
    · by_cases same : first = task
      · exact .inl (same ▸ polls)
      · rw [front] at member ⊢
        rw [List.idxOf_cons_ne _ same]
        have left := (List.mem_cons.mp member).resolve_left (Ne.symm same)
        exact .inr ⟨⟨still, left⟩, Nat.le_succ _, fun _ => Nat.lt_succ_self _⟩
    · rw [grown, List.idxOf_append_of_mem member]
      exact .inr ⟨⟨still, List.mem_append_left _ member⟩, Nat.le_refl _, fun acts => absurd acts idle⟩
  · intro start always
    exact taken fair fun later after => List.ne_nil_of_mem (always later after).2

/-- The task of a poll that is on is not in the channel. -/
theorem Placed.polled_absent (placed : Placed state) {task : Nat} (control : state.control = .poll task) :
    task ∉ state.channel := by
  obtain ⟨found, at_task, polling⟩ := placed.owned.polled task (by rw [control]; rfl)
  have places := placed.places task found at_task
  simp only [polling, control, Control.registered, Status.places, State.places, Bool.false_eq_true, if_false] at places
  exact List.count_eq_zero.mp (by omega)

section Stuck
variable {start : Nat} {batch : List RawFd}

/-- While the selecting thread waits for the lock, only the other one steps. -/
theorem stuck_turn (stuck : ∀ later, start ≤ later → (server.states schedule later).select = .events (event :: batch))
    {later : Nat} (after : start ≤ later) :
    server.states schedule (later + 1) = server.states schedule later ∨
      Executes (server.states schedule later) (server.states schedule (later + 1)) := by
  have here := stuck later after
  have still := stuck (later + 1) (Nat.le_succ_of_le after)
  rw [Machine.states] at still ⊢
  rcases Machine.turn_cases server (server.states schedule later) (schedule later) with same | stepped
  · exact .inl same
  · have placed := (locked_states schedule later).placed
    generalize server.turn _ _ = next at stepped still ⊢
    refine .inr ((placed.turns (step_cases stepped)).resolve_right ?_)
    intro turn
    cases turn with
    | reports other | requests other | reads other => cases here.symm.trans other
    | wakes other socket =>
      cases here.symm.trans other
      exact socket rfl
    | locks => cases still
    | again other => cases here.symm.trans other

/-- The server task is polled at most once more, and from then on there are no new tasks. -/
theorem server_waits (fair : Fair schedule)
    (stuck : ∀ later, start ≤ later → (server.states schedule later).select = .events (event :: batch)) :
    ∃ middle, start ≤ middle ∧ ∀ later, middle ≤ later →
      0 ∉ (server.states schedule later).channel ∧ (server.states schedule later).control ≠ .poll 0 := by
  obtain ⟨first, after, absent⟩ : ∃ first, start ≤ first ∧ 0 ∉ (server.states schedule first).channel := by
    by_cases member : 0 ∈ (server.states schedule start).channel
    · obtain ⟨later, after, polls⟩ := received fair 0 start member
      exact ⟨later, after, (locked_states schedule later).placed.polled_absent polls⟩
    · exact ⟨start, Nat.le_refl start, member⟩
  have stays (later : Nat) (behind : first ≤ later) : 0 ∉ (server.states schedule later).channel := by
    induction behind with
    | refl => exact absent
    | @step later behind ih =>
      rcases stuck_turn stuck (Nat.le_trans after behind) with same | turn
      · rw [same]
        exact ih
      · generalize server.states schedule (later + 1) = next at turn ⊢
        cases turn with
        | recv _ head =>
          rw [head] at ih
          exact fun member => ih (List.mem_cons_of_mem _ member)
        | accept _ positive =>
          intro member
          rcases List.mem_append.mp member with old | new
          · exact ih old
          · exact absurd (List.mem_singleton.mp new) (Nat.ne_of_lt positive)
        | leave | push | write_eventfd | close | returned => exact ih
  obtain ⟨middle, behind, control⟩ := recv_again fair first trivial
  refine ⟨middle, Nat.le_trans after behind, fun later further => ⟨stays later (Nat.le_trans behind further), ?_⟩⟩
  induction further with
  | refl => simp [control]
  | @step later further ih =>
    have here := stays later (Nat.le_trans behind further)
    rcases stuck_turn stuck (Nat.le_trans after (Nat.le_trans behind further)) with same | turn
    · rw [same]
      exact ih
    · generalize server.states schedule (later + 1) = next at turn ⊢
      cases turn with
      | recv _ head =>
        intro polls
        cases polls
        rw [head] at here
        exact here (List.mem_cons_self ..)
      | accept control => exact absurd control ih
      | leave | push | write_eventfd | close | returned => simp

/-- So it comes to an empty channel, and waits there without the lock. -/
theorem executor_waits (fair : Fair schedule)
    (stuck : ∀ later, start ≤ later → (server.states schedule later).select = .events (event :: batch)) :
    ∃ middle, start ≤ middle ∧ ∀ later, middle ≤ later →
      (server.states schedule later).channel = [] ∧ (server.states schedule later).control = .recv := by
  obtain ⟨first, after, quiet⟩ := server_waits fair stuck
  have shrinks (earlier later : Nat) (before : first ≤ earlier) (behind : earlier ≤ later) :
      (server.states schedule later).channel <:+ (server.states schedule earlier).channel := by
    induction behind with
    | refl => exact List.suffix_refl _
    | @step later behind ih =>
      have none := (quiet later (Nat.le_trans before behind)).2
      rcases stuck_turn stuck (Nat.le_trans after (Nat.le_trans before behind)) with same | turn
      · rw [same]
        exact ih
      · generalize server.states schedule (later + 1) = next at turn ⊢
        cases turn with
        | recv _ head => exact (List.suffix_cons _ _).trans (head ▸ ih)
        | accept control => exact absurd control none
        | leave | push | write_eventfd | close | returned => exact ih
  have empties (length earlier : Nat) (before : first ≤ earlier)
      (long : (server.states schedule earlier).channel.length = length) :
      ∃ later, earlier ≤ later ∧ (server.states schedule later).channel = [] := by
    induction length using Nat.strongRecOn generalizing earlier with
    | ind length ih =>
      cases channel : (server.states schedule earlier).channel with
      | nil => exact ⟨earlier, Nat.le_refl earlier, channel⟩
      | cons task rest =>
        have member : task ∈ (server.states schedule earlier).channel := by rw [channel]; exact List.mem_cons_self ..
        obtain ⟨later, behind, polls⟩ := received fair task earlier member
        have suffix := shrinks earlier later before behind
        have shorter : (server.states schedule later).channel.length < length := by
          rw [← long]
          refine Nat.lt_of_le_of_ne suffix.length_le fun same => ?_
          rw [← suffix.eq_of_length same] at member
          exact (locked_states schedule later).placed.polled_absent polls member
        obtain ⟨last, further, empty⟩ := ih _ shorter later (Nat.le_trans before behind) rfl
        exact ⟨last, Nat.le_trans behind further, empty⟩
  obtain ⟨empty, before, nothing⟩ := empties _ first (Nat.le_refl first) rfl
  obtain ⟨middle, behind, control⟩ := recv_again fair empty trivial
  have none (later : Nat) (further : middle ≤ later) : (server.states schedule later).channel = [] := by
    have suffix := shrinks empty later before (Nat.le_trans behind further)
    rwa [nothing, List.suffix_nil] at suffix
  have at_start : start ≤ middle := Nat.le_trans after (Nat.le_trans before behind)
  refine ⟨middle, at_start, fun later further => ⟨none later further, ?_⟩⟩
  induction further with
  | refl => exact control
  | @step later further ih =>
    rcases stuck_turn stuck (Nat.le_trans at_start further) with same | turn
    · rw [same]
      exact ih
    · have channel := none later further
      generalize server.states schedule (later + 1) = next at turn ⊢
      cases turn with
      | recv _ head => cases channel.symm.trans head
      | accept other | leave other | push other | write_eventfd other | close other | returned other =>
        cases ih.symm.trans other

end Stuck

/-- The selecting thread gets the lock. -/
theorem locks (fair : Fair schedule) (batch : List RawFd) :
    server.LeadsTo schedule (fun state => state.select = .events (event :: batch)) (fun state => state.select = .drain batch) := by
  refine .of_turns ?_ ?_
  · intro count next handling stepped
    rcases (locked_states schedule count).placed.turns (step_cases stepped) with turn | turn
    · refine .inl ?_
      cases turn <;> exact handling
    · cases turn with
      | reports other | requests other | reads other | again other => cases handling.symm.trans other
      | wakes other socket =>
        cases handling.symm.trans other
        exact absurd rfl socket
      | locks other =>
        cases handling.symm.trans other
        exact .inr rfl
  · intro start stuck
    obtain ⟨middle, after, waits⟩ := executor_waits fair stuck
    have able (later : Nat) (behind : middle ≤ later) : (server.states schedule later).selects = some .lock ∧
        ∃ next, step (server.states schedule later) .lock = some next ∧ next.select = .drain batch := by
      have handling := stuck later (Nat.le_trans after behind)
      have free := (locked_states schedule later).unlocked (by simp [(waits later behind).2]) (by simp [handling])
      exact ⟨by simp [State.selects, handling],
        { server.states schedule later with lock := some .select, select := .drain batch }, by simp [step, handling, free], rfl⟩
    obtain ⟨later, behind, offers⟩ := fair.select middle .lock fun later behind => by
      obtain ⟨chosen, next, stepped, _⟩ := able later behind
      exact ⟨chosen, next, stepped⟩
    obtain ⟨_, next, stepped, drains⟩ := able later behind
    refine ⟨later + 1, by omega, ?_⟩
    rw [Machine.states, offers, Machine.turn_some stepped, drains]
    simp

/-- The selecting thread comes back to `epoll_wait`. -/
theorem waits_again (fair : Fair schedule) :
    server.LeadsTo schedule (fun _ => True) (fun state => state.select = .epoll_wait) := by
  have handled (batch : List RawFd) :
      server.LeadsTo schedule (fun state => state.select = .events batch) (fun state => state.select = .epoll_wait) := by
    induction batch with
    | nil =>
      refine leads_selects fair .again ?_ (fun state next _ holds turn => by cases turn <;> exact holds) ?_
      · intro state _ handled
        exact ⟨by simp [State.selects, handled], _, by simp [step, handled]; rfl⟩
      · intro state next _ handled turn
        cases turn with
        | reports other | wakes other | locks other | requests other | reads other => cases handled.symm.trans other
        | again => rfl
    | cons fd batch ih =>
      by_cases own : fd = event
      · subst own
        refine (locks fair batch).trans ((drained fair batch).trans ?_)
        exact fun start holds => ih start holds.1
      · refine .trans ?_ ih
        refine leads_selects fair (.wake fd) ?_ (fun state next _ holds turn => by cases turn <;> exact holds) ?_
        · intro state locked handling
          obtain ⟨task, waker⟩ := Option.ne_none_iff_exists'.mp (locked.placed.not_missing handling own)
          exact ⟨by simp [State.selects, handling, own], _, by simp [step, handling, own, waker]; rfl⟩
        · intro state next _ handling turn
          cases turn with
          | reports other | requests other | reads other | again other => cases handling.symm.trans other
          | wakes other =>
            cases handling.symm.trans other
            rfl
          | locks other =>
            cases handling.symm.trans other
            exact absurd rfl own
  intro start _
  cases select : (server.states schedule start).select with
  | epoll_wait => exact ⟨start, Nat.le_refl start, select⟩
  | events batch => exact handled batch start select
  | drain batch =>
    obtain ⟨middle, after, events, _⟩ := drained fair batch start select
    obtain ⟨later, behind, waits⟩ := handled batch middle events
    exact ⟨later, Nat.le_trans after behind, waits⟩
  | panicked => exact absurd select (locked_states schedule start).placed.alive

end RustAsyncAwait.IoMultiplexing
