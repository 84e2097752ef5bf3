import RustAsyncAwait.IoSelector
import RustAsyncAwait.Library.Lists
import RustAsyncAwait.Library.Registrations
import RustAsyncAwait.Proofs.IoSteps

/-! What one step of the owners of the sources does, and what their requests
look like for one descriptor: the waker that is registered, then the queue. -/

namespace RustAsyncAwait.IoSelector
open Library
open IoMultiplexing (RawFd File IOOps event)

/-- All that one step can do, with the guards it passed. -/
inductive Step : State → Event → State → Prop
  | listen {state fd} (free : state.io.fds fd = none) :
      Step state (.listen fd)
        { state with
          io.fds := Function.update state.io.fds fd (some (.socket state.sources.length))
          io.refs := Function.update state.io.refs (.socket state.sources.length) 1
          sources := state.sources ++ [⟨fd, none, true, .alive⟩] }
  | accept {state listener writer reader} (free : state.io.fds writer = none) (also : state.io.fds reader = none)
      (different : writer ≠ reader) :
      Step state (.accept listener writer reader)
        { state with
          io.fds := Function.update (Function.update state.io.fds writer (some (.socket state.sources.length))) reader
            (some (.socket state.sources.length))
          io.refs := Function.update state.io.refs (.socket state.sources.length) 2
          sources := state.sources ++ [⟨reader, some writer, false, .alive⟩] }
  | pending {state source fd} (at_fd : state.fd source = some fd) (alive : state.life source = some .alive) :
      Step state (.pending source)
        { state with
          io.queue := state.io.queue ++ [.ADD fd state.polls.length]
          io.lock := some .executor
          polls := state.polls ++ [source]
          registering := some source }
  | unregister {state source fd} (at_fd : state.fd source = some fd) (alive : state.life source = some .alive) :
      Step state (.unregister source)
        (State.setLife
          { state with
            io.queue := state.io.queue ++ [.REMOVE fd]
            io.lock := some .executor
            registering := some source }
          source .dropped)
  | write_eventfd {state} :
      Step state .write_eventfd { state with io.counter := state.io.counter + 1, io.lock := none, registering := none }
  | close {state source fd} (at_fd : state.fd source = some fd) (dropped : state.life source = some .dropped) :
      Step state (.close source) (State.setLife { state with io := state.io.close fd } source .closed)
  | drop_writer {state source fd} (at_fd : state.writer source = some fd) :
      Step state (.drop_writer source) (State.dropWriter { state with io := state.io.close fd } source)
  | select {state event io} (selecting : selects event = true) (stepped : IoMultiplexing.Step state.io event io) :
      Step state (.select event) { state with io }

theorem step_cases {state next : State} {event : Event} (stepped : step state event = some next) :
    Step state event next := by
  cases event with
  | listen fd =>
    simp only [step, Option.ite_none_right_eq_some, Option.some.injEq] at stepped
    obtain ⟨free, rfl⟩ := stepped
    exact .listen free
  | accept listener writer reader =>
    simp only [step, Option.ite_none_right_eq_some, Option.some.injEq] at stepped
    obtain ⟨⟨_, free, also, different⟩, rfl⟩ := stepped
    exact .accept free also different
  | pending source =>
    simp only [step] at stepped
    split at stepped
    next fd at_fd alive =>
      obtain ⟨io, performed, rfl⟩ := Option.map_eq_some_iff.mp stepped
      simp only [IoMultiplexing.State.perform, Option.ite_none_right_eq_some, Option.some.injEq] at performed
      obtain ⟨_, rfl⟩ := performed
      exact .pending at_fd alive
    next => cases stepped
  | unregister source =>
    simp only [step] at stepped
    split at stepped
    next fd at_fd alive =>
      obtain ⟨io, performed, rfl⟩ := Option.map_eq_some_iff.mp stepped
      simp only [IoMultiplexing.State.perform, Option.ite_none_right_eq_some, Option.some.injEq] at performed
      obtain ⟨_, rfl⟩ := performed
      exact .unregister at_fd alive
    next => cases stepped
  | write_eventfd =>
    simp only [step, Option.ite_none_right_eq_some] at stepped
    obtain ⟨io, performed, rfl⟩ := Option.map_eq_some_iff.mp stepped.2
    simp only [IoMultiplexing.State.perform, Option.ite_none_right_eq_some, Option.some.injEq] at performed
    obtain ⟨_, rfl⟩ := performed
    exact .write_eventfd
  | close source =>
    simp only [step] at stepped
    split at stepped
    next fd at_fd dropped =>
      simp only [Option.ite_none_right_eq_some, Option.some.injEq] at stepped
      obtain ⟨_, rfl⟩ := stepped
      exact .close at_fd dropped
    next => cases stepped
  | drop_writer source =>
    simp only [step] at stepped
    obtain ⟨fd, at_fd, rfl⟩ := Option.map_eq_some_iff.mp stepped
    exact .drop_writer at_fd
  | select event =>
    simp only [step, Option.ite_none_right_eq_some] at stepped
    obtain ⟨io, moved, rfl⟩ := Option.map_eq_some_iff.mp stepped.2
    exact .select stepped.1 (IoMultiplexing.step_cases moved)

section Sources
variable {state : State} {io : IoMultiplexing.State} {registering : Option Nat} {source other : Nat} {before after : Life}

theorem fd_setLife : (State.setLife { state with io, registering } source after).fd other = state.fd other := by
  rw [State.fd, State.fd, ← List.getElem?_map, ← List.getElem?_map]
  exact congrArg (·[other]?) (map_modify_of_eq _ _ _ Source.fd fun _ => rfl)

theorem writer_setLife : (State.setLife { state with io, registering } source after).writer other = state.writer other := by
  have same := congrArg (fun writers => Option.bind writers[other]? id)
    (map_modify_of_eq state.sources source (fun found => { found with life := after }) Source.writer fun _ => rfl)
  simp only [List.getElem?_map, Option.bind_map, Function.id_comp] at same
  exact same

theorem life_setLife (life : state.life source = some before) :
    (State.setLife { state with io, registering } source after).life other =
      if other = source then some after else state.life other := by
  simp only [State.life, State.setLife]
  split
  next same =>
    rw [same, List.getElem?_modify_eq]
    obtain ⟨found, at_source, _⟩ := Option.map_eq_some_iff.mp life
    rw [at_source]
    rfl
  next different => rw [List.getElem?_modify_ne _ _ (Ne.symm different)]

theorem fd_dropWriter : (State.dropWriter { state with io } source).fd other = state.fd other := by
  rw [State.fd, State.fd, ← List.getElem?_map, ← List.getElem?_map]
  exact congrArg (·[other]?) (map_modify_of_eq _ _ _ Source.fd fun _ => rfl)

theorem life_dropWriter : (State.dropWriter { state with io } source).life other = state.life other := by
  rw [State.life, State.life, ← List.getElem?_map, ← List.getElem?_map]
  exact congrArg (·[other]?) (map_modify_of_eq _ _ _ Source.life fun _ => rfl)

theorem writer_dropWriter :
    (State.dropWriter { state with io } source).writer other = if other = source then none else state.writer other := by
  simp only [State.writer, State.dropWriter]
  split
  next same =>
    rw [same, List.getElem?_modify_eq]
    cases state.sources[source]? <;> rfl
  next different => rw [List.getElem?_modify_ne _ _ (Ne.symm different)]

/-- The new source is the last one. -/
theorem sources_snoc {new : Source} :
    (state.sources ++ [new])[source]? = if source = state.sources.length then some new else state.sources[source]? := by
  rw [List.getElem?_append, List.getElem?_singleton]
  split
  next inside => rw [if_neg (Nat.ne_of_lt inside)]
  next outside =>
    by_cases last : source = state.sources.length
    · simp [last]
    · rw [if_neg (by omega), if_neg last, List.getElem?_eq_none (Nat.le_of_not_lt outside)]

end Sources

/-- The state with one more source, whose descriptors are open. -/
def State.add (state : State) (new : Source) (fds : RawFd → Option File) (refs : File → Nat) : State :=
  { state with io.fds := fds, io.refs := refs, sources := state.sources ++ [new] }

/-- The source has its descriptor open. -/
def State.holds (state : State) (source : Nat) (fd : RawFd) : Prop :=
  state.fd source = some fd ∧ state.life source ≠ some .closed

section Add
variable {state : State} {new : Source} {fds : RawFd → Option File} {refs : File → Nat} {source : Nat}

theorem fd_add : (state.add new fds refs).fd source = if source = state.sources.length then some new.fd else state.fd source := by
  simp only [State.fd, State.add, sources_snoc]
  split <;> rfl

theorem life_add :
    (state.add new fds refs).life source = if source = state.sources.length then some new.life else state.life source := by
  simp only [State.life, State.add, sources_snoc]
  split <;> rfl

theorem writer_add :
    (state.add new fds refs).writer source = if source = state.sources.length then new.writer else state.writer source := by
  simp only [State.writer, State.add, sources_snoc]
  split <;> rfl

theorem fresh_add {fd : RawFd} (at_fd : state.fd source = some fd) : source ≠ state.sources.length := by
  intro same
  subst same
  simp [State.fd] at at_fd

/-- The other sources stay as they were. -/
theorem old_add {fd : RawFd} (at_fd : state.fd source = some fd) :
    (state.add new fds refs).fd source = some fd ∧ (state.add new fds refs).life source = state.life source := by
  rw [fd_add, life_add, if_neg (fresh_add at_fd), if_neg (fresh_add at_fd)]
  exact ⟨at_fd, rfl⟩

end Add

/-- The descriptors that are open, and the counts of their files. -/
structure Descriptors (state : State) : Prop where
  eventfd : state.io.fds event = some .eventfd
  opened : ∀ source fd, state.holds source fd → state.io.fds fd = some (.socket source)
  writers : ∀ source fd, state.writer source = some fd → state.io.fds fd = some (.socket source) ∧ state.fd source ≠ some fd
  counted : ∀ source, state.writer source ≠ none → state.life source ≠ some .closed → state.io.refs (.socket source) = 2

namespace Descriptors
variable {state next : State}

/-- No two sources have one descriptor. -/
theorem unique (tables : Descriptors state) {one other : Nat} {fd : RawFd} (first : state.holds one fd)
    (second : state.holds other fd) : one = other := by
  have same := tables.opened one fd first
  rw [tables.opened other fd second] at same
  cases same
  rfl

theorem not_event (tables : Descriptors state) {source : Nat} {fd : RawFd} (held : state.holds source fd) : fd ≠ event := by
  intro same
  subst same
  have other := tables.opened source _ held
  rw [tables.eventfd] at other
  cases other

/-- No descriptor is opened or closed. -/
theorem keep (tables : Descriptors state) (fds : next.io.fds = state.io.fds) (refs : next.io.refs = state.io.refs)
    (fd : ∀ source, next.fd source = state.fd source) (writer : ∀ source, next.writer source = state.writer source)
    (life : ∀ source, next.life source = some .closed ↔ state.life source = some .closed) : Descriptors next := by
  refine ⟨fds ▸ tables.eventfd, ?_, ?_, ?_⟩
  · intro source at_fd opened
    obtain ⟨held, unclosed⟩ := opened
    rw [fds]
    exact tables.opened source at_fd ⟨(fd source).symm.trans held, fun closed => unclosed ((life source).mpr closed)⟩
  · intro source at_fd has
    rw [fds, fd]
    exact tables.writers source at_fd ((writer source).symm.trans has)
  · intro source has unclosed
    rw [refs]
    exact tables.counted source (fun absent => has ((writer source).trans absent)) fun closed => unclosed ((life source).mpr closed)

/-- A new source has descriptors that were free. -/
private theorem added (tables : Descriptors state) {new : Source} {fds : RawFd → Option File} {refs : File → Nat}
    (different : new.writer ≠ some new.fd) (kept : ∀ fd file, state.io.fds fd = some file → fds fd = some file)
    (own : fds new.fd = some (.socket state.sources.length))
    (also : ∀ fd, new.writer = some fd → fds fd = some (.socket state.sources.length))
    (count : new.writer ≠ none → refs (.socket state.sources.length) = 2)
    (same : ∀ source, source ≠ state.sources.length → refs (.socket source) = state.io.refs (.socket source)) :
    Descriptors (state.add new fds refs) := by
  refine ⟨kept _ _ tables.eventfd, ?_, ?_, ?_⟩
  · intro source fd opened
    obtain ⟨at_fd, unclosed⟩ := opened
    rw [fd_add] at at_fd
    rw [life_add] at unclosed
    split at at_fd
    next last => cases at_fd; rw [last]; exact own
    next old => rw [if_neg old] at unclosed; exact kept _ _ (tables.opened source fd ⟨at_fd, unclosed⟩)
  · intro source fd at_fd
    rw [writer_add] at at_fd
    rw [fd_add]
    split at at_fd
    next last =>
      rw [if_pos last, last]
      exact ⟨also fd at_fd, fun same => different (by rw [at_fd, same])⟩
    next old =>
      rw [if_neg old]
      obtain ⟨before, away⟩ := tables.writers source fd at_fd
      exact ⟨kept _ _ before, away⟩
  · intro source has unclosed
    rw [writer_add] at has
    rw [life_add] at unclosed
    by_cases last : source = state.sources.length
    · rw [if_pos last] at has
      rw [last]
      exact count has
    · rw [if_neg last] at has unclosed
      exact (same source last).trans (tables.counted source has unclosed)

theorem listen (tables : Descriptors state) {fd : RawFd} (free : state.io.fds fd = none) :
    Descriptors (state.add ⟨fd, none, true, .alive⟩ (Function.update state.io.fds fd (some (.socket state.sources.length)))
      (Function.update state.io.refs (.socket state.sources.length) 1)) := by
  apply tables.added (by simp) _ (Function.update_self ..) (by simp) (by simp)
  · intro source old
    rw [Function.update_of_ne (by simpa using old)]
  · intro other file is_open
    rw [Function.update_of_ne, is_open]
    intro same
    subst same
    rw [free] at is_open
    cases is_open

theorem accept (tables : Descriptors state) {writer reader : RawFd} (free : state.io.fds writer = none)
    (also : state.io.fds reader = none) (different : writer ≠ reader) :
    Descriptors (state.add ⟨reader, some writer, false, .alive⟩
      (Function.update (Function.update state.io.fds writer (some (.socket state.sources.length))) reader
        (some (.socket state.sources.length)))
      (Function.update state.io.refs (.socket state.sources.length) 2)) := by
  apply tables.added (by simpa using different) _ (Function.update_self ..) _ (fun _ => Function.update_self ..)
  · intro source old
    rw [Function.update_of_ne (by simpa using old)]
  · intro other file is_open
    rw [Function.update_of_ne, Function.update_of_ne, is_open]
    · intro same
      subst same
      rw [free] at is_open
      cases is_open
    · intro same
      subst same
      rw [also] at is_open
      cases is_open
  · intro fd same
    cases same
    rw [Function.update_of_ne different, Function.update_self]

/-- A descriptor of `source` is closed. -/
private theorem closes (tables : Descriptors state) {source : Nat} {fd : RawFd} (is_open : state.io.fds fd = some (.socket source))
    (io : next.io = state.io.close fd) (same : ∀ other, next.fd other = state.fd other)
    (holds : ∀ other at_fd, next.holds other at_fd → state.holds other at_fd ∧ at_fd ≠ fd)
    (writers : ∀ other at_fd, next.writer other = some at_fd → state.writer other = some at_fd ∧ at_fd ≠ fd)
    (counted : ∀ other, next.writer other ≠ none → next.life other ≠ some .closed →
      other ≠ source ∧ state.writer other ≠ none ∧ state.life other ≠ some .closed) : Descriptors next := by
  rw [IoMultiplexing.close_open is_open] at io
  refine ⟨?_, ?_, ?_, ?_⟩
  · have away : event ≠ fd := by
      intro same
      subst same
      rw [tables.eventfd] at is_open
      cases is_open
    rw [io]
    exact (Function.update_of_ne away ..).trans tables.eventfd
  · intro other at_fd held
    obtain ⟨before, away⟩ := holds other at_fd held
    rw [io]
    exact (Function.update_of_ne away ..).trans (tables.opened other at_fd before)
  · intro other at_fd has
    obtain ⟨before, away⟩ := writers other at_fd has
    obtain ⟨opened, apart⟩ := tables.writers other at_fd before
    rw [io, same]
    exact ⟨(Function.update_of_ne away ..).trans opened, apart⟩
  · intro other has unclosed
    obtain ⟨away, has, unclosed⟩ := counted other has unclosed
    rw [io]
    exact (Function.update_of_ne (by simpa using away) ..).trans (tables.counted other has unclosed)

theorem close (tables : Descriptors state) {source : Nat} {fd : RawFd} (at_fd : state.fd source = some fd)
    (dropped : state.life source = some .dropped) :
    Descriptors (State.setLife { state with io := state.io.close fd } source .closed) := by
  have held : state.holds source fd := ⟨at_fd, by simp [dropped]⟩
  have is_open := tables.opened source fd held
  have away : ∀ other, (State.setLife { state with io := state.io.close fd } source .closed).life other ≠ some .closed →
      other ≠ source ∧ state.life other ≠ some .closed := by
    intro other unclosed
    rw [life_setLife dropped] at unclosed
    split at unclosed
    next => exact absurd rfl unclosed
    next different => exact ⟨different, unclosed⟩
  refine tables.closes is_open rfl (fun other => fd_setLife) ?_ ?_ ?_
  · intro other other_fd opened
    obtain ⟨at_other, unclosed⟩ := opened
    obtain ⟨different, unclosed⟩ := away other unclosed
    have before : state.holds other other_fd := ⟨fd_setLife.symm.trans at_other, unclosed⟩
    refine ⟨before, ?_⟩
    intro same
    subst same
    exact different (tables.unique before held)
  · intro other other_fd has
    have before : state.writer other = some other_fd := writer_setLife.symm.trans has
    refine ⟨before, ?_⟩
    intro same
    subst same
    obtain ⟨opened, apart⟩ := tables.writers other _ before
    rw [is_open] at opened
    cases opened
    exact apart at_fd
  · intro other has unclosed
    obtain ⟨different, unclosed⟩ := away other unclosed
    exact ⟨different, fun absent => has (writer_setLife.trans absent), unclosed⟩

theorem drop_writer (tables : Descriptors state) {source : Nat} {fd : RawFd} (at_fd : state.writer source = some fd) :
    Descriptors (State.dropWriter { state with io := state.io.close fd } source) := by
  obtain ⟨is_open, apart⟩ := tables.writers source fd at_fd
  have away : ∀ other, (State.dropWriter { state with io := state.io.close fd } source).writer other ≠ none →
      other ≠ source ∧ state.writer other ≠ none := by
    intro other has
    rw [writer_dropWriter] at has
    split at has
    next => exact absurd rfl has
    next different => exact ⟨different, has⟩
  refine tables.closes is_open rfl (fun other => fd_dropWriter) ?_ ?_ ?_
  · intro other other_fd opened
    obtain ⟨at_other, unclosed⟩ := opened
    have before : state.holds other other_fd :=
      ⟨fd_dropWriter.symm.trans at_other, fun closed => unclosed (life_dropWriter.trans closed)⟩
    refine ⟨before, ?_⟩
    intro same
    subst same
    have opened := tables.opened other _ before
    rw [is_open] at opened
    cases opened
    exact apart before.1
  · intro other other_fd has
    rw [writer_dropWriter] at has
    split at has
    next => cases has
    next different =>
      refine ⟨has, ?_⟩
      intro same
      subst same
      have opened := (tables.writers other _ has).1
      rw [is_open] at opened
      cases opened
      exact different rfl
  · intro other has unclosed
    obtain ⟨different, has⟩ := away other has
    exact ⟨different, has, fun closed => unclosed (life_dropWriter.trans closed)⟩

end Descriptors

/-- What a request is for one descriptor: the waker of an `ADD`, or the end of a registration. -/
def about (fd : RawFd) : IOOps → Option (Option Nat)
  | .ADD other waker => if other = fd then some (some waker) else none
  | .REMOVE other => if other = fd then some none else none

def State.queued (state : State) (fd : RawFd) : List (Option Nat) := state.io.queue.filterMap (about fd)

/-- The waker of a descriptor and its requests that the selector has yet to take, in their order. -/
def State.requests (state : State) (fd : RawFd) : List (Option Nat) :=
  state.io.wakers[fd]?.toList.map some ++ state.queued fd

/-- The poll is the latest one of its source that returned `Pending`. -/
def State.latest (state : State) (poll : Nat) : Prop :=
  ∃ source, state.polls[poll]? = some source ∧ ∀ later : Nat, state.polls[later]? = some source → later ≤ poll

/-- The source of the poll has not been dropped. -/
def State.awaited (state : State) (poll : Nat) : Prop :=
  ∃ source, state.polls[poll]? = some source ∧ state.life source = some .alive

theorem mem_queued {state : State} {fd : RawFd} {waker : Nat} :
    some waker ∈ state.queued fd ↔ .ADD fd waker ∈ state.io.queue := by
  simp only [State.queued, List.mem_filterMap]
  constructor
  · intro among
    obtain ⟨op, member, shown⟩ := among
    cases op with
    | ADD other also =>
      simp only [about, Option.ite_none_right_eq_some, Option.some.injEq] at shown
      obtain ⟨rfl, rfl⟩ := shown
      exact member
    | REMOVE other => simp [about] at shown
  · exact fun member => ⟨_, member, by simp [about]⟩

theorem mem_requests {state : State} {fd : RawFd} {waker : Nat} :
    some waker ∈ state.requests fd ↔ state.io.wakers[fd]? = some waker ∨ .ADD fd waker ∈ state.io.queue := by
  rw [State.requests, List.mem_append, mem_queued]
  simp

/-- The state after the `push_back` of a `register` or `unregister`. -/
def State.push (state : State) (op : IOOps) (polls : List Nat) (source : Nat) : State :=
  { state with io.queue := state.io.queue ++ [op], io.lock := some .executor, polls, registering := some source }

theorem requests_push {state : State} {op : IOOps} {polls : List Nat} {source : Nat} (fd : RawFd) :
    (state.push op polls source).requests fd = state.requests fd ++ (about fd op).toList := by
  simp only [State.requests, State.queued, State.push, filterMap_snoc, List.append_assoc]

end RustAsyncAwait.IoSelector
