import RustAsyncAwait.Proofs.EpollSteps

/-! Which events end the epoll server, or separate its map from the epoll instance. -/

namespace RustAsyncAwait.EpollServer
open Library ReadLine

/-- The server has not panicked, and the keys of the map are the client
descriptors that epoll watches. -/
def Safe (state : State) : Prop :=
  state.place ≠ .panicked ∧ ∀ fd, state.fd_to_buf[fd]? ≠ none ↔ fd ∈ state.interest ∧ fd ≠ listen_fd

/-- A line that is not UTF-8, or an operation on a client's socket that returns an error. -/
def Event.panics : Event → Bool
  | .try_clone_fails | .fill_buf_fails | .invalid | .write_fails => true
  | _ => false

/-- `EpollCtlAdd` returns an error. -/
def Event.unwatched : Event → Bool
  | .accept _ _ added => !added
  | _ => false

def Event.fails (event : Event) : Bool := event.panics || event.unwatched

/-- An entry whose descriptor epoll does not watch. -/
def Lost (state : State) : Prop := ∃ fd, state.owner fd ≠ none ∧ fd ∉ state.interest

theorem owner_none {state : State} {fd : RawFd} : state.owner fd = none ↔ state.fd_to_buf[fd]? = none := by
  rw [State.owner, Option.map_eq_none_iff]

theorem safe_iff {state : State} (tables : Tables state) : Safe state ↔ ¬ (state.place = .panicked ∨ Lost state) := by
  constructor
  · intro safe either
    obtain ⟨runs, keys⟩ := safe
    rcases either with panicked | ⟨fd, owned, unwatched⟩
    · exact runs panicked
    · rw [Ne, owner_none] at owned
      exact unwatched ((keys fd).mp owned).1
  · intro whole
    refine ⟨fun panicked => whole (.inl panicked), fun fd => ?_⟩
    rw [Ne, ← owner_none]
    constructor
    · intro owned
      refine ⟨not_not.mp fun unwatched => whole (.inr ⟨fd, owned, unwatched⟩), ?_⟩
      intro same
      subst same
      exact owned tables.listening.2.2
    · intro both
      obtain ⟨member, other⟩ := both
      exact tables.watched fd member other

section Step
variable {state next : State} {event : Event}

theorem step_panicked (tables : Tables state) (stepped : step state event = some next) :
    next.place = .panicked ↔ state.place = .panicked ∨ event.panics = true := by
  cases step_cases stepped with
  | connect => simp [Event.panics]
  | client _ _ _ _ outside => obtain ⟨bytes, rfl | rfl | rfl⟩ := outside <;> simp [Event.panics]
  | epoll_wait here _ _ | interrupted here | accept here _ _ _ _ | accept_fails here | get_mut here _ _ | fill_buf here _ _ _
  | end_of_stream here _ | line here _ _ _ | part here _ | close here _ _ | write here _ _ | again here =>
    simp [here, Event.panics]
  | try_clone_fails _ | fill_buf_fails _ | invalid _ | write_fails _ => exact iff_of_true rfl (.inr rfl)
  | @get_none fd batch here other missing =>
    have watched := tables.pending.2 fd (by simp [here, Place.pending])
    exact absurd (owner_none.mpr missing) (tables.watched fd watched other)
  | @close_fails fd batch here unwatched => exact absurd (tables.pending.2 fd (by simp [here, Place.pending])) unwatched

theorem lost_accept (tables : Tables state) {fd : RawFd} {entry : Entry} {added : Bool}
    (fresh : fd ∉ state.fds) (map : next.fd_to_buf = state.fd_to_buf.insert fd entry)
    (interest : next.interest = if added then fd :: state.interest else state.interest) :
    Lost next ↔ Lost state ∨ added = false := by
  have unowned : state.owner fd = none := by
    apply Option.eq_none_iff_forall_ne_some.mpr
    intro entry owned
    obtain ⟨client, reader⟩ := entry
    exact fresh (tables.opened fd client reader owned).1
  have unwatched : fd ∉ state.interest := by
    intro member
    refine tables.watched fd member ?_ unowned
    intro same
    subst same
    exact fresh tables.listening.1
  simp only [Lost, owner_insert state map, interest]
  constructor
  · intro lost
    obtain ⟨item, owned, absent⟩ := lost
    split at owned
    · rename_i same
      cases added with
      | true => exact absurd (by simp [same]) absent
      | false => exact .inr rfl
    · refine .inl ⟨item, owned, fun member => absent ?_⟩
      split
      · exact List.mem_cons_of_mem _ member
      · exact member
  · intro either
    rcases either with ⟨item, owned, absent⟩ | rfl
    · have different : fd ≠ item := by
        intro same
        subst same
        exact owned unowned
      refine ⟨item, by rwa [if_neg different], ?_⟩
      split
      · simp [Ne.symm different, absent]
      · exact absent
    · exact ⟨fd, by simp, by simpa using unwatched⟩

theorem lost_close {fd : RawFd} (watched : fd ∈ state.interest) (map : next.fd_to_buf = state.fd_to_buf.erase fd)
    (interest : next.interest = state.interest.filter (· ≠ fd)) : Lost next ↔ Lost state := by
  simp only [Lost, owner_erase state map, interest]
  constructor
  · intro lost
    obtain ⟨item, owned, absent⟩ := lost
    split at owned
    · exact absurd rfl owned
    · rename_i different
      exact ⟨item, owned, fun member => absent (by simp [member, Ne.symm different])⟩
  · intro lost
    obtain ⟨item, owned, absent⟩ := lost
    have different : fd ≠ item := by
      intro same
      subst same
      exact absent watched
    exact ⟨item, by rwa [if_neg different], fun member => absent (List.mem_filter.mp member).1⟩

theorem step_lost (tables : Tables state) (stepped : step state event = some next) :
    Lost next ↔ Lost state ∨ event.unwatched = true := by
  have keeps : ∀ {next : State}, (∀ fd, next.owner fd = state.owner fd) → next.interest = state.interest →
      (Lost next ↔ Lost state ∨ false = true) := by
    intro next owner interest
    simp [Lost, owner, interest]
  have same : ∀ fd, state.owner fd = state.owner fd := fun _ => rfl
  cases step_cases stepped with
  | client _ _ _ _ outside => obtain ⟨bytes, rfl | rfl | rfl⟩ := outside <;> exact keeps same rfl
  | connect | epoll_wait _ _ _ | interrupted _ | accept_fails _ | get_mut _ _ _ | end_of_stream _ _ | again _
  | try_clone_fails _ | fill_buf_fails _ | invalid _ | write_fails _ | get_none _ _ _ | close_fails _ _ | write _ _ _ =>
    exact keeps same rfl
  | accept _ _ fresh _ _ =>
    rw [lost_accept tables fresh rfl rfl, Event.unwatched, Bool.not_eq_true']
  | fill_buf _ found _ _ | line _ found _ _ | part _ found => exact keeps (owner_buffered found rfl) rfl
  | close _ _ watched =>
    rw [lost_close watched rfl rfl]
    simp [Event.unwatched]

end Step

theorem reaches_fails {trace : List Event} {state : State} (reaches : server.Reaches trace state) :
    (state.place = .panicked ∨ Lost state) ↔ ∃ event ∈ trace, event.fails = true := by
  refine reaches.trace_invariant
    (fun trace state => (state.place = .panicked ∨ Lost state) ↔ ∃ event ∈ trace, event.fails = true) ?_ ?_
  · refine iff_of_false ?_ (by simp)
    intro either
    rcases either with panicked | ⟨fd, owned, _⟩
    · cases panicked
    · exact owned (by simp [State.owner, server])
  · intro trace state event next earlier held stepped
    have tables := reaches_tables earlier
    simp only [List.mem_append, List.mem_singleton, or_and_right, exists_or, exists_eq_left]
    rw [step_panicked tables stepped, step_lost tables stepped, ← held, Event.fails, Bool.or_eq_true]
    exact or_or_or_comm

/-- The server stays safe exactly as long as none of these events happens. -/
theorem safe_iff_fine {trace : List Event} {state : State} (reaches : server.Reaches trace state) :
    Safe state ↔ ∀ event ∈ trace, event.fails = false := by
  rw [safe_iff (reaches_tables reaches), reaches_fails reaches]
  simp

/-- The second client gets the descriptors of the first one, in the batch in which that is closed. -/
theorem safe_iff_fine_reused :
    let trace : List Event := [.connect, .epoll_wait [3], .accept 5 6 true, .again, .shutdown 0, .connect, .send 1 [97, 10],
      .epoll_wait [5, 3], .get_mut, .end_of_stream, .close, .accept 5 6 true, .again, .epoll_wait [5], .get_mut, .fill_buf 2,
      .consume, .write 2, .again]
    ∃ state, server.Reaches trace state ∧ (Safe state ↔ ∀ event ∈ trace, event.fails = false) := by
  intro trace
  exact ⟨_, rfl, safe_iff_fine rfl⟩

/-- A client sends a line with the byte `0xff`. -/
theorem client_crashes_server : ¬ ∀ trace state, server.Reaches trace state → Safe state := by
  intro always
  let trace : List Event := [.connect, .epoll_wait [3], .accept 5 6 true, .again, .send 0 [255, 10], .epoll_wait [5],
    .get_mut, .fill_buf 2, .consume, .invalid]
  exact (always trace _ rfl).1 rfl

end RustAsyncAwait.EpollServer
