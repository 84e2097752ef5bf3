import RustAsyncAwait.Proofs.IoPlaces

/-! The steps of the selecting thread, and what holds in every run of the
server: no panic, no counter that is zero while a request waits, and no task
that waits and is nowhere. -/

namespace RustAsyncAwait.IoMultiplexing
open Library State

namespace Placed
variable {state : State}

theorem epoll_wait (placed : Placed state) {ready : List (RawFd × File)} (waiting : state.select = .epoll_wait)
    (distinct : ready.Nodup) (reported : ∀ pair ∈ ready, state.reported pair = true) :
    Placed { state with
      interest := fun fd file => if (fd, file) ∈ ready then (state.interest fd file).map fun _ => false
        else state.interest fd file
      select := .events (ready.map Prod.fst) } := by
  have owned := owned_step placed.owned placed.unready (.epoll_wait waiting distinct reported)
  -- a descriptor is reported for one file: the eventfd, or the socket that its waker waits for
  have file_of : ∀ fd file, (fd, file) ∈ ready → file = .eventfd ∧ fd = event ∨
      ∃ task, file = .socket task ∧ state.wakers[fd]? = some task := by
    intro fd file member
    have shown := reported _ member
    unfold State.reported at shown
    split at shown
    next same =>
      simp only [decide_eq_true_eq] at shown
      exact .inl ⟨same, shown.1⟩
    next => exact .inr (placed.armed fd file (by simpa using shown))
  have unique : ∀ fd one two, (fd, one) ∈ ready → (fd, two) ∈ ready → one = two := by
    intro fd one two first second
    rcases file_of fd one first with ⟨rfl, rfl⟩ | ⟨task, rfl, waker⟩
    · rcases file_of event two second with ⟨rfl, _⟩ | ⟨_, _, waker⟩
      · rfl
      · exact absurd waker (placed.event_unused _)
    · rcases file_of fd two second with ⟨_, rfl⟩ | ⟨also, rfl, same⟩
      · exact absurd waker (placed.event_unused _)
      · rw [waker] at same
        cases same
        rfl
  refine { placed with
    owned := owned, armed := ?_, reported := ?_, batch := ?_, disarmed := ?_, nodup := ?_, drains := ?_, alive := ?_ }
  · intro fd file armed
    exact placed.armed fd file (still_armed armed).2
  · intro fd task waker
    by_cases inside : (fd, File.socket task) ∈ ready
    · exact .inr (List.mem_map.mpr ⟨_, inside, rfl⟩)
    · refine .inl ?_
      show (if _ then _ else _) = _
      rw [if_neg inside]
      rcases placed.reported fd task waker with armed | batch
      · exact armed
      · rw [waiting] at batch
        cases batch
  · intro fd member
    obtain ⟨⟨_, file⟩, inside, rfl⟩ := List.mem_map.mp member
    rcases file_of _ file inside with ⟨_, same⟩ | ⟨task, _, waker⟩
    · exact .inl same
    · exact .inr ⟨task, waker⟩
  · intro fd member file armed
    obtain ⟨⟨_, shown⟩, inside, rfl⟩ := List.mem_map.mp member
    obtain ⟨outside, before⟩ := still_armed armed
    obtain ⟨task, rfl, waker⟩ := placed.armed _ file before
    rcases file_of _ shown inside with ⟨_, rfl⟩ | ⟨also, rfl, same⟩
    · exact placed.event_unused _ waker
    · rw [waker] at same
      cases same
      exact outside inside
  · exact ready_nodup distinct unique
  · intro batch draining
    cases draining
  · simp

theorem wake (placed : Placed state) {fd : RawFd} {task : Nat} {batch : List RawFd}
    (handling : state.select = .events (fd :: batch)) (socket : fd ≠ event) (waker : state.wakers[fd]? = some task) :
    Placed { state with
      wakers := state.wakers.erase fd, channel := state.channel ++ [task], select := .events batch } := by
  have owned := owned_step placed.owned placed.unready (.wake handling socket waker)
  have nodup := placed.nodup
  have disarmed := placed.disarmed
  have inside := placed.batch
  rw [handling] at nodup disarmed inside
  obtain ⟨alone, nodup⟩ := List.nodup_cons.mp nodup
  have kept : ∀ other : RawFd, other ≠ fd → (state.wakers.erase fd)[other]? = state.wakers[other]? :=
    fun _ different => HashMap.get_erase_of_ne _ different
  have gone : (state.wakers.erase fd)[fd]? = none := by simp
  have still : ∀ {other : RawFd} {waiter : Nat}, (state.wakers.erase fd)[other]? = some waiter →
      other ≠ fd ∧ state.wakers[other]? = some waiter := by
    intro other waiter stays
    have different : other ≠ fd := by
      intro same
      rw [same, gone] at stays
      cases stays
    exact ⟨different, by rw [← kept other different, stays]⟩
  refine { placed with
    owned := owned, places := ?_, waking := ?_, channel := ?_, removed := ?_, armed := ?_, reported := ?_, batch := ?_,
    disarmed := fun other member => disarmed other (List.mem_cons_of_mem _ member), nodup := nodup, drains := ?_, alive := ?_ }
  · intro other found at_found
    have before := placed.places other found at_found
    simp only [State.places]
    rw [← before, State.places, List.count_append]
    by_cases same : other = task
    · subst same
      obtain rfl := placed.waking_fd at_found waker
      rw [gone, waker, if_neg (by simp), if_pos rfl, List.count_singleton_self]
      omega
    · have alone : [task].count other = 0 := List.count_eq_zero.mpr (by simpa using same)
      rw [alone]
      by_cases at_fd : found.fd = fd
      · rw [at_fd, gone, waker, if_neg (by simp), if_neg (by simpa using Ne.symm same)]
        omega
      · rw [kept _ at_fd]
        omega
  · intro other waiter stays
    exact placed.waking other waiter (still stays).2
  · intro other member
    rcases List.mem_append.mp member with before | new
    · exact placed.channel other before
    · rw [List.mem_singleton.mp new]
      obtain ⟨found, at_task, _⟩ := placed.waking fd task waker
      exact (List.getElem?_eq_some_iff.mp at_task).1
  · intro other member
    rw [HashMap.get_erase, placed.removed other member, ite_self]
  · intro other file armed
    obtain ⟨waiter, rfl, waits⟩ := placed.armed other file armed
    refine ⟨waiter, rfl, ?_⟩
    rw [kept other, waits]
    intro same
    exact disarmed fd (List.mem_cons_self ..) _ (same ▸ armed)
  · intro other waiter stays
    obtain ⟨different, before⟩ := still stays
    refine (placed.reported other waiter before).imp_right fun member => ?_
    rw [handling] at member
    exact (List.mem_cons.mp member).resolve_left different
  · intro other member
    refine (inside other (List.mem_cons_of_mem _ member)).imp_right fun waits => ?_
    obtain ⟨waiter, waits⟩ := waits
    have different : other ≠ fd := fun same => alone (same ▸ member)
    exact ⟨waiter, by rw [kept other different, waits]⟩
  · intro batch draining
    cases draining
  · simp

/-- What is still to be handled has a waker. -/
theorem not_missing (placed : Placed state) {fd : RawFd} {batch : List RawFd}
    (handling : state.select = .events (fd :: batch)) (socket : fd ≠ event) : state.wakers[fd]? ≠ none := by
  intro absent
  rcases placed.batch fd (by rw [handling]; exact List.mem_cons_self ..) with same | ⟨task, waker⟩
  · exact socket same
  · rw [absent] at waker
    cases waker

theorem lock (placed : Placed state) {batch : List RawFd} (handling : state.select = .events (event :: batch))
    (unlocked : state.lock = none) : Placed { state with lock := some .select, select := .drain batch } := by
  have nodup := placed.nodup
  have disarmed := placed.disarmed
  have inside := placed.batch
  rw [handling] at nodup disarmed inside
  refine { placed with
    reported := ?_, batch := fun fd member => inside fd (List.mem_cons_of_mem _ member),
    disarmed := fun fd member => disarmed fd (List.mem_cons_of_mem _ member), nodup := (List.nodup_cons.mp nodup).2,
    counter := ?_, drains := fun _ _ => rfl, writes := ?_, alive := ?_ }
  · intro fd task waker
    refine (placed.reported fd task waker).imp_right fun member => ?_
    rw [handling] at member
    apply (List.mem_cons.mp member).resolve_left
    intro same
    exact placed.event_unused task (same ▸ waker)
  · intro same
    cases same
  · intro task effects result leaving
    have locked := placed.writes task effects result leaving
    rw [unlocked] at locked
    cases locked
  · simp

theorem read_eventfd (placed : Placed state) {batch : List RawFd} (draining : state.select = .drain batch)
    (empty : state.queue = []) : Placed { state with counter := 0, lock := none, select := .events batch } := by
  have nodup := placed.nodup
  have disarmed := placed.disarmed
  have inside := placed.batch
  have reported := placed.reported
  rw [draining] at nodup disarmed inside reported
  refine { placed with
    reported := reported, batch := inside, disarmed := disarmed, nodup := nodup, counter := ?_, drains := ?_,
    writes := ?_, alive := ?_ }
  · exact fun _ more => absurd empty more
  · intro rest same
    cases same
  · intro task effects result leaving
    have locked := placed.writes task effects result leaving
    rw [placed.drains batch draining] at locked
    cases locked
  · simp

theorem again (placed : Placed state) (handled : state.select = .events []) :
    Placed { state with select := .epoll_wait } := by
  have reported := placed.reported
  rw [handled] at reported
  refine { placed with
    reported := reported, batch := ?_, disarmed := ?_, nodup := List.nodup_nil, drains := ?_, alive := ?_ }
  · exact fun fd member => nomatch member
  · exact fun fd member => nomatch member
  · intro batch same
    cases same
  · simp

/-- A task in the queue has no waker, so the `assert` of `add_event` holds. -/
theorem add_absent (placed : Placed state) {fd : RawFd} {task : Nat} (member : .ADD fd task ∈ state.queue) :
    state.wakers[fd]? = none := by
  cases waker : state.wakers[fd]? with
  | none => rfl
  | some waiter =>
    have holds := placed.waking_holds waker
    rw [placed.queued_holds member] at holds
    cases holds
    obtain ⟨found, at_task, rfl⟩ := placed.queued fd task member
    have places := placed.places task found at_task
    have bound := places_le found.status state.control.registered
    have counted : 0 < state.queue.countP (·.adds task) := List.countP_pos_iff.mpr ⟨_, member, by simp [IOOps.adds]⟩
    simp only [State.places, waker, if_true] at places
    omega

theorem add_event (placed : Placed state) {fd : RawFd} {task : Nat} {batch : List RawFd} {queue : List IOOps}
    (draining : state.select = .drain batch) (front : state.queue = .ADD fd task :: queue) :
    Placed ({ state with queue := queue }.request (.ADD fd task)) := by
  have owned := owned_step placed.owned placed.unready (.request draining front)
  have first : .ADD fd task ∈ state.queue := by rw [front]; exact List.mem_cons_self ..
  have later : ∀ {op}, op ∈ queue → op ∈ state.queue := by
    intro op member
    rw [front]
    exact List.mem_cons_of_mem _ member
  have absent := placed.add_absent first
  have is_open := placed.queued_holds first
  have order := placed.order
  rw [front] at order
  obtain ⟨ahead, order⟩ := List.pairwise_cons.mp order
  have opened : State.request { state with queue := queue } (.ADD fd task) =
      { state with
        queue := queue, wakers := state.wakers.insert fd task,
        interest := fun key of => if key = fd ∧ of = .socket task then some true else state.interest key of } :=
    @add_event_open { state with queue := queue } fd _ task is_open absent
  rw [opened] at owned ⊢
  have away : ∀ {key : RawFd} {waiter : Nat}, state.wakers[key]? = some waiter → fd ≠ key := by
    intro key waiter waker same
    rw [← same, absent] at waker
    cases waker
  have added : (state.wakers.insert fd task)[fd]? = some task := by simp
  have kept : ∀ {key : RawFd} {waiter : Nat}, state.wakers[key]? = some waiter →
      (state.wakers.insert fd task)[key]? = some waiter := by
    intro key waiter waker
    rw [HashMap.get_insert, if_neg (away waker), waker]
  refine { placed with
    owned := owned, places := ?_, queued := fun key waiter member => placed.queued key waiter (later member),
    waking := ?_, order := order, removed := ?_, armed := ?_, reported := ?_, batch := ?_, disarmed := ?_, counter := ?_ }
  · intro waiter found at_found
    have before := placed.places waiter found at_found
    simp only [State.places]
    rw [← before, State.places, front, List.countP_cons, HashMap.get_insert]
    by_cases same : waiter = task
    · subst same
      obtain rfl := placed.queued_fd at_found first
      have adds : IOOps.adds waiter (.ADD found.fd waiter) = true := by simp [IOOps.adds]
      rw [absent, if_pos rfl, if_pos rfl, if_pos adds, if_neg (by simp)]
    · have foreign : ¬ IOOps.adds waiter (.ADD fd task) = true := by simpa [IOOps.adds] using Ne.symm same
      rw [if_neg foreign, Nat.add_zero]
      by_cases at_fd : fd = found.fd
      · rw [if_pos at_fd, ← at_fd, absent, if_neg (by simpa using Ne.symm same), if_neg (by simp)]
      · rw [if_neg at_fd]
  · intro key waiter waker
    rw [HashMap.get_insert] at waker
    split at waker
    next same =>
      cases waker
      rw [← same]
      exact placed.queued fd _ first
    next => exact placed.waking key waiter waker
  · intro key member
    have different : fd ≠ key := by
      intro same
      exact ahead _ member fd task rfl (by rw [same])
    rw [HashMap.get_insert, if_neg different]
    exact placed.removed key (later member)
  · intro key file armed
    simp only at armed
    split at armed
    next same => exact ⟨task, same.2, by rw [same.1, added]⟩
    next =>
      obtain ⟨waiter, rfl, waker⟩ := placed.armed key file armed
      exact ⟨waiter, rfl, kept waker⟩
  · intro key waiter waker
    rw [HashMap.get_insert] at waker
    show (if _ then _ else _) = _ ∨ _
    split at waker
    next same =>
      cases waker
      exact .inl (if_pos ⟨same.symm, rfl⟩)
    next different =>
      rw [if_neg fun both => different both.1.symm]
      exact placed.reported key waiter waker
  · intro key member
    refine (placed.batch key member).imp_right fun waits => ?_
    obtain ⟨waiter, waker⟩ := waits
    exact ⟨waiter, kept waker⟩
  · intro key member file armed
    simp only at armed
    split at armed
    next same =>
      rw [← same.1] at is_open absent
      rcases placed.batch key member with rfl | ⟨waiter, waker⟩
      · rw [placed.owned.event] at is_open
        cases is_open
      · rw [absent] at waker
        cases waker
    next => exact placed.disarmed key member file armed
  · intro unlocked
    have locked := placed.drains batch draining
    rw [show state.lock = none from unlocked] at locked
    cases locked

theorem rm_event (placed : Placed state) {fd : RawFd} {batch : List RawFd} {queue : List IOOps}
    (draining : state.select = .drain batch) (front : state.queue = .REMOVE fd :: queue) :
    Placed ({ state with queue := queue }.request (.REMOVE fd)) := by
  have owned := owned_step placed.owned placed.unready (.request draining front)
  have later : ∀ {op}, op ∈ queue → op ∈ state.queue := by
    intro op member
    rw [front]
    exact List.mem_cons_of_mem _ member
  have absent := placed.removed fd (by rw [front]; exact List.mem_cons_self ..)
  have order := placed.order
  rw [front] at order
  have closed : State.request { state with queue := queue } (.REMOVE fd) =
      { state with
        queue := queue, wakers := state.wakers.erase fd,
        interest := fun key of => if key = fd ∧ state.fds fd = some of then none else state.interest key of } :=
    rm_event_eq { state with queue := queue } fd
  rw [closed] at owned ⊢
  -- the request finds no waker of another task that has the descriptor by now
  have same : ∀ key : RawFd, (state.wakers.erase fd)[key]? = state.wakers[key]? := by
    intro key
    rw [HashMap.get_erase]
    split
    next at_fd => rw [← at_fd, absent]
    next => rfl
  have armed : ∀ key file, (if key = fd ∧ state.fds fd = some file then none else state.interest key file) = some true →
      state.interest key file = some true := by
    intro key file armed
    split at armed
    · cases armed
    · exact armed
  refine { placed with
    owned := owned, places := ?_, queued := fun key waiter member => placed.queued key waiter (later member),
    waking := ?_, order := (List.pairwise_cons.mp order).2, removed := ?_, armed := ?_, reported := ?_, batch := ?_,
    disarmed := fun key member file still => placed.disarmed key member file (armed key file still), counter := ?_ }
  · intro waiter found at_found
    have before := placed.places waiter found at_found
    simp only [State.places]
    rw [← before, State.places, front, List.countP_cons, same]
    rfl
  · intro key waiter waker
    exact placed.waking key waiter (by rw [← same key, waker])
  · intro key member
    rw [same key]
    exact placed.removed key (later member)
  · intro key file still
    obtain ⟨waiter, rfl, waker⟩ := placed.armed key file (armed key file still)
    exact ⟨waiter, rfl, by rw [same key, waker]⟩
  · intro key waiter waker
    rw [same key] at waker
    refine (placed.reported key waiter waker).imp_left fun before => ?_
    show (if _ then none else _) = _
    rw [if_neg, before]
    intro both
    rw [both.1, absent] at waker
    cases waker
  · intro key member
    refine (placed.batch key member).imp_right fun waits => ?_
    obtain ⟨waiter, waker⟩ := waits
    exact ⟨waiter, by rw [same key, waker]⟩
  · intro unlocked
    have locked := placed.drains batch draining
    rw [show state.lock = none from unlocked] at locked
    cases locked

private theorem first_at {task : Nat} {found : Task} (at_found : IoMultiplexing.initial.tasks[task]? = some found) :
    task = 0 ∧ found = ⟨listener, none, .spawned⟩ := by
  cases task with
  | zero => exact ⟨rfl, by simpa [IoMultiplexing.initial, eq_comm] using at_found⟩
  | succ task => simp [IoMultiplexing.initial] at at_found

theorem initial : Placed initial where
  owned := by
    refine ⟨rfl, ?_, ?_, ?_, ?_, ?_, ?_, ?_⟩
    · intro found member
      cases List.mem_singleton.mp member
      simp
    · intro task same
      cases same
    · intro task found at_found polling
      obtain ⟨rfl, rfl⟩ := first_at at_found
      cases polling
    · intro task effects same
      cases same
    · intro task effects same
      cases same
    · intro task effects result same
      cases same
    · intro task found at_found _ _
      obtain ⟨rfl, rfl⟩ := first_at at_found
      exact ⟨rfl, fun writer has => nomatch has⟩
  places := by
    intro task found at_found
    obtain ⟨rfl, rfl⟩ := first_at at_found
    rfl
  queued := fun fd task member => nomatch member
  waking := fun fd task waker => by simp [IoMultiplexing.initial] at waker
  channel := fun task member => by simp [IoMultiplexing.initial] at member ⊢; omega
  order := .nil
  removed := fun fd member => nomatch member
  armed := fun fd file armed => nomatch armed
  reported := fun fd task waker => by simp [IoMultiplexing.initial] at waker
  batch := fun fd member => nomatch member
  disarmed := fun fd member => nomatch member
  nodup := .nil
  counter := fun _ more => absurd rfl more
  drains := fun batch same => nomatch same
  writes := fun task effects result same => nomatch same
  alive := by simp [IoMultiplexing.initial]

theorem step (placed : Placed state) {event : Event} {next : State} (stepped : Step state event next) : Placed next := by
  cases stepped with
  | recv control head => exact placed.recv control head
  | accept control free also different => exact placed.accept control free also different
  | block control at_task => exact placed.block control at_task
  | finish control at_task connection => exact placed.finish control at_task connection
  | push control unlocked => exact placed.push control unlocked
  | write_eventfd control room => exact placed.write_eventfd control room
  | close control => exact placed.close control
  | returned control => exact placed.returned control
  | epoll_wait waiting distinct reported => exact placed.epoll_wait waiting distinct reported
  | wake handling socket waker => exact placed.wake handling socket waker
  | missing handling socket waker => exact absurd waker (placed.not_missing handling socket)
  | lock handling unlocked => exact placed.lock handling unlocked
  | @request op batch queue draining front =>
    cases op with
    | ADD fd task => exact placed.add_event draining front
    | REMOVE fd => exact placed.rm_event draining front
  | read_eventfd draining empty counted => exact placed.read_eventfd draining empty
  | again handled => exact placed.again handled

end Placed

theorem reaches_placed {trace : List Event} {state : State} (reaches : server.Reaches trace state) : Placed state :=
  reaches.invariant Placed Placed.initial fun _ _ _ placed stepped => placed.step (step_cases stepped)

/-- The task has its waker in the selector, under a descriptor that refers to
its socket and is armed, or whose event is still to be handled. -/
def State.Watched (state : State) (task : Nat) (fd : RawFd) : Prop :=
  state.fds fd = some (.socket task) ∧ (state.interest fd (.socket task) = some true ∨ fd ∈ state.select.batch)

/-- No run of the server panics, leaves requests behind, or loses a task that
waits; and no request removes what belongs to a task that has its descriptor next. -/
theorem waiting_task_placed {trace : List Event} {state : State} (reaches : server.Reaches trace state) :
    state.select ≠ .panicked ∧
    (state.queue ≠ [] → state.lock = none → state.counter ≠ 0) ∧
    (∀ (task : Nat) (found : Task), state.tasks[task]? = some found → found.status = .pending →
      state.places task found.fd = 1 ∧ (∀ fd : RawFd, .ADD fd task ∈ state.queue → fd = found.fd) ∧
      ∀ fd : RawFd, state.wakers[fd]? = some task → fd = found.fd ∧ state.Watched task fd) ∧
    ∀ (fd : RawFd) (next : State), step state (.request (.REMOVE fd)) = some next →
      (∀ key : RawFd, next.wakers[key]? = state.wakers[key]?) ∧
      ∀ key file, state.interest key file = some true → next.interest key file = some true := by
  have placed := reaches_placed reaches
  refine ⟨placed.alive, fun waits free => placed.counter free waits, ?_, ?_⟩
  · intro task found at_task pending
    refine ⟨?_, ?_, ?_⟩
    · rw [placed.places task found at_task, pending]
      rfl
    · exact fun fd member => placed.queued_fd at_task member
    · intro fd waker
      exact ⟨placed.waking_fd at_task waker, placed.waking_holds waker, placed.reported fd task waker⟩
  · intro fd next stepped
    cases step_cases stepped with
    | request draining front =>
      have absent := placed.removed fd (by rw [front]; exact List.mem_cons_self ..)
      rw [show State.request _ (.REMOVE fd) = _ from rm_event_eq _ fd]
      constructor
      · intro key
        show (state.wakers.erase fd)[key]? = _
        rw [HashMap.get_erase]
        split
        next same => rw [← same, absent]
        next => rfl
      · intro key file armed
        obtain ⟨task, _, waker⟩ := placed.armed key file armed
        show (if _ then none else _) = _
        rw [if_neg, armed]
        intro both
        rw [both.1, absent] at waker
        cases waker

/-- A connection closes descriptor 7, and the next one gets it while the
`REMOVE` of the first is still in the queue. -/
def reuse : List Event :=
  [.recv 0, .accept 6 7, .block, .effect, .effect, .returned,
    .epoll_wait [(event, .eventfd)], .lock, .request (.ADD listener 0), .read_eventfd, .again,
    .recv 1, .finish true, .effect, .effect, .effect, .effect, .returned,
    .epoll_wait [(listener, .socket 0), (event, .eventfd)], .wake listener,
    .recv 0, .accept 6 7, .block, .effect, .effect, .returned, .recv 2, .block, .effect, .effect, .returned,
    .lock, .request (.REMOVE 7), .request (.ADD listener 0), .request (.ADD 7 2), .read_eventfd, .again]

/-- The second connection waits under the descriptor it has taken over. -/
theorem waiting_task_placed_reuse :
    ∃ state, server.Reaches reuse state ∧ state.tasks[2]? = some ⟨7, some 6, .pending⟩ ∧ state.places 2 7 = 1 := by
  have runs : (server.runFrom server.init reuse).isSome = true := by decide +kernel
  obtain ⟨state, reaches⟩ := Option.isSome_iff_exists.mp runs
  have found : (server.runFrom server.init reuse).map (fun state => state.tasks[2]?) =
      some (some ⟨7, some 6, .pending⟩) := by decide +kernel
  rw [show server.runFrom server.init reuse = some state from reaches, Option.map_some, Option.some.injEq] at found
  exact ⟨state, reaches, found, ((waiting_task_placed reaches).2.2.1 2 _ found rfl).1⟩

end RustAsyncAwait.IoMultiplexing
