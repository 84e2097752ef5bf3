import RustAsyncAwait.Proofs.IoTurns

/-! Every task of the server that waits is polled again, if its socket has
something to tell whenever it is armed. -/

namespace RustAsyncAwait.IoMultiplexing
open Library State

variable {schedule : Nat → Event} {state next : State} {task : Nat}

/-- What `epoll_wait` has reported is handled. -/
theorem batch_left (fair : Fair schedule) {start : Nat} {fd : RawFd} (member : fd ∈ (server.states schedule start).select.batch) :
    ∃ later, start ≤ later ∧ fd ∈ (server.states schedule later).select.batch ∧
      fd ∉ (server.states schedule (later + 1)).select.batch ∧
      Selects (server.states schedule later) (server.states schedule (later + 1)) := by
  by_contra never
  simp only [not_exists, not_and] at never
  have stays (later : Nat) (after : start ≤ later) : fd ∈ (server.states schedule later).select.batch := by
    induction after with
    | refl => exact member
    | @step later after ih =>
      by_contra left
      apply never later after ih left
      rw [Machine.states] at left ⊢
      rcases Machine.turn_cases server (server.states schedule later) (schedule later) with same | stepped
      · rw [same] at left
        exact absurd ih left
      · refine ((locked_states schedule later).placed.turns (step_cases stepped)).resolve_left fun turn => left ?_
        generalize server.turn _ _ = next at turn ⊢
        cases turn <;> exact ih
  obtain ⟨later, after, waits⟩ := waits_again fair start trivial
  have inside := stays later after
  rw [waits] at inside
  cases inside

/-- A request is handled. -/
theorem added (fair : Fair schedule) (fd : RawFd) (task : Nat) :
    server.LeadsTo schedule (fun state => .ADD fd task ∈ state.queue) (fun state => state.wakers[fd]? = some task) := by
  refine .of_turns ?_ ?_
  · intro count next member stepped
    rcases (locked_states schedule count).placed.turns (step_cases stepped) with turn | turn
    · refine .inl ?_
      cases turn with
      | push => exact List.mem_append_left _ member
      | recv | accept | leave | write_eventfd | close | returned => exact member
    · cases turn with
      | reports | wakes | locks | again => exact .inl member
      | requests _ front added =>
        rw [front] at member
        rcases List.mem_cons.mp member with first | later
        · exact .inr (added fd task first.symm)
        · exact .inl later
      | reads _ empty =>
        rw [empty] at member
        cases member
  · intro start queued
    exfalso
    -- the eventfd is counted, and only read once the queue is empty
    obtain ⟨middle, after, control⟩ := recv_again fair start trivial
    have counted (later : Nat) (behind : middle ≤ later) : (server.states schedule later).counter ≠ 0 := by
      induction behind with
      | refl =>
        have locked := locked_states schedule middle
        cases held : (server.states schedule middle).lock with
        | none => exact locked.placed.counter held (List.ne_nil_of_mem (queued middle after))
        | some party =>
          cases party with
          | executor =>
            obtain ⟨_, _, _, writes⟩ := locked.executor held
            cases control.symm.trans writes
          | select =>
            obtain ⟨batch, drains⟩ := locked.select held
            exact (locked.draining batch drains).1
      | @step later behind ih =>
        have member := queued later (Nat.le_trans after behind)
        rw [Nat.succ_eq_add_one, Machine.states]
        rcases Machine.turn_cases server (server.states schedule later) (schedule later) with same | stepped
        · rw [same]
          exact ih
        · have turns := (locked_states schedule later).placed.turns (step_cases stepped)
          generalize server.turn _ _ = next at turns ⊢
          rcases turns with turn | turn
          · cases turn with
            | write_eventfd => exact Nat.succ_ne_zero _
            | recv | accept | leave | push | close | returned => exact ih
          · cases turn with
            | reads _ empty =>
              rw [empty] at member
              cases member
            | reports | wakes | locks | requests | again => exact ih
    have undrained (later : Nat) (behind : middle ≤ later) (batch : List RawFd) :
        (server.states schedule later).select ≠ .drain batch := by
      intro drains
      obtain ⟨last, further, _, zero⟩ := drained fair batch later drains
      exact counted last (Nat.le_trans behind further) zero
    obtain ⟨later, ready, next, behind, offers, reported, stepped⟩ := fair.eventfd middle
      (fun later behind => by simp [State.reported, counted later behind]) fun moment => waits_again fair moment trivial
    have member : event ∈ (server.states schedule (later + 1)).select.batch := by
      rw [Machine.states, offers, Machine.turn_some stepped]
      cases step_cases stepped with
      | epoll_wait => exact List.mem_map.mpr ⟨_, reported, rfl⟩
    obtain ⟨last, further, inside, left, turn⟩ := batch_left fair member
    have still := undrained (last + 1) (by omega)
    have before := undrained last (by omega)
    generalize server.states schedule (last + 1) = next at turn left still
    cases turn with
    | reports waiting =>
      rw [waiting] at inside
      cases inside
    | wakes handling socket =>
      rw [handling] at inside
      exact left ((List.mem_cons.mp inside).resolve_left (Ne.symm socket))
    | locks => exact still _ rfl
    | requests drains | reads drains => exact before _ drains
    | again handled =>
      rw [handled] at inside
      cases inside

/-- A waker whose socket is reported is woken. -/
theorem woken (fair : Fair schedule) (hears : ∀ fd, Reports schedule (fd, .socket task)) (fd : RawFd) :
    server.LeadsTo schedule (fun state => state.wakers[fd]? = some task) (fun state => task ∈ state.channel) := by
  refine .of_turns ?_ ?_
  · intro count next waker stepped
    rcases (locked_states schedule count).placed.turns (step_cases stepped) with turn | turn
    · refine .inl ?_
      cases turn <;> exact waker
    · cases turn with
      | reports | locks | reads | again => exact .inl waker
      | @wakes other woken _ _ _ found =>
        by_cases same : fd = other
        · subst same
          cases waker.symm.trans found
          exact .inr (List.mem_append_right _ (List.mem_singleton.mpr rfl))
        · exact .inl ((HashMap.get_erase_of_ne _ same).trans waker)
      | requests _ _ _ kept => exact .inl (kept fd task waker)
  · intro start waits
    exfalso
    obtain ⟨middle, after, member⟩ : ∃ middle, start ≤ middle ∧ fd ∈ (server.states schedule middle).select.batch := by
      by_contra never
      simp only [not_exists, not_and] at never
      have armed (later : Nat) (after : start ≤ later) :
          (server.states schedule later).interest fd (.socket task) = some true :=
        ((locked_states schedule later).placed.reported fd task (waits later after)).resolve_right (never later after)
      obtain ⟨later, ready, next, behind, offers, reported, stepped⟩ := hears fd start
        (fun later after => by simp [State.reported, armed later after]) fun moment => waits_again fair moment trivial
      apply never (later + 1) (Nat.le_succ_of_le behind)
      rw [Machine.states, offers, Machine.turn_some stepped]
      cases step_cases stepped with
      | epoll_wait => exact List.mem_map.mpr ⟨_, reported, rfl⟩
    obtain ⟨last, behind, inside, left, turn⟩ := batch_left fair member
    have waker := waits last (Nat.le_trans after behind)
    have still := waits (last + 1) (Nat.le_succ_of_le (Nat.le_trans after behind))
    have unused := (locked_states schedule last).placed.event_unused task
    generalize server.states schedule (last + 1) = next at turn left still
    cases turn with
    | reports waiting =>
      rw [waiting] at inside
      cases inside
    | wakes handling =>
      rw [handling] at inside
      rcases List.mem_cons.mp inside with same | later
      · subst same
        simp at still
      · exact left later
    | locks handling =>
      rw [handling] at inside
      rcases List.mem_cons.mp inside with same | later
      · exact unused (same ▸ waker)
      · exact left later
    | requests => exact left inside
    | reads drains =>
      rw [drains] at inside
      exact left inside
    | again handled =>
      rw [handled] at inside
      cases inside

/-- Every task that has been spawned or waits is polled, whatever the other tasks
and the selecting thread do, and whichever descriptors have been in use before. -/
theorem waiting_task_polled (fair : Fair schedule) (hears : ∀ fd, Reports schedule (fd, .socket task)) :
    server.LeadsTo schedule
      (fun state => ∃ found : Task, state.tasks[task]? = some found ∧ (found.status = .spawned ∨ found.status = .pending))
      (fun state => state.control = .poll task) := by
  have from_wakers (fd : RawFd) := (woken fair hears fd).trans (received fair task)
  intro start waits
  obtain ⟨found, at_task, status⟩ := waits
  have places := (locked_states schedule start).placed.places task found at_task
  have once : found.status.places (server.states schedule start).control.registered = 1 := by
    rcases status with status | status <;> rw [status] <;> rfl
  rw [once, State.places] at places
  by_cases queued : 0 < (server.states schedule start).queue.countP (·.adds task)
  · obtain ⟨op, member, adds⟩ := List.countP_pos_iff.mp queued
    cases op with
    | ADD fd other =>
      simp only [IOOps.adds, beq_iff_eq] at adds
      subst adds
      exact ((added fair fd other).trans (from_wakers fd)) start member
    | REMOVE fd => cases adds
  · by_cases waker : (server.states schedule start).wakers[found.fd]? = some task
    · exact from_wakers found.fd start waker
    · rw [if_neg waker] at places
      exact received fair task start (List.count_pos_iff.mp (by omega))

/-- The server has accepted one connection, and waits for the next one. -/
def accepted : List Event :=
  [.recv 0, .accept 6 7, .block, .effect, .effect, .returned,
    .epoll_wait [(event, .eventfd)], .lock, .request (.ADD listener 0), .read_eventfd, .again]

/-- The task of the connection is polled, waits and is woken. -/
def spoken_line : List Event :=
  [.recv 1, .block, .effect, .effect, .returned,
    .epoll_wait [(event, .eventfd)], .lock, .request (.ADD 7 1), .read_eventfd, .again,
    .epoll_wait [(7, .socket 1)], .wake 7, .again]

/-- One client that always has something to send. -/
def speaking (count : Nat) : Event := accepted.getD count (spoken_line.getD ((count - 11) % 13) .block)

/-- What the server is like whenever the task of that client has been woken. -/
structure Spoken (state : State) : Prop where
  control : state.control = .recv
  channel : state.channel = [1]
  queue : state.queue = []
  counter : state.counter = 0
  lock : state.lock = none
  select : state.select = .epoll_wait
  is_open : state.fds 7 = some (.socket 1)
  unwoken : state.wakers[7]? = none
  task : ∃ status, (status = .spawned ∨ status = .pending) ∧ state.tasks[1]? = some ⟨7, some 6, status⟩

theorem Spoken.once_more (spoken : Spoken state) : ∃ final, server.runFrom state spoken_line = some final ∧ Spoken final := by
  obtain ⟨control, channel, queue, counter, lock, select, is_open, unwoken, status, waits, task⟩ := spoken
  have unkept : 7 ∉ state.wakers := by simpa using unwoken
  have runs : ∃ interest, server.runFrom state spoken_line = some { state with
      interest, tasks := ((state.setStatus 1 .polling).setStatus 1 .pending).tasks
      wakers := (state.wakers.insert 7 1).erase 7 } := by
    simp [spoken_line, server, step, control, channel, queue, counter, lock, select, is_open, unkept, task,
      State.setStatus, State.perform, State.reported, State.request, State.add_event, State.register, counterMax, event]
  obtain ⟨interest, runs⟩ := runs
  refine ⟨_, runs, control, channel, queue, counter, lock, select, is_open, by simp, .pending, .inr rfl, ?_⟩
  simp [State.setStatus, task]

theorem accepted_runs : ∃ state, server.runFrom server.init accepted = some state ∧ Spoken state := by
  have runs : (server.runFrom server.init accepted).isSome = true := by decide +kernel
  obtain ⟨state, reaches⟩ := Option.isSome_iff_exists.mp runs
  have threads : (server.runFrom server.init accepted).map (fun state => (state.control, state.channel, state.select)) =
      some (.recv, [1], .epoll_wait) := by decide +kernel
  have requests : (server.runFrom server.init accepted).map (fun state => (state.queue, state.counter, state.lock)) =
      some ([], 0, none) := by decide +kernel
  have connection : (server.runFrom server.init accepted).map (fun state =>
      (state.fds 7, state.wakers[7]?, state.tasks[1]?)) =
      some (some (.socket 1), none, some ⟨7, some 6, .spawned⟩) := by decide +kernel
  rw [reaches, Option.map_some] at threads requests connection
  simp only [Option.some.injEq, Prod.mk.injEq] at threads requests connection
  obtain ⟨control, channel, select⟩ := threads
  obtain ⟨queue, counter, lock⟩ := requests
  obtain ⟨is_open, unwoken, task⟩ := connection
  exact ⟨state, reaches, control, channel, queue, counter, lock, select, is_open, unwoken, .spawned, .inl rfl, task⟩

theorem speaking_line (rounds : Nat) {index : Nat} {offered : Event} (found : spoken_line[index]? = some offered) :
    speaking (11 + 13 * rounds + index) = offered := by
  have inside : index < 13 := (List.getElem?_eq_some_iff.mp found).1
  have turn : (11 + 13 * rounds + index - 11) % 13 = index := by omega
  have behind : accepted[11 + 13 * rounds + index]? = none := by
    apply List.getElem?_eq_none
    show 11 ≤ _
    omega
  simp [speaking, List.getD_eq_getElem?_getD, behind, turn, found]

theorem spoken_rounds (rounds : Nat) : Spoken (server.states speaking (11 + 13 * rounds)) := by
  induction rounds with
  | zero =>
    obtain ⟨state, runs, spoken⟩ := accepted_runs
    have arrived := @Machine.states_run _ _ server speaking 0 accepted state runs (by
      intro index event found
      simp [speaking, found])
    exact arrived ▸ spoken
  | succ rounds ih =>
    obtain ⟨final, runs, spoken⟩ := ih.once_more
    have arrived := Machine.states_run runs fun index event found => speaking_line rounds found
    exact arrived ▸ spoken

/-- In every round all its events happen. -/
theorem speaking_steps (rounds : Nat) {index : Nat} {offered : Event} (found : spoken_line[index]? = some offered) :
    ∃ next, step (server.states speaking (11 + 13 * rounds + index)) offered = some next := by
  obtain ⟨final, runs, _⟩ := (spoken_rounds rounds).once_more
  have inside := (List.getElem?_eq_some_iff.mp found).1
  have parts : spoken_line = spoken_line.take index ++ offered :: spoken_line.drop (index + 1) := by
    rw [← (List.getElem?_eq_some_iff.mp found).2, List.getElem_cons_drop, List.take_append_drop]
  rw [parts] at runs
  obtain ⟨middle, before, rest⟩ := (Machine.runFrom_append_some server).mp runs
  have arrived := Machine.states_run before fun position event at_position => by
    rw [List.getElem?_take] at at_position
    split at at_position
    · exact speaking_line rounds at_position
    · cases at_position
  rw [List.length_take, Nat.min_eq_left (Nat.le_of_lt inside)] at arrived
  obtain ⟨next, stepped, _⟩ := Option.bind_eq_some_iff.mp rest
  exact ⟨next, arrived ▸ stepped⟩

theorem step_counter (locked : Locked state) {event : Event} (stepped : step state event = some next) :
    next.counter ≤ state.counter + 1 := by
  rcases locked.placed.turns (step_cases stepped) with turn | turn <;> cases turn <;> simp

theorem counter_within (schedule : Nat → Event) (start more : Nat) :
    (server.states schedule (start + more)).counter ≤ (server.states schedule start).counter + more := by
  induction more with
  | zero => exact Nat.le_refl _
  | succ more ih =>
    rw [← Nat.add_assoc, Machine.states]
    rcases Machine.turn_cases server (server.states schedule (start + more)) (schedule (start + more)) with same | stepped
    · rw [same]
      omega
    · have step := step_counter (locked_states schedule (start + more)) stepped
      omega

theorem fair_speaking : Fair speaking := by
  have later (start : Nat) : start ≤ 11 + 13 * start := by omega
  refine ⟨?_, ?_, ?_, ?_, ?_⟩
  · intro start event always
    have spoken := spoken_rounds start
    have chosen := (always _ (later start)).1
    simp only [State.executes, spoken.control, spoken.channel, Option.some.injEq] at chosen
    exact ⟨_, later start, chosen ▸ @speaking_line start 0 _ rfl⟩
  · intro start event always
    have chosen := (always _ (later start)).1
    simp [State.selects, (spoken_rounds start).select] at chosen
  · intro start task
    exact ⟨_, later start, by simp [(spoken_rounds start).control]⟩
  · intro start _ _
    obtain ⟨next, stepped⟩ := @speaking_steps start 5 _ rfl
    exact ⟨11 + 13 * start + 5, _, next, by omega, @speaking_line start 5 _ rfl, by simp, stepped⟩
  · intro count
    by_cases first : count < 11
    · have within := counter_within speaking 0 count
      have none : (server.states speaking 0).counter = 0 := rfl
      simp only [Nat.zero_add, none] at within
      simp only [counterMax]
      omega
    · have within := counter_within speaking (11 + 13 * ((count - 11) / 13)) ((count - 11) % 13)
      have split : 11 + 13 * ((count - 11) / 13) + (count - 11) % 13 = count := by omega
      rw [split, (spoken_rounds _).counter] at within
      simp only [counterMax]
      omega

theorem reports_speaking (fd : RawFd) : Reports speaking (fd, .socket 1) := by
  intro start always _
  have spoken := spoken_rounds start
  have placed := (locked_states speaking (11 + 13 * start)).placed
  have armed : (server.states speaking (11 + 13 * start)).interest fd (.socket 1) = some true := by
    simpa [State.reported] using always (11 + 13 * start) (by omega)
  obtain ⟨task, same, waker⟩ := placed.armed fd (.socket 1) armed
  cases same
  obtain ⟨status, _, found⟩ := spoken.task
  rw [placed.waking_fd found waker, spoken.unwoken] at waker
  cases waker

/-- After the first line its task is polled again. -/
theorem waiting_task_polled_speaking : ∃ later, 24 ≤ later ∧ (server.states speaking later).control = .poll 1 := by
  obtain ⟨status, waits, found⟩ := (spoken_rounds 1).task
  exact waiting_task_polled fair_speaking reports_speaking 24 ⟨_, found, waits⟩

end RustAsyncAwait.IoMultiplexing
