import RustAsyncAwait.Proofs.ServerTurns

/-! A worker that has a stream in its channel comes to look there: it does not stay
parked, and none of its polls goes on for ever. -/

namespace RustAsyncAwait.Server
open Library DataLayer

variable {order : ByteOrder} {schedule : Nat → ServingEvent} {state next : Serving} {event : ServingEvent} {id : Fin 3}
  {stream start later : Nat}

theorem timely_safe {trace : List ServingEvent} (reaches : (timely order).Reaches trace state) : Safe state.server := by
  refine reaches.invariant (fun state => Safe state.server) (reaches_safe .nil) ?_
  intro state event next safe stepped
  obtain ⟨timely, stepped⟩ := Machine.restrict_step.mp stepped
  rcases serving_cases stepped with ⟨move, rfl, moved⟩ | ⟨id, operation, rfl, same | ⟨move, returns, returned⟩⟩
  · exact safe.step timely.1 moved
  · rwa [same]
  · refine safe.step (fun loads => ?_) returned
    rw [loads] at returns
    cases returns

theorem timely_addressed {trace : List ServingEvent} (reaches : (timely order).Reaches trace state) : Addressed trace := by
  refine reaches.trace_invariant (fun trace _ => Addressed trace) (fun _ => List.not_mem_nil) ?_
  intro trace state event next _ addressed stepped id member
  rcases List.mem_append.mp member with earlier | last
  · exact addressed id earlier
  · obtain ⟨timely, _⟩ := Machine.restrict_step.mp stepped
    rw [← List.mem_singleton.mp last] at timely
    exact timely.2 id rfl

theorem safe_states (order : ByteOrder) (schedule : Nat → ServingEvent) (time : Nat) :
    Safe ((timely order).states schedule time).server := timely_safe (Machine.reaches_states _ _ _)

theorem dispatched_states (order : ByteOrder) (schedule : Nat → ServingEvent) (time : Nat) :
    Dispatched (taken ((timely order).happened schedule time)) ((timely order).states schedule time).server :=
  have reaches := Machine.reaches_states (timely order) schedule time
  reaches_dispatched reaches.unrestricted (timely_addressed reaches)

theorem turn_states (stepped : (timely order).step ((timely order).states schedule later) (schedule later) = some next)
    (id : Fin 3) : Turn order ((timely order).states schedule later) (schedule later) id next :=
  serving_turn (Machine.restrict_step.mp stepped).2 id

/-- The worker of the state at this time. -/
def worker_at (order : ByteOrder) (schedule : Nat → ServingEvent) (id : Fin 3) (time : Nat) : Worker :=
  ((timely order).states schedule time).server.workers id

theorem worker_next (stepped : (timely order).step ((timely order).states schedule later) (schedule later) = some next)
    (id : Fin 3) : worker_at order schedule id (later + 1) = next.server.workers id := by
  rw [worker_at, Machine.states, Machine.turn_some stepped]

theorem channel_nodup (order : ByteOrder) (schedule : Nat → ServingEvent) (id : Fin 3) (time : Nat) :
    (worker_at order schedule id time).channel.Nodup := by
  have unique : (dealt ((timely order).states schedule time).server.accepted id).Nodup := List.nodup_range.filter _
  rw [← (dispatched_states order schedule time).delivered id] at unique
  exact (List.nodup_append.mp unique).2.1

/-- A stream that stays in the channel comes nearer to the front whenever one is taken. -/
theorem Turn.nearer (turn : Turn order state event id next) (once : (state.server.workers id).channel.Nodup)
    (waits : stream ∈ (state.server.workers id).channel) (still : stream ∈ (next.server.workers id).channel) :
    (next.server.workers id).channel.idxOf stream ≤ (state.server.workers id).channel.idxOf stream ∧
      ((∃ other, event = .server (.worker id (.receive other))) →
        (next.server.workers id).channel.idxOf stream < (state.server.workers id).channel.idxOf stream) := by
  have same (channel : (next.server.workers id).channel = (state.server.workers id).channel)
      (other : ∀ first, event ≠ .server (.worker id (.receive first))) :
      (next.server.workers id).channel.idxOf stream ≤ (state.server.workers id).channel.idxOf stream ∧
        ((∃ other, event = .server (.worker id (.receive other))) →
          (next.server.workers id).channel.idxOf stream < (state.server.workers id).channel.idxOf stream) :=
    ⟨Nat.le_of_eq (by rw [channel]), fun receives => absurd receives.choose_spec (other _)⟩
  cases turn with
  | rests idle _ _ channel =>
    obtain ⟨more, channel⟩ := channel
    refine ⟨?_, fun receives => absurd receives.choose_spec (idle.1 _)⟩
    rw [channel, List.idxOf_append_of_mem waits]
  | acts acts _ moved =>
    generalize next.server.workers id = after at moved still same ⊢
    cases moved with
    | @receive first rest _ front =>
      rw [front] at once waits ⊢
      have other : first ≠ stream := by
        intro same
        rw [same] at once
        exact (List.nodup_cons.mp once).1 still
      rw [List.idxOf_cons_ne _ other]
      exact ⟨Nat.le_succ _, fun _ => Nat.lt_succ_self _⟩
    | panic => cases still
    | empty | store | park | parks | unparked | spurious | polls | finds_none | returns => exact same rfl (by simp [acts])
  | operates acts _ _ after =>
    subst after
    exact same rfl (by simp [acts])
  | returns acts _ _ channel => exact same channel (by simp [acts])

/-- A worker with streams in its channel takes none of them any more. -/
structure Waiting (order : ByteOrder) (schedule : Nat → ServingEvent) (id : Fin 3) (start : Nat) : Prop where
  filled : ∀ later, start ≤ later → (worker_at order schedule id later).channel ≠ []
  left : ∀ later next other, start ≤ later →
    (timely order).step ((timely order).states schedule later) (schedule later) = some next →
      schedule later ≠ .server (.worker id (.receive other))

theorem waiting_of_mem (always : ∀ later, start ≤ later → stream ∈ (worker_at order schedule id later).channel) :
    ∃ last, start ≤ last ∧ Waiting order schedule id last := by
  obtain ⟨last, after, none⟩ := @Machine.turns_end _ _ (timely order) schedule
    (fun state => (state.server.workers id).channel.idxOf stream)
    (fun _ event => ∃ other, event = .server (.worker id (.receive other))) start
    (fun later next after stepped => by
      have still := always (later + 1) (Nat.le_succ_of_le after)
      rw [worker_next stepped] at still
      exact (turn_states stepped id).nearer (channel_nodup order schedule id later) (always later after) still)
  refine ⟨last, after, fun later behind => List.ne_nil_of_mem (always later (Nat.le_trans after behind)), ?_⟩
  intro later next other behind stepped receives
  exact none later next behind stepped ⟨other, receives⟩

section Step
variable {worker after : Worker} {own : WorkerEvent}

theorem WorkerStep.receives (moved : WorkerStep worker own after) (place : worker.place = .receive)
    (filled : worker.channel ≠ []) :
    own = .panic ∨ ∃ first, own = .receive first := by
  cases moved with
  | receive => exact .inr ⟨_, rfl⟩
  | panic => exact .inl rfl
  | empty _ drained => exact absurd drained filled
  | store other | park other | parks other | unparked other | spurious other | polls other | finds_none other | returns other =>
    cases place.symm.trans other

/-- The steps that a worker takes at most on its way from its channel to a poll. -/
def Place.ahead : Place → Nat
  | .store => 3
  | .park => 2
  | .parked => 1
  | .receive | .poll | .panicked => 0

theorem WorkerStep.ahead_lt (moved : WorkerStep worker own after) (away : worker.place ≠ .receive) :
    after.place.ahead ≤ worker.place.ahead ∧ (worker.place ≠ .poll → after.place.ahead < worker.place.ahead) := by
  cases moved with
  | receive place | panic place | empty place => exact absurd place away
  | store place | park place | parks place | unparked place | spurious place => simp [place, Place.ahead]
  | polls place | finds_none place | returns place => simp [place, Place.ahead]

/-- In a poll that does not return yet, the worker takes a task. -/
theorem WorkerStep.polls_task (moved : WorkerStep worker own after) (place : worker.place = .poll)
    (there : after.place ≠ .receive) :
    worker.executor.running = none ∧ after.place = .poll ∧ after.executor.running ≠ none := by
  cases moved with
  | receive other | panic other | empty other | store other | park other | parks other | unparked other | spurious other =>
    cases place.symm.trans other
  | polls _ idle => exact ⟨idle, place, by simp⟩
  | finds_none | returns => exact absurd rfl there

end Step

theorem thread_worker (own : event.thread? = some (.worker id)) :
    (∃ moves, event = .server (.worker id moves)) ∨ ∃ operation, event = .client id operation := by
  unfold ServingEvent.thread? at own
  split at own <;> cases own
  next moves _ => exact .inl ⟨moves, rfl⟩
  next operation => exact .inr ⟨operation, rfl⟩

namespace Waiting

theorem resting (order : ByteOrder) (schedule : Nat → ServingEvent) (place : (worker_at order schedule id later).place ≠ .poll) :
    (worker_at order schedule id later).executor.running = none :=
  ((dispatched_states order schedule later).serves id).resting place

/-- At the place where a worker looks into its channel it would take a stream. -/
theorem receive_stays (waiting : Waiting order schedule id start) (after : start ≤ later)
    (place : (worker_at order schedule id later).place = .receive)
    (stepped : (timely order).step ((timely order).states schedule later) (schedule later) = some next) :
    (next.server.workers id).place = .receive ∧ (schedule later).thread? ≠ some (.worker id) := by
  have idle := resting order schedule (by rw [place]; simp)
  cases turn_states stepped id with
  | rests rests same =>
    refine ⟨same.trans place, fun own => ?_⟩
    rcases thread_worker own with ⟨moves, acts⟩ | ⟨operation, operates⟩
    · exact rests.1 _ acts
    · exact rests.2 _ operates
  | acts acts _ moved =>
    rcases moved.receives place (waiting.filled later after) with rfl | ⟨first, rfl⟩
    · rw [acts] at stepped
      exact absurd rfl ((Machine.restrict_step.mp stepped).1.2 id)
    · exact absurd acts (waiting.left later next first after stepped)
  | operates _ running | returns _ running => cases idle.symm.trans running

theorem able_to_receive (place : (worker_at order schedule id later).place = .receive)
    (filled : (worker_at order schedule id later).channel ≠ []) :
    ((timely order).states schedule later).able order (.worker id) := by
  obtain ⟨first, rest, front⟩ := List.exists_cons_of_ne_nil filled
  obtain ⟨next, stepped⟩ := (dispatched_states order schedule later).takes place front
  exact ⟨.server (.worker id (.receive first)), next, rfl, stepped⟩

theorem away (waiting : Waiting order schedule id start) (fair : Fair order schedule) (after : start ≤ later) :
    (worker_at order schedule id later).place ≠ .receive := by
  intro place
  have stays (last : Nat) (behind : later ≤ last) : (worker_at order schedule id last).place = .receive := by
    apply Machine.states_stay (fun state : Serving => (state.server.workers id).place = .receive) _ place behind
    intro last next behind stepped here
    exact (waiting.receive_stays (Nat.le_trans after behind) here stepped).1
  obtain ⟨last, behind, own, next, stepped⟩ := fair (.worker id) later fun middle behind =>
    ⟨middle, Nat.le_refl middle, able_to_receive (stays middle behind) (waiting.filled middle (Nat.le_trans after behind))⟩
  exact (waiting.receive_stays (Nat.le_trans after behind) (stays last behind) stepped).2 own

theorem away_next (waiting : Waiting order schedule id start) (fair : Fair order schedule) (after : start ≤ later)
    (stepped : (timely order).step ((timely order).states schedule later) (schedule later) = some next) :
    (next.server.workers id).place ≠ .receive :=
  worker_next stepped id ▸ waiting.away fair (Nat.le_succ_of_le after)

/-- It comes to one place and stays there. -/
theorem comes_to_rest (waiting : Waiting order schedule id start) (fair : Fair order schedule) :
    ∃ last, start ≤ last ∧ ∀ later next, last ≤ later →
      (timely order).step ((timely order).states schedule later) (schedule later) = some next →
        (next.server.workers id).place = (worker_at order schedule id later).place ∧
          ((worker_at order schedule id later).place ≠ .poll → (schedule later).thread? ≠ some (.worker id)) := by
  obtain ⟨last, after, none⟩ := @Machine.turns_end _ _ (timely order) schedule
    (fun state => (state.server.workers id).place.ahead)
    (fun state event => (state.server.workers id).place ≠ .poll ∧ ∃ own, event = .server (.worker id own)) start
    (fun later next after stepped => by
      have there := waiting.away_next fair after stepped
      cases turn_states stepped id with
      | rests idle place => exact ⟨Nat.le_of_eq (by rw [place]), fun turn => absurd turn.2.choose_spec (idle.1 _)⟩
      | acts _ _ moved =>
        obtain ⟨below, falls⟩ := moved.ahead_lt (waiting.away fair after)
        exact ⟨below, fun turn => falls turn.1⟩
      | operates acts _ _ set =>
        subst set
        exact ⟨Nat.le_refl _, fun turn => by simp [acts] at turn⟩
      | returns _ _ place => exact absurd place there)
  refine ⟨last, after, fun later next behind stepped => ?_⟩
  have there := waiting.away_next fair (Nat.le_trans after behind) stepped
  cases turn_states stepped id with
  | rests idle place =>
    refine ⟨place, fun _ own => ?_⟩
    rcases thread_worker own with ⟨moves, acts⟩ | ⟨operation, operates⟩
    · exact idle.1 _ acts
    · exact idle.2 _ operates
  | acts acts _ moved =>
    by_cases place : (worker_at order schedule id later).place = .poll
    · exact ⟨(moved.polls_task place there).2.1.trans place.symm, fun other => absurd place other⟩
    · exact absurd ⟨place, _, acts⟩ (none later next behind stepped)
  | operates _ running _ set =>
    refine ⟨by rw [set]; rfl, fun place => ?_⟩
    cases (resting order schedule place).symm.trans running
  | returns _ _ place => exact absurd place there

end Waiting

/-- A waiting worker that stays at one place, and acts only in a poll. -/
structure Settled (order : ByteOrder) (schedule : Nat → ServingEvent) (id : Fin 3) (place : Place) (start : Nat) : Prop where
  waiting : Waiting order schedule id start
  stays : ∀ later, start ≤ later → (worker_at order schedule id later).place = place
  rests : place ≠ .poll → ∀ later next, start ≤ later →
    (timely order).step ((timely order).states schedule later) (schedule later) = some next →
      (schedule later).thread? ≠ some (.worker id)

theorem Waiting.on (waiting : Waiting order schedule id start) (after : start ≤ later) : Waiting order schedule id later :=
  ⟨fun time behind => waiting.filled time (Nat.le_trans after behind),
    fun time next other behind => waiting.left time next other (Nat.le_trans after behind)⟩

theorem Waiting.settled (waiting : Waiting order schedule id start) (fair : Fair order schedule) :
    ∃ last place, start ≤ last ∧ Settled order schedule id place last := by
  obtain ⟨last, after, still⟩ := waiting.comes_to_rest fair
  have stays (later : Nat) (behind : last ≤ later) :
      (worker_at order schedule id later).place = (worker_at order schedule id last).place := by
    apply Machine.states_stay (fun state : Serving => (state.server.workers id).place = (worker_at order schedule id last).place)
      _ rfl behind
    intro later next behind stepped here
    exact (still later next behind stepped).1.trans here
  refine ⟨last, _, after, waiting.on after, stays, fun elsewhere later next behind stepped => ?_⟩
  exact (still later next behind stepped).2 (by rwa [stays later behind])

namespace Settled
variable {place : Place}

/-- Outside of a poll it cannot go on. -/
theorem stuck (settled : Settled order schedule id place start) (fair : Fair order schedule) (elsewhere : place ≠ .poll) :
    ∃ last, start ≤ last ∧ ∀ later, last ≤ later → ¬ ((timely order).states schedule later).able order (.worker id) := by
  by_contra again
  simp only [not_exists, not_and] at again
  obtain ⟨later, after, own, next, stepped⟩ := fair (.worker id) start fun middle behind => by
    simpa using again middle behind
  exact settled.rests elsewhere later next after stepped own

end Settled

theorem able_server (own : WorkerEvent) (own_step : own ≠ .spurious) (inside : Event.returns (.worker id own) = false)
    (moves : ((state.server.workers id).step own).isSome = true) : state.able order (.worker id) := by
  obtain ⟨after, moved⟩ := Option.isSome_iff_exists.mp moves
  refine ⟨.server (.worker id own), { state with server := state.server.update id after }, ?_, ?_⟩
  · cases own with
    | spurious => exact absurd rfl own_step
    | _ => rfl
  · simp [serving, Serving.step, inside, Server.step, moved]

/-- The steps that the acceptor takes for the connection it has sent. -/
def Acceptor.ahead : Acceptor → Nat
  | .accept => 0
  | .load => 3
  | .store => 2
  | .unpark => 1

theorem acceptor_falls (stepped : (serving order).step state event = some next) (busy : state.server.acceptor ≠ .accept) :
    next.server.acceptor.ahead ≤ state.server.acceptor.ahead ∧
      (event.thread? = some .acceptor → next.server.acceptor.ahead < state.server.acceptor.ahead) := by
  have worker {own : WorkerEvent} {id : Fin 3} (moved : Server.step state.server (.worker id own) = some next.server) :
      next.server.acceptor = state.server.acceptor := by
    obtain ⟨after, _, same⟩ := Option.map_eq_some_iff.mp moved
    rw [← same]
    rfl
  rcases serving_cases stepped with ⟨move, rfl, moved⟩ | ⟨id, operation, rfl, same | ⟨move, returns, returned⟩⟩
  · cases move with
    | accept | refuse =>
      simp only [Server.step, Option.ite_none_right_eq_some] at moved
      exact absurd moved.1 busy
    | load =>
      simp only [Server.step, Option.ite_none_right_eq_some] at moved
      obtain ⟨place, moved⟩ := moved
      rw [place]
      split at moved <;> rw [← Option.some.inj moved] <;> simp [State.next, Acceptor.ahead]
    | store | unpark =>
      simp only [Server.step, Option.ite_none_right_eq_some, Option.some.injEq] at moved
      obtain ⟨place, moved⟩ := moved
      rw [place, ← moved]
      simp [State.next, Acceptor.ahead]
    | worker id own =>
      refine ⟨Nat.le_of_eq (by rw [worker moved]), fun acts => ?_⟩
      cases own <;> cases acts
  · exact ⟨Nat.le_of_eq (by rw [same]), fun acts => by cases acts⟩
  · cases move with
    | worker id own => exact ⟨Nat.le_of_eq (by rw [worker returned]), fun acts => by cases acts⟩
    | accept | refuse | load | store | unpark => cases returns

theorem able_acceptor (busy : state.server.acceptor ≠ .accept) : state.able order .acceptor := by
  have goes (move : Event) (inside : move.returns = false) (own : ServingEvent.thread? (.server move) = some .acceptor)
      (moves : (Server.step state.server move).isSome = true) : state.able order .acceptor := by
    obtain ⟨server, moved⟩ := Option.isSome_iff_exists.mp moves
    exact ⟨.server move, { state with server }, own, by simp [serving, Serving.step, inside, moved]⟩
  cases place : state.server.acceptor with
  | accept => exact absurd place busy
  | load =>
    apply goes .load rfl rfl
    simp only [Server.step, place, if_true]
    split <;> rfl
  | store => exact goes .store rfl rfl (by simp [Server.step, place])
  | unpark => exact goes .unpark rfl rfl (by simp [Server.step, place])

/-- A worker that is parked on a stream gets its token. -/
theorem Settled.unparked (settled : Settled order schedule id .parked start) (fair : Fair order schedule) : False := by
  obtain ⟨last, after, unable⟩ := settled.stuck fair (by simp)
  have busy (later : Nat) (behind : last ≤ later) : ((timely order).states schedule later).server.acceptor ≠ .accept := by
    have parked := settled.stays later (Nat.le_trans after behind)
    have token : (worker_at order schedule id later).token = false := by
      by_contra token
      apply unable later behind
      refine able_server .unparked (by simp) rfl ?_
      rw [worker_at] at parked token
      simp [Worker.step, parked, token]
    have watched := (safe_states order schedule later id).watched (by rw [← worker_at, parked]; rfl) token
      (settled.waiting.filled later (Nat.le_trans after behind))
    unfold State.checking at watched
    split at watched
    · exact watched
    · exact absurd rfl watched
  obtain ⟨final, behind, idle⟩ := (fair .acceptor).stops (fun state => state.server.acceptor.ahead)
    fun later next (behind : last ≤ later) stepped => acceptor_falls (Machine.restrict_step.mp stepped).2 (busy later behind)
  exact idle final (Nat.le_refl final) (able_acceptor (busy final behind))

/-- The way from `set_nonblocking` to `write_all`, with the read loop as one place. -/
def Client.ahead : Client → Nat
  | .set_nonblocking => 3
  | .read _ | .sleep _ => 2
  | .wait _ => 1
  | .write_all => 0

theorem Client.step_ahead {client after : Client} {operation : Operation}
    (stepped : client.step order operation = some (.continues after)) :
    after.ahead ≤ client.ahead ∧ (operation.busy = false → after.ahead < client.ahead) := by
  unfold Client.step at stepped
  split at stepped
  case h_3 buffer bytes =>
    -- only the end of the stream leaves the loop
    simp only [List.length_eq_zero_iff] at stepped
    split at stepped
    · cases stepped
      exact ⟨Nat.le_succ 1, fun _ => Nat.lt_succ_self 1⟩
    next some_ =>
      split at stepped <;> cases stepped
      exact ⟨Nat.le_refl _, fun idle => absurd idle (by simpa [Operation.busy] using some_)⟩
  case h_4 => split at stepped <;> cases stepped <;> exact ⟨by simp [Client.ahead], fun idle => nomatch idle⟩
  case h_6 | h_7 =>
    split at stepped <;> cases stepped
    next passed => exact ⟨by simp [Client.ahead], fun idle => by simp [passed, Operation.busy] at idle⟩
  all_goals cases stepped
  · exact ⟨by simp [Client.ahead], fun _ => by simp [Client.ahead]⟩
  · exact ⟨Nat.le_refl _, fun idle => nomatch idle⟩

theorem able_client {task : Nat} (place : (state.server.workers id).place = .poll)
    (running : (state.server.workers id).executor.running = some task) : state.able order (.worker id) := by
  have goes (operation : Operation) (fits : operation.fits = true) {client : Client}
      (polled : (state.clients id task).step order operation = some (.continues client)) : state.able order (.worker id) :=
    ⟨.client id operation, state.set id task client, rfl, by simp [serving, Serving.step, place, running, fits, polled]⟩
  cases client : state.clients id task with
  | set_nonblocking => exact goes (.set_nonblocking (.ok ())) rfl (by rw [client]; rfl)
  | read buffer => exact goes (.read .failed) rfl (by rw [client]; rfl)
  | sleep buffer => exact goes (.sleep true) rfl (by rw [client]; rfl)
  | wait message => exact goes (.sleep true) rfl (by rw [client]; rfl)
  | write_all =>
    obtain ⟨server, returned⟩ : ∃ server, Server.step state.server (.worker id (.poll (.ready task))) = some server :=
      ⟨_, by simp [Server.step, Worker.step, place, polled, AsyncRuntime.step, running]; rfl⟩
    exact ⟨.client id (.write_all []), { state with server }, rfl,
      by simp [serving, Serving.step, place, running, Operation.fits, client, Client.step, returned]⟩

namespace Settled

theorem there (settled : Settled order schedule id .poll start) (after : start ≤ later)
    (stepped : (timely order).step ((timely order).states schedule later) (schedule later) = some next) :
    (next.server.workers id).place ≠ .receive := by
  rw [← worker_next stepped, settled.stays (later + 1) (Nat.le_succ_of_le after)]
  simp

/-- It begins with at most one more task. -/
theorem begins_last (settled : Settled order schedule id .poll start) :
    ∃ last, start ≤ last ∧ ∀ later next, last ≤ later →
      (timely order).step ((timely order).states schedule later) (schedule later) = some next →
        ∀ own, schedule later ≠ .server (.worker id own) := by
  obtain ⟨last, after, none⟩ := @Machine.turns_end _ _ (timely order) schedule
    (fun state => if (state.server.workers id).executor.running = none then 1 else 0)
    (fun _ event => ∃ own, event = .server (.worker id own)) start
    (fun later next after stepped => by
      have there := settled.there after stepped
      cases turn_states stepped id with
      | rests idle _ executor => exact ⟨Nat.le_of_eq (by rw [executor]), fun acts => absurd acts.choose_spec (idle.1 _)⟩
      | acts _ _ moved =>
        obtain ⟨idle, _, begun⟩ := moved.polls_task (settled.stays later after) there
        simp [idle, begun]
      | operates acts _ _ set =>
        subst set
        exact ⟨Nat.le_refl _, fun own => by simp [acts] at own⟩
      | returns _ _ place => exact absurd place there)
  exact ⟨last, after, fun later next behind stepped own acts => none later next behind stepped ⟨own, acts⟩⟩

/-- In the end it is with one task for ever. -/
theorem polls_one (settled : Settled order schedule id .poll start) (fair : Fair order schedule)
    (begun : ∀ later next, start ≤ later →
      (timely order).step ((timely order).states schedule later) (schedule later) = some next →
        ∀ own, schedule later ≠ .server (.worker id own)) :
    ∃ task, ∀ later, start ≤ later → (worker_at order schedule id later).executor.running = some task := by
  have keeps (later : Nat) (after : start ≤ later) :
      (worker_at order schedule id later).executor.running = (worker_at order schedule id start).executor.running := by
    apply Machine.states_stay (fun state : Serving => (state.server.workers id).executor.running =
      (worker_at order schedule id start).executor.running) _ rfl after
    intro later next after stepped so_far
    cases turn_states stepped id with
    | rests _ _ executor => exact (congrArg _ executor).trans so_far
    | acts acts => exact absurd acts (begun later next after stepped _)
    | operates _ _ _ set => exact .trans (by rw [set]; rfl) so_far
    | returns _ _ place => exact absurd place (settled.there after stepped)
  cases running : (worker_at order schedule id start).executor.running with
  | some task => exact ⟨task, fun later after => (keeps later after).trans running⟩
  | none =>
    have able (later : Nat) (after : start ≤ later) : ((timely order).states schedule later).able order (.worker id) := by
      have place := settled.stays later after
      have idle := (keeps later after).trans running
      rw [worker_at] at place idle
      cases front : (((timely order).states schedule later).server.workers id).executor.polling with
      | nil =>
        refine able_server (.poll .empty) (by simp) rfl ?_
        simp [Worker.step, place, polled, AsyncRuntime.step, idle, front]
      | cons task rest =>
        refine able_server (.poll (.poll task)) (by simp) rfl ?_
        simp [Worker.step, place, polled, AsyncRuntime.step, idle, front]
    obtain ⟨later, after, own, next, stepped⟩ := fair (.worker id) start fun middle after =>
      ⟨middle, Nat.le_refl middle, able middle after⟩
    rcases thread_worker own with ⟨moves, acts⟩ | ⟨operation, acts⟩
    · exact absurd acts (begun later next after stepped moves)
    · cases turn_states stepped id with
      | rests idle => exact absurd acts (idle.2 operation)
      | acts acts => exact absurd acts (begun later next after stepped _)
      | operates _ busy | returns _ busy => cases ((keeps later after).trans running).symm.trans busy

theorem on {place : Place} (settled : Settled order schedule id place start) (after : start ≤ later) :
    Settled order schedule id place later :=
  ⟨settled.waiting.on after, fun time behind => settled.stays time (Nat.le_trans after behind),
    fun elsewhere time next behind => settled.rests elsewhere time next (Nat.le_trans after behind)⟩

/-- That task makes its way to the end, unless its read loop goes on for ever. -/
theorem polled (settled : Settled order schedule id .poll start) (fair : Fair order schedule) (pauses : Pauses order schedule) :
    False := by
  obtain ⟨last, after, begun⟩ := settled.begins_last
  have settled := settled.on after
  obtain ⟨task, running⟩ := settled.polls_one fair begun
  obtain ⟨final, behind, busy⟩ := @Machine.turns_end _ _ (timely order) schedule
    (fun state => (state.clients id task).ahead)
    (fun _ event => ∃ operation, event = .client id operation ∧ operation.busy = false) last
    (fun later next after stepped => by
      have there := settled.there after stepped
      have running := running later after
      cases turn_states stepped id with
      | rests idle _ _ _ _ clients =>
        exact ⟨Nat.le_of_eq (by rw [clients]), fun acts => absurd acts.choose_spec.1 (idle.2 _)⟩
      | acts acts => exact absurd acts (begun later next after stepped _)
      | operates acts busy moved set =>
        cases busy.symm.trans running
        obtain ⟨below, falls⟩ := Client.step_ahead moved
        subst set
        simp only [Serving.set, Function.update_self]
        refine ⟨below, fun idle => ?_⟩
        obtain ⟨operation, same, idle⟩ := idle
        cases acts.symm.trans same
        exact falls idle
      | returns _ _ place => exact absurd place there)
  obtain ⟨later, operation, beyond, operates, idle⟩ := pauses id final fun middle beyond => by
    obtain ⟨later, past, own, next, stepped⟩ := fair (.worker id) middle fun other past =>
      have reached : last ≤ other := Nat.le_trans behind (Nat.le_trans beyond past)
      ⟨other, Nat.le_refl other, able_client (settled.stays other reached) (running other reached)⟩
    have reached : last ≤ later := Nat.le_trans behind (Nat.le_trans beyond past)
    rcases thread_worker own with ⟨moves, acts⟩ | ⟨operation, operates⟩
    · exact absurd acts (begun later next reached stepped moves)
    · exact ⟨later, operation, past, operates, next, stepped⟩
  obtain ⟨happens, next, stepped⟩ := operates
  exact busy later next beyond stepped ⟨operation, happens, idle⟩

end Settled

/-- A worker does not leave a stream in its channel for ever. -/
theorem Waiting.false (waiting : Waiting order schedule id start) (fair : Fair order schedule) (pauses : Pauses order schedule) :
    False := by
  obtain ⟨last, place, after, settled⟩ := waiting.settled fair
  have here := settled.stays last (Nat.le_refl last)
  cases place with
  | receive => exact waiting.away fair after here
  | panicked => exact ((dispatched_states order schedule last).serves id).alive here
  | store =>
    obtain ⟨final, behind, unable⟩ := settled.stuck fair (by simp)
    have here := settled.stays final behind
    rw [worker_at] at here
    exact unable final (Nat.le_refl final) (able_server .store (by simp) rfl (by simp [Worker.step, here]))
  | park =>
    obtain ⟨final, behind, unable⟩ := settled.stuck fair (by simp)
    have here := settled.stays final behind
    rw [worker_at] at here
    refine unable final (Nat.le_refl final) (able_server .park (by simp) rfl ?_)
    simp only [Worker.step, here, if_true]
    split <;> rfl
  | parked => exact settled.unparked fair
  | poll => exact settled.polled fair pauses

end RustAsyncAwait.Server
