import RustAsyncAwait.HandleClient

/-! Clients and workers. The only panic that a client can bring about is that of
`stream.peer_addr().unwrap()` in the loop of a worker; without it every stream
reaches its worker, and every stream that a worker takes becomes a task. -/

namespace RustAsyncAwait.Server
open Library DataLayer

variable {order : ByteOrder}

/-- No operation of a task panics. -/
theorem client_no_panic {client : Client} {operation : Operation} (fits : operation.fits = true) :
    client.step order operation ≠ some .panics := by
  intro panics
  unfold Client.step at panics
  split at panics
  case h_3 buffer bytes =>
    simp only [Operation.fits, decide_eq_true_eq] at fits
    simp only [fits, if_true] at panics
    split at panics <;> cases panics
  case h_4 | h_6 | h_7 => split at panics <;> cases panics
  all_goals cases panics

/-- The stream that a step of a worker takes from its channel. -/
def WorkerEvent.taken : WorkerEvent → List Nat
  | .receive stream => [stream]
  | _ => []

def Event.taken (id : Fin 3) : Event → List Nat
  | .worker other event => if other = id then event.taken else []
  | _ => []

def ServingEvent.taken (id : Fin 3) : ServingEvent → List Nat
  | .server event => event.taken id
  | .client _ _ => []

/-- The streams for which worker `id` has spawned a task, in that order. -/
def taken (trace : List ServingEvent) (id : Fin 3) : List Nat := trace.flatMap (ServingEvent.taken id)

/-- The streams of the first `accepted` connections that are meant for worker `id`. -/
def dealt (accepted : Nat) (id : Fin 3) : List Nat := (List.range accepted).filter fun stream => stream % 3 = id.val

theorem dealt_succ (accepted : Nat) (id : Fin 3) :
    dealt (accepted + 1) id = dealt accepted id ++ if accepted % 3 = id.val then [accepted] else [] := by
  unfold dealt
  rw [List.range_succ, List.filter_append, List.filter_singleton]
  by_cases own : accepted % 3 = id.val <;> simp [own]

/-- A worker that has taken these streams has a task for each, and polls nothing
outside of `poll`. -/
structure Worker.Serves (worker : Worker) (taken : List Nat) : Prop where
  alive : worker.place ≠ .panicked
  spawned : worker.executor.spawned = taken.length
  resting : worker.place ≠ .poll → worker.executor.running = none

private theorem executor_polled {executor next : AsyncRuntime.State} {event : AsyncRuntime.Event} {place : Place}
    (moves : polled event = some place) (stepped : AsyncRuntime.step executor event = some next) :
    next.spawned = executor.spawned ∧ place ≠ .panicked ∧ (place ≠ .poll → next.running = none) := by
  cases event with
  | spawn | wake => cases moves
  | poll task =>
    simp only [AsyncRuntime.step] at stepped
    split at stepped
    · simp only [Option.ite_none_right_eq_some, Option.some.injEq] at stepped
      obtain ⟨_, rfl⟩ := stepped
      cases moves
      exact ⟨rfl, by simp, by simp⟩
    · cases stepped
  | pending task | ready task =>
    simp only [AsyncRuntime.step, Option.ite_none_right_eq_some, Option.some.injEq] at stepped
    obtain ⟨_, rfl⟩ := stepped
    cases moves
    exact ⟨rfl, by simp, by simp⟩
  | empty =>
    simp only [AsyncRuntime.step, Option.ite_none_right_eq_some, Option.some.injEq] at stepped
    obtain ⟨⟨idle, _⟩, rfl⟩ := stepped
    cases moves
    exact ⟨rfl, by simp, fun _ => idle⟩

/-- A step that is no panic takes at most the first stream of the channel. -/
theorem Worker.Serves.step {worker next : Worker} {streams : List Nat} {event : WorkerEvent} (serves : worker.Serves streams)
    (calm : event ≠ .panic) (stepped : worker.step event = some next) :
    next.Serves (streams ++ event.taken) ∧ event.taken ++ next.channel = worker.channel := by
  cases event with
  | receive stream =>
    simp only [Worker.step] at stepped
    split at stepped
    · rename_i first rest place channel
      simp only [Option.ite_none_right_eq_some, Option.map_eq_some_iff, AsyncRuntime.step] at stepped
      obtain ⟨rfl, executor, ⟨idle, same⟩, rfl⟩ := stepped
      cases same
      refine ⟨⟨by simp, ?_, by simp⟩, channel.symm⟩
      simp [WorkerEvent.taken, serves.spawned]
    · cases stepped
  | panic => exact absurd rfl calm
  | empty =>
    simp only [Worker.step, Option.ite_none_right_eq_some, Option.some.injEq] at stepped
    obtain ⟨⟨place, _⟩, rfl⟩ := stepped
    refine ⟨⟨?_, by simp [WorkerEvent.taken, serves.spawned], fun _ => serves.resting (by simp [place])⟩, rfl⟩
    show (if _ then Place.store else Place.poll) ≠ Place.panicked
    split <;> simp
  | store | unparked | spurious =>
    simp only [Worker.step, Option.ite_none_right_eq_some, Option.some.injEq] at stepped
    obtain ⟨place, rfl⟩ := stepped
    exact ⟨⟨by simp, by simp [WorkerEvent.taken, serves.spawned], fun _ => serves.resting (by simp [place])⟩, rfl⟩
  | park =>
    simp only [Worker.step, Option.ite_none_right_eq_some] at stepped
    obtain ⟨place, stepped⟩ := stepped
    split at stepped <;> cases stepped
    all_goals
      exact ⟨⟨by simp, by simp [WorkerEvent.taken, serves.spawned], fun _ => serves.resting (by simp [place])⟩, rfl⟩
  | poll event =>
    simp only [Worker.step, Option.ite_none_right_eq_some, Option.bind_eq_some_iff, Option.map_eq_some_iff] at stepped
    obtain ⟨_, place, moves, executor, stepped, rfl⟩ := stepped
    obtain ⟨same, alive, resting⟩ := executor_polled moves stepped
    exact ⟨⟨alive, by simp [WorkerEvent.taken, same, serves.spawned], resting⟩, rfl⟩

/-- The connections are dealt to the workers in turn, and what a worker has not
taken waits in its channel. -/
structure Dispatched (taken : Fin 3 → List Nat) (state : State) : Prop where
  serves : ∀ id, (state.workers id).Serves (taken id)
  delivered : ∀ id, taken id ++ (state.workers id).channel = dealt state.accepted id
  turn : (state.index.val + if state.acceptor = .accept then 0 else 1) % 3 = state.accepted % 3

private theorem turn_next (index : Fin 3) : (index + 1).val = (index.val + 1) % 3 := Fin.val_add index 1

/-- A step that leaves the channels and executors as they are. -/
private theorem Dispatched.attend {taken : Fin 3 → List Nat} {state next : State} (dispatched : Dispatched taken state)
    (workers : ∀ id, (next.workers id).channel = (state.workers id).channel ∧
      (next.workers id).executor = (state.workers id).executor ∧ (next.workers id).place = (state.workers id).place)
    (accepted : next.accepted = state.accepted)
    (turn : (next.index.val + if next.acceptor = .accept then 0 else 1) % 3 = next.accepted % 3) :
    Dispatched taken next := by
  refine ⟨fun id => ?_, fun id => ?_, turn⟩
  · obtain ⟨_, executor, place⟩ := workers id
    have serves := dispatched.serves id
    exact ⟨place ▸ serves.alive, executor ▸ serves.spawned, place ▸ executor ▸ serves.resting⟩
  · rw [(workers id).1, accepted]
    exact dispatched.delivered id

private theorem Dispatched.accept {taken : Fin 3 → List Nat} {state : State} (dispatched : Dispatched taken state)
    (accepting : state.acceptor = .accept) :
    Dispatched taken { state.update state.index ((state.workers state.index).send state.accepted) with
      acceptor := .load, accepted := state.accepted + 1 } := by
  have turn := dispatched.turn
  rw [if_pos accepting, Nat.add_zero, Nat.mod_eq_of_lt state.index.isLt] at turn
  have sent : (state.workers state.index).send state.accepted =
      { state.workers state.index with channel := (state.workers state.index).channel ++ [state.accepted] } :=
    if_neg (dispatched.serves state.index).alive
  rw [sent]
  refine ⟨fun id => ?_, fun id => ?_, ?_⟩
  · by_cases own : id = state.index
    · subst own
      have serves := dispatched.serves state.index
      simp only [State.update, Function.update_self]
      exact ⟨serves.alive, serves.spawned, serves.resting⟩
    · simpa [State.update, own] using dispatched.serves id
  · show taken id ++ _ = dealt (state.accepted + 1) id
    rw [dealt_succ, ← dispatched.delivered id, ← turn]
    by_cases own : id = state.index
    · simp [State.update, own]
    · have other : state.index.val ≠ id.val := fun same => own (Fin.ext same.symm)
      simp [State.update, own, other]
  · simp [State.update, turn, Nat.add_mod]

theorem Dispatched.step {taken : Fin 3 → List Nat} {state next : State} {event : Event} (dispatched : Dispatched taken state)
    (calm : ∀ id, event ≠ .worker id .panic) (stepped : Server.step state event = some next) :
    Dispatched (fun id => taken id ++ event.taken id) next := by
  have turn := dispatched.turn
  cases event with
  | accept =>
    simp only [Server.step, Option.ite_none_right_eq_some, Option.some.injEq] at stepped
    obtain ⟨accepting, rfl⟩ := stepped
    simpa only [Event.taken, List.append_nil] using dispatched.accept accepting
  | refuse =>
    simp only [Server.step, Option.ite_none_right_eq_some, Option.some.injEq] at stepped
    obtain ⟨_, rfl⟩ := stepped
    simpa only [Event.taken, List.append_nil] using dispatched
  | load =>
    simp only [Event.taken, List.append_nil]
    simp only [Server.step, Option.ite_none_right_eq_some] at stepped
    obtain ⟨loading, stepped⟩ := stepped
    simp only [loading, reduceCtorEq, if_false] at turn
    split at stepped <;> cases stepped
    · exact dispatched.attend (fun _ => ⟨rfl, rfl, rfl⟩) rfl (by simpa using turn)
    · exact dispatched.attend (fun _ => ⟨rfl, rfl, rfl⟩) rfl (by simpa [State.next, turn_next] using turn)
  | store | unpark =>
    simp only [Event.taken, List.append_nil]
    simp only [Server.step, Option.ite_none_right_eq_some, Option.some.injEq] at stepped
    obtain ⟨acceptor, rfl⟩ := stepped
    simp only [acceptor, reduceCtorEq, if_false] at turn
    apply dispatched.attend
    · intro id
      by_cases own : id = state.index
      · subst own
        simp [State.update, State.next]
      · simp [State.update, State.next, own]
    · rfl
    · simpa [State.next, State.update, turn_next] using turn
  | worker worker event =>
    obtain ⟨after, moved, rfl⟩ := Option.map_eq_some_iff.mp stepped
    obtain ⟨serves, queued⟩ := (dispatched.serves worker).step (fun panic => calm worker (by rw [panic])) moved
    refine ⟨fun id => ?_, fun id => ?_, turn⟩
    · by_cases own : id = worker
      · subst own
        simpa [State.update, Event.taken] using serves
      · simpa [State.update, Event.taken, own, Ne.symm own] using dispatched.serves id
    · by_cases own : id = worker
      · subst own
        have delivered := dispatched.delivered id
        rw [← queued] at delivered
        simpa [State.update, Event.taken] using delivered
      · simpa [State.update, Event.taken, own, Ne.symm own] using dispatched.delivered id

theorem dispatched_init : Dispatched (fun _ => []) ({} : State) :=
  ⟨fun _ => ⟨by simp, rfl, fun _ => rfl⟩, fun _ => rfl, rfl⟩

/-- A poll that returns takes no stream. -/
private theorem taken_returns {event : Event} (id : Fin 3) (returns : event.returns = true) : event.taken id = [] := by
  cases event with
  | worker other event =>
    cases event with
    | receive stream => cases returns
    | panic | empty | store | park | unparked | spurious | poll => exact ite_self _
  | accept | refuse | load | store | unpark => cases returns

private theorem Dispatched.poll_returns {taken : Fin 3 → List Nat} {state next : State} (event : Event)
    (dispatched : Dispatched taken state) (returns : event.returns = true) (stepped : Server.step state event = some next) :
    Dispatched taken next := by
  have calm : ∀ id, event ≠ .worker id .panic := by
    intro id panic
    rw [panic] at returns
    cases returns
  simpa only [taken_returns _ returns, List.append_nil] using dispatched.step calm stepped

/-- A step leaves the server as it is, or makes one of its steps: the one it
names, or the return of the poll whose task has made the operation. -/
theorem serving_cases {state next : Serving} {event : ServingEvent} (stepped : (serving order).step state event = some next) :
    (∃ move, event = .server move ∧ Server.step state.server move = some next.server) ∨
    ∃ id operation, event = .client id operation ∧ (next.server = state.server ∨
      ∃ move : Event, move.returns = true ∧ Server.step state.server move = some next.server) := by
  cases event with
  | server move =>
    simp only [serving, Serving.step, Option.ite_none_left_eq_some, Option.map_eq_some_iff] at stepped
    obtain ⟨_, server, stepped, rfl⟩ := stepped
    exact .inl ⟨move, rfl, stepped⟩
  | client id operation =>
    refine .inr ⟨id, operation, rfl, ?_⟩
    simp only [serving, Serving.step] at stepped
    split at stepped
    · rename_i task _ _
      simp only [Option.ite_none_right_eq_some] at stepped
      obtain ⟨fits, stepped⟩ := stepped
      split at stepped
      · cases stepped
        exact .inl rfl
      · obtain ⟨server, returned, same⟩ := Option.map_eq_some_iff.mp stepped
        cases same
        exact .inr ⟨.worker id (.poll (.pending task)), rfl, returned⟩
      · obtain ⟨server, returned, same⟩ := Option.map_eq_some_iff.mp stepped
        cases same
        exact .inr ⟨.worker id (.poll (.ready task)), rfl, returned⟩
      · rename_i panics
        exact absurd panics (client_no_panic fits)
      · cases stepped
    · cases stepped

/-- Whatever the operations of the clients return, only a panic in a worker's own loop matters. -/
theorem Dispatched.serving_step {taken : Fin 3 → List Nat} {state next : Serving} {event : ServingEvent}
    (dispatched : Dispatched taken state.server) (calm : ∀ id, event ≠ .server (.worker id .panic))
    (stepped : (serving order).step state event = some next) :
    Dispatched (fun id => taken id ++ event.taken id) next.server := by
  rcases serving_cases stepped with ⟨move, rfl, moved⟩ | ⟨id, operation, rfl, same | ⟨move, returns, returned⟩⟩
  · exact dispatched.step (fun id panic => calm id (by rw [panic])) moved
  · simpa only [ServingEvent.taken, List.append_nil, same] using dispatched
  · simpa only [ServingEvent.taken, List.append_nil] using dispatched.poll_returns move returns returned

/-- Every worker has outlived the clients of the run: none has ended, every send
has found its worker alive, and every stream of a worker waits in its channel
or has been taken and has its task. -/
structure Outlives (order : ByteOrder) (trace : List ServingEvent) (state : Serving) : Prop where
  alive : ∀ id, (state.server.workers id).place ≠ .panicked
  sent : ∀ before after, trace = before ++ .server .accept :: after →
    ∀ middle, (serving order).Reaches before middle → (middle.server.workers middle.server.index).place ≠ .panicked
  delivered : ∀ id, taken trace id ++ (state.server.workers id).channel = dealt state.server.accepted id
  spawned : ∀ id, (state.server.workers id).executor.spawned = (taken trace id).length
  takes : ∀ id stream rest, (state.server.workers id).place = .receive →
    (state.server.workers id).channel = stream :: rest →
    ∃ next, (serving order).step state (.server (.worker id (.receive stream))) = some next

/-- `peer_addr` has succeeded on every stream that a worker has taken. -/
def Addressed (trace : List ServingEvent) : Prop := ∀ id, .server (.worker id .panic) ∉ trace

theorem reaches_dispatched {trace : List ServingEvent} {state : Serving} (reaches : (serving order).Reaches trace state)
    (addressed : Addressed trace) : Dispatched (taken trace) state.server := by
  refine reaches.trace_invariant (fun trace state => Addressed trace → Dispatched (taken trace) state.server)
    ?_ ?_ addressed
  · exact fun _ => dispatched_init
  · intro trace state event next _ dispatched stepped addressed
    have earlier : Addressed trace := fun id member => addressed id (List.mem_append_left _ member)
    have calm : ∀ id, event ≠ .server (.worker id .panic) := by
      intro id panic
      exact addressed id (by simp [panic])
    have after := (dispatched earlier).serving_step calm stepped
    have longer : taken (trace ++ [event]) = fun id => taken trace id ++ event.taken id := by
      funext id
      simp only [taken, List.flatMap_append, List.flatMap_singleton]
    rw [longer]
    exact after

private theorem worker_panicked {worker : Worker} (panicked : worker.place = .panicked) (event : WorkerEvent) :
    worker.step event = none := by
  cases event <;> simp [Worker.step, panicked]

private theorem server_panicked {state next : State} {event : Event} {id : Fin 3}
    (panicked : (state.workers id).place = .panicked) (stepped : Server.step state event = some next) :
    (next.workers id).place = .panicked := by
  cases event with
  | accept =>
    simp only [Server.step, Option.ite_none_right_eq_some, Option.some.injEq] at stepped
    obtain ⟨_, rfl⟩ := stepped
    by_cases own : id = state.index
    · subst own
      simp [State.update, Worker.send, panicked]
    · simpa [State.update, own] using panicked
  | refuse =>
    simp only [Server.step, Option.ite_none_right_eq_some, Option.some.injEq] at stepped
    obtain ⟨_, rfl⟩ := stepped
    exact panicked
  | load =>
    simp only [Server.step, Option.ite_none_right_eq_some] at stepped
    obtain ⟨_, stepped⟩ := stepped
    split at stepped <;> cases stepped <;> exact panicked
  | store | unpark =>
    simp only [Server.step, Option.ite_none_right_eq_some, Option.some.injEq] at stepped
    obtain ⟨_, rfl⟩ := stepped
    by_cases own : id = state.index
    · subst own
      simpa [State.update, State.next] using panicked
    · simpa [State.update, State.next, own] using panicked
  | worker worker event =>
    obtain ⟨after, moved, rfl⟩ := Option.map_eq_some_iff.mp stepped
    have other : id ≠ worker := by
      intro same
      rw [same] at panicked
      rw [worker_panicked panicked] at moved
      cases moved
    simpa [State.update, other] using panicked

/-- A worker that has ended takes no step, and nothing brings it back. -/
theorem panicked_stays {state next : Serving} {event : ServingEvent} {id : Fin 3}
    (panicked : (state.server.workers id).place = .panicked) (stepped : (serving order).step state event = some next) :
    (next.server.workers id).place = .panicked := by
  rcases serving_cases stepped with ⟨move, rfl, moved⟩ | ⟨worker, operation, rfl, same | ⟨move, _, returned⟩⟩
  · exact server_panicked panicked moved
  · rw [same]
    exact panicked
  · exact server_panicked panicked returned

/-- After a panic in the loop of some worker that worker has ended for good. -/
theorem reaches_panicked {trace : List ServingEvent} {state : Serving} (reaches : (serving order).Reaches trace state)
    {id : Fin 3} (panicked : .server (.worker id .panic) ∈ trace) : (state.server.workers id).place = .panicked := by
  obtain ⟨before, after, rfl⟩ := List.append_of_mem panicked
  obtain ⟨middle, _, runs⟩ := reaches.split
  obtain ⟨next, stepped, runs⟩ := Option.bind_eq_some_iff.mp runs
  refine Machine.runFrom_invariant (fun state : Serving => (state.server.workers id).place = .panicked) ?_ ?_ runs
  · exact fun state event next _ panicked stepped => panicked_stays panicked stepped
  · simp only [serving, Serving.step, Option.ite_none_left_eq_some, Option.map_eq_some_iff] at stepped
    obtain ⟨_, server, stepped, rfl⟩ := stepped
    obtain ⟨worker, moved, rfl⟩ := Option.map_eq_some_iff.mp stepped
    simp only [Worker.step, Option.ite_none_right_eq_some, Option.some.injEq] at moved
    obtain ⟨_, rfl⟩ := moved
    simp [State.update]

/-- A worker that looks into its channel takes the first stream and spawns its task. -/
theorem Dispatched.takes {taken : Fin 3 → List Nat} {state : Serving} (dispatched : Dispatched taken state.server)
    {id : Fin 3} {stream : Nat} {rest : List Nat} (place : (state.server.workers id).place = .receive)
    (channel : (state.server.workers id).channel = stream :: rest) :
    ∃ next, (serving order).step state (.server (.worker id (.receive stream))) = some next := by
  have idle := (dispatched.serves id).resting (by simp [place])
  simp [serving, Serving.step, Event.returns, Server.step, Worker.step, place, channel, AsyncRuntime.step, idle]

/-- The workers outlive the clients of a run exactly when `peer_addr` has
succeeded on every stream taken in it. -/
theorem outlives_iff_addressed {trace : List ServingEvent} {state : Serving}
    (reaches : (serving order).Reaches trace state) : Outlives order trace state ↔ Addressed trace := by
  constructor
  · intro outlives id panicked
    exact outlives.alive id (reaches_panicked reaches panicked)
  · intro addressed
    have dispatched := reaches_dispatched reaches addressed
    refine ⟨fun id => (dispatched.serves id).alive, ?_, dispatched.delivered, fun id => (dispatched.serves id).spawned,
      fun id stream rest => dispatched.takes⟩
    intro before after split middle earlier
    have still : Addressed before := fun id member => addressed id (by rw [split]; exact List.mem_append_left _ member)
    exact ((reaches_dispatched earlier still).serves middle.server.index).alive

/-- The first client resets before its stream is taken from the channel. -/
theorem worker_ends :
    ¬ ∀ (trace : List ServingEvent) (state : Serving), (serving .little).Reaches trace state →
      Outlives .little trace state := by
  intro outlive
  have runs : ((serving .little).runFrom (serving .little).init [.server .accept, .server (.worker 0 .panic)]).isSome = true := by
    decide +kernel
  obtain ⟨state, reaches⟩ := Option.isSome_iff_exists.mp runs
  exact (outlive _ state reaches).alive 0 (reaches_panicked reaches (by simp))

end RustAsyncAwait.Server
