import RustAsyncAwait.Library.Fairness
import RustAsyncAwait.Proofs.ServerClients
import RustAsyncAwait.Proofs.ServerWakes

/-! The turns of the server's threads. The acceptor and every worker that is not
parked go on, and no poll of a task takes for ever. -/

namespace RustAsyncAwait.Server
open Library DataLayer

variable {order : ByteOrder} {schedule : Nat → ServingEvent} {state next : Serving} {event : ServingEvent} {id : Fin 3}

/-- `peer_addr` succeeds on every stream that is taken, and the acceptor reads no
flag too early. -/
def Timely (state : Serving) : ServingEvent → Prop
  | .server event => InTime state.server event ∧ ∀ id, event ≠ .worker id .panic
  | .client _ _ => True

instance (state : Serving) (event : ServingEvent) : Decidable (Timely state event) := by
  unfold Timely
  cases event <;> infer_instance

def timely (order : ByteOrder) : Machine Serving ServingEvent := (serving order).restrict Timely

inductive Thread
  | acceptor
  | worker (id : Fin 3)

/-- The thread that takes this step. The acceptor waits for a connection, and
`park` returns without a token, of themselves. -/
def ServingEvent.thread? : ServingEvent → Option Thread
  | .server .load | .server .store | .server .unpark => some .acceptor
  | .server .accept | .server .refuse | .server (.worker _ .spurious) => none
  | .server (.worker id _) | .client id _ => some (.worker id)

def Serving.able (order : ByteOrder) (state : Serving) (thread : Thread) : Prop :=
  ∃ event next, event.thread? = some thread ∧ (serving order).step state event = some next

/-- A thread that can go on again and again goes on again and again. -/
def Fair (order : ByteOrder) (schedule : Nat → ServingEvent) : Prop :=
  ∀ thread, (timely order).StronglyFair schedule (fun state => state.able order thread) (fun event => event.thread? = some thread)

/-- The operations in which the read loop can stay for ever: reads that bring data,
fail or find nothing, and sleeps that are over at once. -/
def Operation.busy : Operation → Bool
  | .read (.ok bytes) => !bytes.isEmpty
  | .read .wouldBlock | .read .failed | .sleep true => true
  | .set_nonblocking _ | .sleep false | .write_all _ => false

/-- At this time the task that worker `id` polls makes this operation. -/
def Operates (order : ByteOrder) (schedule : Nat → ServingEvent) (id : Fin 3) (time : Nat) (operation : Operation) : Prop :=
  schedule time = .client id operation ∧
    ∃ next, (timely order).step ((timely order).states schedule time) (schedule time) = some next

/-- No task stays in its read loop for ever without an end of its stream or a sleep that is not over. -/
def Pauses (order : ByteOrder) (schedule : Nat → ServingEvent) : Prop :=
  ∀ id start, (∀ middle, start ≤ middle → ∃ later operation, middle ≤ later ∧ Operates order schedule id later operation) →
    ∃ later operation, start ≤ later ∧ Operates order schedule id later operation ∧ operation.busy = false

theorem worker_acts {state next : State} {own : WorkerEvent} (stepped : Server.step state (.worker id own) = some next) :
    (state.workers id).step own = some (next.workers id) ∧ ∀ other, other ≠ id → next.workers other = state.workers other := by
  obtain ⟨worker, moved, rfl⟩ := Option.map_eq_some_iff.mp stepped
  refine ⟨by simpa [State.update] using moved, fun other different => ?_⟩
  simp [State.update, different]

/-- Who does not act keeps its place and its tasks. -/
theorem worker_rests {state next : State} {event : Event} (stepped : Server.step state event = some next)
    (idle : ∀ own, event ≠ .worker id own) :
    (next.workers id).place = (state.workers id).place ∧ (next.workers id).executor = (state.workers id).executor ∧
      (∃ more, (next.workers id).channel = (state.workers id).channel ++ more) ∧
      ((state.workers id).token = true → (next.workers id).token = true) := by
  have untouched (same : next.workers id = state.workers id) :
      (next.workers id).place = (state.workers id).place ∧ (next.workers id).executor = (state.workers id).executor ∧
        (∃ more, (next.workers id).channel = (state.workers id).channel ++ more) ∧
        ((state.workers id).token = true → (next.workers id).token = true) := by
    rw [same]
    exact ⟨rfl, rfl, ⟨[], by simp⟩, fun token => token⟩
  by_cases own : id = state.index
  · subst own
    cases event with
    | accept =>
      simp only [Server.step, Option.ite_none_right_eq_some, Option.some.injEq] at stepped
      obtain ⟨_, rfl⟩ := stepped
      simp only [State.update, Function.update_self, Worker.send]
      split
      · exact ⟨rfl, rfl, ⟨[], by simp⟩, fun token => token⟩
      · exact ⟨rfl, rfl, ⟨_, rfl⟩, fun token => token⟩
    | refuse =>
      simp only [Server.step, Option.ite_none_right_eq_some, Option.some.injEq] at stepped
      obtain ⟨_, rfl⟩ := stepped
      exact untouched rfl
    | load =>
      simp only [Server.step, Option.ite_none_right_eq_some] at stepped
      obtain ⟨_, stepped⟩ := stepped
      split at stepped <;> cases stepped <;> exact untouched rfl
    | store | unpark =>
      simp only [Server.step, Option.ite_none_right_eq_some, Option.some.injEq] at stepped
      obtain ⟨_, rfl⟩ := stepped
      simp [State.update, State.next]
    | worker other own =>
      have different : state.index ≠ other := fun same => idle own (by rw [same])
      exact untouched ((worker_acts stepped).2 _ different)
  · apply untouched
    cases event with
    | accept | refuse | store | unpark =>
      simp only [Server.step, Option.ite_none_right_eq_some, Option.some.injEq] at stepped
      obtain ⟨_, rfl⟩ := stepped
      simp [State.update, State.next, own]
    | load =>
      simp only [Server.step, Option.ite_none_right_eq_some] at stepped
      obtain ⟨_, stepped⟩ := stepped
      split at stepped <;> cases stepped <;> rfl
    | worker other event =>
      have different : id ≠ other := fun same => idle event (by rw [same])
      exact (worker_acts stepped).2 _ different

inductive WorkerStep (worker : Worker) : WorkerEvent → Worker → Prop
  | receive {stream rest} (place : worker.place = .receive) (front : worker.channel = stream :: rest)
      (idle : worker.executor.running = none) :
      WorkerStep worker (.receive stream)
        { worker with
          channel := rest
          executor := { worker.executor with
            polling := worker.executor.polling ++ [worker.executor.spawned]
            spawned := worker.executor.spawned + 1 }
          place := .poll }
  | panic (place : worker.place = .receive) (filled : worker.channel ≠ []) :
      WorkerStep worker .panic { worker with channel := [], place := .panicked }
  | empty (place : worker.place = .receive) (drained : worker.channel = []) :
      WorkerStep worker .empty { worker with place := if worker.executor.polling.length = 0 then .store else .poll }
  | store (place : worker.place = .store) : WorkerStep worker .store { worker with flag := true, place := .park }
  | park (place : worker.place = .park) (token : worker.token = true) :
      WorkerStep worker .park { worker with token := false, place := .poll }
  | parks (place : worker.place = .park) (token : worker.token = false) : WorkerStep worker .park { worker with place := .parked }
  | unparked (place : worker.place = .parked) (token : worker.token = true) :
      WorkerStep worker .unparked { worker with token := false, place := .poll }
  | spurious (place : worker.place = .parked) : WorkerStep worker .spurious { worker with place := .poll }
  | polls {task rest} (place : worker.place = .poll) (idle : worker.executor.running = none)
      (front : worker.executor.polling = task :: rest) :
      WorkerStep worker (.poll (.poll task))
        { worker with executor := { worker.executor with polling := rest, running := some task } }
  | finds_none (place : worker.place = .poll) : WorkerStep worker (.poll .empty) { worker with place := .receive }
  | returns {task own executor} (place : worker.place = .poll) (ends : own = .pending task ∨ own = .ready task) :
      WorkerStep worker (.poll own) { worker with executor, place := .receive }

theorem worker_cases {worker moved : Worker} {own : WorkerEvent} (stepped : worker.step own = some moved) :
    WorkerStep worker own moved := by
  cases own with
  | receive stream =>
    simp only [Worker.step] at stepped
    split at stepped
    next first rest place front =>
      simp only [Option.ite_none_right_eq_some, Option.map_eq_some_iff, AsyncRuntime.step, Option.some.injEq] at stepped
      obtain ⟨rfl, executor, ⟨idle, rfl⟩, rfl⟩ := stepped
      exact .receive place front idle
    next => cases stepped
  | panic | empty | store | unparked | spurious =>
    simp only [Worker.step, Option.ite_none_right_eq_some, Option.some.injEq] at stepped
    obtain ⟨guard, rfl⟩ := stepped
    first
      | exact .panic guard.1 guard.2
      | exact .empty guard.1 guard.2
      | exact .unparked guard.1 guard.2
      | exact .store guard
      | exact .spurious guard
  | park =>
    simp only [Worker.step, Option.ite_none_right_eq_some] at stepped
    obtain ⟨place, stepped⟩ := stepped
    split at stepped <;> cases stepped
    next token => exact .park place token
    next token => exact .parks place (by simpa using token)
  | poll own =>
    simp only [Worker.step, Option.ite_none_right_eq_some, Option.bind_eq_some_iff, Option.map_eq_some_iff] at stepped
    obtain ⟨place, arrived, moves, executor, moved, rfl⟩ := stepped
    cases own with
    | spawn | wake => cases moves
    | poll task =>
      cases moves
      simp only [AsyncRuntime.step] at moved
      split at moved
      next first rest idle front =>
        simp only [Option.ite_none_right_eq_some, Option.some.injEq] at moved
        obtain ⟨rfl, rfl⟩ := moved
        rw [← place]
        exact .polls place idle front
      next => cases moved
    | pending =>
      cases moves
      exact .returns place (.inl rfl)
    | ready =>
      cases moves
      exact .returns place (.inr rfl)
    | empty =>
      cases moves
      simp only [AsyncRuntime.step, Option.ite_none_right_eq_some, Option.some.injEq] at moved
      obtain ⟨_, rfl⟩ := moved
      exact .finds_none place

/-- What a step means to one worker. -/
inductive Turn (order : ByteOrder) (state : Serving) (event : ServingEvent) (id : Fin 3) (next : Serving) : Prop
  | rests (idle : (∀ own, event ≠ .server (.worker id own)) ∧ ∀ operation, event ≠ .client id operation)
      (place : (next.server.workers id).place = (state.server.workers id).place)
      (executor : (next.server.workers id).executor = (state.server.workers id).executor)
      (channel : ∃ more, (next.server.workers id).channel = (state.server.workers id).channel ++ more)
      (token : (state.server.workers id).token = true → (next.server.workers id).token = true)
      (clients : next.clients id = state.clients id)
  | acts {own} (acts : event = .server (.worker id own)) (inside : Event.returns (.worker id own) = false)
      (moved : WorkerStep (state.server.workers id) own (next.server.workers id)) (clients : next.clients = state.clients)
  | operates {operation task client} (acts : event = .client id operation)
      (running : (state.server.workers id).executor.running = some task)
      (polled : (state.clients id task).step order operation = some (.continues client)) (after : next = state.set id task client)
  | returns {operation task} (acts : event = .client id operation)
      (running : (state.server.workers id).executor.running = some task) (place : (next.server.workers id).place = .receive)
      (channel : (next.server.workers id).channel = (state.server.workers id).channel)

theorem poll_returns {worker moved : Worker} {own : AsyncRuntime.Event} {task : Nat}
    (ends : own = .pending task ∨ own = .ready task)
    (stepped : worker.step (.poll own) = some moved) : moved.place = .receive ∧ moved.channel = worker.channel := by
  cases worker_cases stepped with
  | polls | finds_none => rcases ends with same | same <;> cases same
  | returns => exact ⟨rfl, rfl⟩

/-- What another worker's task does. -/
theorem Turn.other {other : Fin 3} {operation : Operation} (different : id ≠ other)
    (worker : next.server.workers id = state.server.workers id) (clients : next.clients id = state.clients id) :
    Turn order state (.client other operation) id next := by
  refine .rests ⟨by simp, fun _ same => ?_⟩ (by rw [worker]) (by rw [worker]) ⟨[], by rw [worker, List.append_nil]⟩
    (by rw [worker]; exact fun token => token) clients
  cases same
  exact different rfl

theorem serving_turn (stepped : (serving order).step state event = some next) (id : Fin 3) : Turn order state event id next := by
  cases event with
  | server move =>
    simp only [serving, Serving.step, Option.ite_none_left_eq_some, Option.map_eq_some_iff] at stepped
    obtain ⟨inside, server, stepped, rfl⟩ := stepped
    by_cases own : ∃ own, move = .worker id own
    · obtain ⟨own, rfl⟩ := own
      exact .acts rfl (by simpa using inside) (worker_cases (worker_acts stepped).1) rfl
    · simp only [not_exists] at own
      obtain ⟨place, executor, channel, token⟩ := worker_rests stepped own
      exact .rests ⟨by simpa using own, by simp⟩ place executor channel token rfl
  | client other operation =>
    simp only [serving, Serving.step] at stepped
    split at stepped
    next task place running =>
      simp only [Option.ite_none_right_eq_some] at stepped
      obtain ⟨fits, stepped⟩ := stepped
      by_cases same : id = other
      · subst same
        split at stepped
        next client polled =>
          cases stepped
          exact .operates rfl running polled rfl
        next client polled =>
          obtain ⟨server, moved, rfl⟩ := Option.map_eq_some_iff.mp stepped
          obtain ⟨place, channel⟩ := poll_returns (.inl rfl) (worker_acts moved).1
          exact .returns rfl running place channel
        next result polled =>
          obtain ⟨server, moved, rfl⟩ := Option.map_eq_some_iff.mp stepped
          obtain ⟨place, channel⟩ := poll_returns (.inr rfl) (worker_acts moved).1
          exact .returns rfl running place channel
        next panics => exact absurd panics (client_no_panic fits)
        next => cases stepped
      · split at stepped
        next client polled =>
          cases stepped
          exact .other same rfl (by simp [Serving.set, same])
        next client polled =>
          obtain ⟨server, moved, rfl⟩ := Option.map_eq_some_iff.mp stepped
          exact .other same ((worker_acts moved).2 _ same) (by simp [Serving.set, same])
        next result polled =>
          obtain ⟨server, moved, rfl⟩ := Option.map_eq_some_iff.mp stepped
          exact .other same ((worker_acts moved).2 _ same) rfl
        next panics => exact absurd panics (client_no_panic fits)
        next => cases stepped
    next => cases stepped

end RustAsyncAwait.Server
