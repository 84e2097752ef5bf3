import RustAsyncAwait.Server

/-! Connections and parked workers. A worker is woken for a connection unless
the acceptor reads its flag in the moment between the worker's look into its
empty channel and its store to the flag. -/

namespace RustAsyncAwait.Server
open Library

/-- Worker `id` sleeps on a connection, and nobody is about to wake it. -/
def Stranded (state : State) (id : Fin 3) : Prop :=
  (state.workers id).place = .parked ∧ (state.workers id).token = false ∧ (state.workers id).channel ≠ [] ∧
    ¬ (state.acceptor ≠ .accept ∧ state.index = id)

instance (state : State) (id : Fin 3) : Decidable (Stranded state id) := by
  unfold Stranded
  infer_instance

/-- The acceptor does not find the flag of a worker down that has seen its
channel empty before the stream came and has still to put the flag up, with no
token to return its `park`. -/
def InTime (state : State) (event : Event) : Prop :=
  event = .load → (state.workers state.index).flag = true ∨ (state.workers state.index).token = true ∨
    (state.workers state.index).place ≠ .store ∨ (state.workers state.index).channel = []

instance (state : State) (event : Event) : Decidable (InTime state event) := by
  unfold InTime
  infer_instance

def Place.resting : Place → Bool
  | .store | .park | .parked => true
  | .receive | .poll | .panicked => false

/-- What the acceptor is doing for a worker. -/
def State.checking (state : State) (id : Fin 3) : Acceptor := if state.index = id then state.acceptor else .accept

/-- A worker that goes to sleep on a connection is still to be looked after, and
one whose flag has been taken down is about to get its token. -/
structure Worker.Safe (checking : Acceptor) (worker : Worker) : Prop where
  watched : worker.place.resting = true → worker.token = false → worker.channel ≠ [] → checking ≠ .accept
  marked : worker.place = .park ∨ worker.place = .parked → worker.token = false → worker.flag = false → checking = .unpark

def Safe (state : State) : Prop := ∀ id, (state.workers id).Safe (state.checking id)

/-- A worker that is not about to park has nothing to be looked after for. -/
private theorem Worker.Safe.of_awake {checking : Acceptor} {worker : Worker} (awake : worker.place.resting = false) :
    worker.Safe checking where
  watched := by simp [awake]
  marked parking := by
    rcases parking with place | place <;> simp [Place.resting, place] at awake

theorem Worker.Safe.step {checking : Acceptor} {worker next : Worker} {event : WorkerEvent} (safe : worker.Safe checking)
    (stepped : worker.step event = some next) : next.Safe checking := by
  cases event with
  | receive stream =>
    simp only [Worker.step] at stepped
    split at stepped
    · simp only [Option.ite_none_right_eq_some, Option.map_eq_some_iff] at stepped
      obtain ⟨_, executor, _, rfl⟩ := stepped
      exact .of_awake rfl
    · cases stepped
  | panic | unparked | spurious =>
    simp only [Worker.step, Option.ite_none_right_eq_some, Option.some.injEq] at stepped
    obtain ⟨_, rfl⟩ := stepped
    exact .of_awake rfl
  | empty =>
    simp only [Worker.step, Option.ite_none_right_eq_some, Option.some.injEq] at stepped
    obtain ⟨⟨_, empty⟩, rfl⟩ := stepped
    refine ⟨fun _ _ filled => absurd empty filled, fun parking => ?_⟩
    by_cases idle : worker.executor.polling.length = 0 <;> simp [idle] at parking
  | store =>
    simp only [Worker.step, Option.ite_none_right_eq_some, Option.some.injEq] at stepped
    obtain ⟨place, rfl⟩ := stepped
    exact ⟨fun _ => safe.watched (by rw [place]; rfl), fun _ _ down => by cases down⟩
  | park =>
    simp only [Worker.step, Option.ite_none_right_eq_some] at stepped
    obtain ⟨place, stepped⟩ := stepped
    split at stepped
    · cases stepped
      exact .of_awake rfl
    · cases stepped
      exact ⟨fun _ => safe.watched (by rw [place]; rfl), fun _ => safe.marked (.inl place)⟩
  | poll event =>
    simp only [Worker.step, Option.ite_none_right_eq_some, Option.bind_eq_some_iff, Option.map_eq_some_iff] at stepped
    obtain ⟨_, place, moved, executor, _, rfl⟩ := stepped
    cases event <;> cases moved <;> exact .of_awake rfl

/-- A step of the acceptor concerns the worker whose turn it is. -/
private theorem Safe.attend {state next : State} (safe : Safe state)
    (changed : (next.workers state.index).Safe (next.checking state.index))
    (kept : ∀ other, other ≠ state.index → next.workers other = state.workers other ∧ next.checking other = .accept) :
    Safe next := by
  intro other
  by_cases same : other = state.index
  · rw [same]
    exact changed
  · have before := safe other
    rw [State.checking, if_neg (Ne.symm same)] at before
    rw [(kept other same).1, (kept other same).2]
    exact before

private theorem checking_next (state : State) (id : Fin 3) : state.next.checking id = .accept := by
  unfold State.checking
  split <;> rfl

private theorem checking_update (state : State) (id other : Fin 3) (worker : Worker) :
    (state.update id worker).checking other = state.checking other := rfl

theorem Safe.step {state next : State} {event : Event} (safe : Safe state) (timely : InTime state event)
    (stepped : server.step state event = some next) : Safe next := by
  replace stepped : Server.step state event = some next := stepped
  have own := safe state.index
  rw [State.checking, if_pos rfl] at own
  cases event with
  | accept =>
    simp only [Server.step, Option.ite_none_right_eq_some, Option.some.injEq] at stepped
    obtain ⟨accepting, rfl⟩ := stepped
    rw [accepting] at own
    apply safe.attend
    · simp only [State.update, State.checking, Function.update_self, if_true]
      refine ⟨fun _ _ _ => by simp, fun parking quiet down => ?_⟩
      unfold Worker.send at parking quiet down
      split at parking <;> cases own.marked parking (by simp_all) (by simp_all)
    · intro other different
      simp [State.update, State.checking, different, Ne.symm different]
  | refuse =>
    simp only [Server.step, Option.ite_none_right_eq_some, Option.some.injEq] at stepped
    obtain ⟨_, rfl⟩ := stepped
    exact safe
  | load =>
    simp only [Server.step, Option.ite_none_right_eq_some] at stepped
    obtain ⟨loading, stepped⟩ := stepped
    rw [loading] at own
    split at stepped
    · cases stepped
      apply safe.attend
      · simp only [State.checking, if_true]
        exact ⟨fun _ _ _ => by simp, fun parking quiet down => by cases own.marked parking quiet down⟩
      · intro other different
        simp [State.checking, Ne.symm different]
    · cases stepped
      rename_i down
      apply safe.attend
      · rw [checking_next]
        show (state.workers state.index).Safe .accept
        have vacant : ∀ parking : (state.workers state.index).place = .park ∨ (state.workers state.index).place = .parked,
            (state.workers state.index).token = false → False := by
          intro parking quiet
          cases own.marked parking quiet (by simpa using down)
        refine ⟨fun resting quiet filled => ?_, fun parking quiet _ => (vacant parking quiet).elim⟩
        rcases timely rfl with up | pending | seen | empty
        · exact absurd up down
        · rw [quiet] at pending
          cases pending
        · refine (vacant ?_ quiet).elim
          cases place : (state.workers state.index).place <;> simp [place, Place.resting] at resting seen ⊢
        · exact absurd empty filled
      · exact fun other _ => ⟨rfl, checking_next state other⟩
  | store =>
    simp only [Server.step, Option.ite_none_right_eq_some, Option.some.injEq] at stepped
    obtain ⟨_, rfl⟩ := stepped
    apply safe.attend
    · simp only [State.update, State.checking, Function.update_self, if_true]
      exact ⟨fun _ _ _ => by simp, fun _ _ _ => rfl⟩
    · intro other different
      simp [State.update, State.checking, different, Ne.symm different]
  | unpark =>
    simp only [Server.step, Option.ite_none_right_eq_some, Option.some.injEq] at stepped
    obtain ⟨_, rfl⟩ := stepped
    apply safe.attend
    · rw [checking_next]
      simp only [State.next, State.update, Function.update_self]
      exact ⟨fun _ quiet _ => (Bool.noConfusion quiet), fun _ quiet _ => (Bool.noConfusion quiet)⟩
    · intro other different
      exact ⟨by simp [State.next, State.update, different], checking_next _ other⟩
  | worker id event =>
    obtain ⟨worker, moved, rfl⟩ := Option.map_eq_some_iff.mp stepped
    intro other
    rw [checking_update]
    by_cases same : other = id
    · subst same
      simp only [State.update, Function.update_self]
      exact (safe other).step moved
    · simp only [State.update, Function.update_of_ne same]
      exact safe other

theorem reaches_safe {trace : List Event} {state : State} (reaches : (server.restrict InTime).Reaches trace state) :
    Safe state := by
  refine reaches.invariant Safe ?_ ?_
  · exact fun id => .of_awake rfl
  · intro state event next safe stepped
    obtain ⟨timely, stepped⟩ := Machine.restrict_step.mp stepped
    exact safe.step timely stepped

/-- No worker sleeps on a connection in any run in which the acceptor reads the flags in time. -/
theorem no_worker_stranded {trace : List Event} {state : State} (reaches : (server.restrict InTime).Reaches trace state)
    (id : Fin 3) : ¬ Stranded state id := by
  intro stranded
  obtain ⟨parked, quiet, filled, alone⟩ := stranded
  have watched := (reaches_safe reaches id).watched (by rw [parked]; rfl) quiet filled
  unfold State.checking at watched
  split at watched
  · rename_i same
    exact alone ⟨watched, same⟩
  · exact watched rfl

/-- Worker 0 parks, is woken for one connection, and takes it. -/
theorem no_worker_stranded_woken :
    let trace : List Event := [.worker 0 .empty, .worker 0 .store, .worker 0 .park, .accept, .load, .store, .unpark,
      .worker 0 .unparked, .worker 0 (.poll .empty), .worker 0 (.receive 0)]
    ∃ state, (server.restrict InTime).Reaches trace state ∧ ¬ Stranded state 0 := by
  intro trace
  have runs : ((server.restrict InTime).runFrom (server.restrict InTime).init trace).isSome = true := by decide +kernel
  obtain ⟨state, reaches⟩ := Option.isSome_iff_exists.mp runs
  exact ⟨state, reaches, no_worker_stranded reaches 0⟩

/-- A flag that is read too early strands its worker, by the worker's next two steps. -/
theorem early_load_strands {state next : State} (early : ¬ InTime state .load) (stepped : server.step state .load = some next) :
    ∃ last, server.runFrom next [.worker state.index .store, .worker state.index .park] = some last ∧
      Stranded last state.index := by
  simp only [InTime, true_imp_iff, not_or, Bool.not_eq_true, not_not] at early
  obtain ⟨down, quiet, place, filled⟩ := early
  replace stepped : Server.step state .load = some next := stepped
  simp only [Server.step, Option.ite_none_right_eq_some, down] at stepped
  obtain ⟨_, stepped⟩ := stepped
  cases stepped
  let worker := state.workers state.index
  let stored := state.next.update state.index { worker with flag := true, place := .park }
  have store : server.step state.next (.worker state.index .store) = some stored := by
    simp [server, Server.step, Worker.step, State.next, place, stored, worker]
  have park : server.step stored (.worker state.index .park) =
      some (stored.update state.index { worker with flag := true, place := .parked }) := by
    simp [server, Server.step, Worker.step, State.update, quiet, stored, worker]
  refine ⟨_, by rw [Machine.runFrom_cons, store, Option.bind_some, Machine.runFrom_cons, park]; rfl, ?_⟩
  simp [Stranded, stored, State.update, State.next, worker, quiet, filled]

/-- The acceptor reads worker 0's flag after the worker has seen its channel
empty and before it puts the flag up. -/
theorem worker_stranded :
    ¬ ∀ (trace : List Event) (state : State), server.Reaches trace state → ∀ id, ¬ Stranded state id := by
  intro never
  have test : (server.runFrom server.init [.worker 0 .empty, .accept, .load, .worker 0 .store, .worker 0 .park]).any
      (fun state => decide (Stranded state 0)) = true := by decide +kernel
  obtain ⟨state, reaches, stranded⟩ := (Option.any_eq_true _ _).mp test
  exact never _ state reaches 0 (of_decide_eq_true stranded)

end RustAsyncAwait.Server
