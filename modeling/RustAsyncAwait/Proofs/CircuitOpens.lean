import RustAsyncAwait.CircuitBreaker
import RustAsyncAwait.Library.Lists

/-! The circuit opens once. Every value of `COUNT` is seen by one `fetch_add`, so
exactly one task sees the value 2. -/

namespace RustAsyncAwait.CircuitBreaker
open Library

inductive Step (state : State) : Event → State → Prop
  | start {future : Future} : Step state (.start future) (state.start future)
  | fetch_add {task : Nat} (at_task : state.tasks[task]? = some ⟨.error_task, .running⟩) :
      Step state (.fetch_add task) (state.fetch_add task)
  | store {task : Nat} (at_task : state.tasks[task]? = some ⟨.error_task, .opening⟩) :
      Step state (.store task) { state with opened := true, tasks := state.tasks.set task ⟨.error_task, .finished⟩ }
  | pass {task : Nat} (at_task : state.tasks[task]? = some ⟨.passing_task, .running⟩) :
      Step state (.pass task) { state with tasks := state.tasks.set task ⟨.passing_task, .finished⟩ }
  | spawn_task {future : Future} : Step state (.spawn_task future) { state with calls := state.calls ++ [{ future }] }
  | load {call : Nat} {future : Future} (at_call : state.calls[call]? = some ⟨future, none, none⟩) :
      Step state (.load call) { state with calls := state.calls.set call ⟨future, some state.opened, none⟩ }
  | returned {call : Nat} {future : Future} {opened : Bool} (at_call : state.calls[call]? = some ⟨future, some opened, none⟩) :
      Step state (.returned call) (state.spawn_task call future opened)

theorem step_cases {state next : State} {event : Event} (stepped : state.step event = some next) : Step state event next := by
  cases event with
  | start future =>
    cases stepped
    exact .start
  | fetch_add task =>
    obtain ⟨at_task, stepped⟩ := Option.ite_none_right_eq_some.mp stepped
    cases stepped
    exact .fetch_add at_task
  | store task =>
    obtain ⟨at_task, stepped⟩ := Option.ite_none_right_eq_some.mp stepped
    cases stepped
    exact .store at_task
  | pass task =>
    obtain ⟨at_task, stepped⟩ := Option.ite_none_right_eq_some.mp stepped
    cases stepped
    exact .pass at_task
  | spawn_task future =>
    cases stepped
    exact .spawn_task
  | load call =>
    simp only [State.step] at stepped
    split at stepped
    · rename_i future at_call
      cases stepped
      exact .load at_call
    · cases stepped
  | returned call =>
    simp only [State.step] at stepped
    split at stepped
    · rename_i future opened at_call
      cases stepped
      exact .returned at_call
    · cases stepped

def fetch_adds (trace : List Event) : Nat := trace.countP fun | .fetch_add _ => true | _ => false

def stores (trace : List Event) : Nat := trace.countP fun | .store _ => true | _ => false

def Task.added (task : Task) : Bool := task.future = .error_task ∧ task.phase ≠ .running

def Task.opening (task : Task) : Bool := task.phase = .opening

/-- How many of the tasks run `error_task`. -/
def State.error_tasks (state : State) : Nat := state.tasks.countP fun task => task.future = .error_task

/-- The counter without its wraparound, and the one task that is to open the circuit or has done so. -/
structure Counted (trace : List Event) (state : State) : Prop where
  counter : state.count = UInt64.ofNat (fetch_adds trace)
  added : fetch_adds trace = state.tasks.countP Task.added
  once : fetch_adds trace < 2 ^ 64 →
    stores trace + state.tasks.countP Task.opening = if 3 ≤ fetch_adds trace then 1 else 0
  opened : state.opened = true ↔ 0 < stores trace

namespace Counted
variable {trace : List Event} {state next : State}

theorem kept (counted : Counted trace state) {event : Event} (adds : fetch_adds (trace ++ [event]) = fetch_adds trace)
    (opens : stores (trace ++ [event]) = stores trace) (count : next.count = state.count)
    (same : next.opened = state.opened) (added : next.tasks.countP Task.added = state.tasks.countP Task.added)
    (opening : next.tasks.countP Task.opening = state.tasks.countP Task.opening) :
    Counted (trace ++ [event]) next where
  counter := by rw [adds, count]; exact counted.counter
  added := by rw [adds, added]; exact counted.added
  once := by rw [adds, opens, opening]; exact counted.once
  opened := by rw [opens, same]; exact counted.opened

theorem fetch_add (counted : Counted trace state) {task : Nat} (at_task : state.tasks[task]? = some ⟨.error_task, .running⟩) :
    Counted (trace ++ [.fetch_add task]) (state.fetch_add task) := by
  have adds : fetch_adds (trace ++ [.fetch_add task]) = fetch_adds trace + 1 := by simp [fetch_adds]
  have opens : stores (trace ++ [.fetch_add task]) = stores trace := by simp [stores]
  refine ⟨?_, ?_, ?_, ?_⟩
  · rw [adds, State.fetch_add, counted.counter, UInt64.ofNat_add]
    rfl
  · have moved := countP_set Task.added state.tasks task ⟨.error_task, if state.count = 2 then .opening else .finished⟩ _ at_task
    have here : Task.added ⟨.error_task, if state.count = 2 then .opening else .finished⟩ = true := by
      by_cases third : state.count = 2 <;> simp [Task.added, third]
    rw [here] at moved
    rw [adds, counted.added]
    exact moved.symm
  · intro few
    rw [adds] at few ⊢
    have moved := countP_set Task.opening state.tasks task ⟨.error_task, if state.count = 2 then .opening else .finished⟩ _ at_task
    have before := counted.once (Nat.lt_of_succ_lt few)
    have third : state.count = 2 ↔ fetch_adds trace = 2 := by
      rw [counted.counter, ← UInt64.toNat_inj, UInt64.toNat_ofNat_of_lt' (Nat.lt_of_succ_lt few)]
      rfl
    simp only [third] at moved
    simp only [opens, State.fetch_add, third]
    -- the value 2 turns the running task into the one that opens the circuit
    by_cases two : fetch_adds trace = 2
    · rw [if_pos two] at moved ⊢
      have early : ¬ 3 ≤ fetch_adds trace := by omega
      have late : 3 ≤ fetch_adds trace + 1 := by omega
      have gained : (state.tasks.set task ⟨.error_task, .opening⟩).countP Task.opening =
          state.tasks.countP Task.opening + 1 := moved
      rw [if_neg early] at before
      rw [if_pos late, gained]
      omega
    · rw [if_neg two] at moved ⊢
      have same : (3 ≤ fetch_adds trace) = (3 ≤ fetch_adds trace + 1) := by simp only [eq_iff_iff]; omega
      simp only [same] at before
      rw [← before]
      exact congrArg (stores trace + ·) moved
  · rw [opens]
    exact counted.opened

theorem store (counted : Counted trace state) {task : Nat} (at_task : state.tasks[task]? = some ⟨.error_task, .opening⟩) :
    Counted (trace ++ [.store task])
      { state with opened := true, tasks := state.tasks.set task ⟨.error_task, .finished⟩ } := by
  have adds : fetch_adds (trace ++ [.store task]) = fetch_adds trace := by simp [fetch_adds]
  have opens : stores (trace ++ [.store task]) = stores trace + 1 := by simp [stores]
  refine ⟨by rw [adds]; exact counted.counter, ?_, ?_, ?_⟩
  · have moved := countP_set Task.added state.tasks task ⟨.error_task, .finished⟩ _ at_task
    rw [adds, counted.added]
    simpa [Task.added] using moved.symm
  · intro few
    have moved := countP_set Task.opening state.tasks task ⟨.error_task, .finished⟩ _ at_task
    have before := counted.once (adds ▸ few)
    have gone : (state.tasks.set task ⟨.error_task, .finished⟩).countP Task.opening + 1 = state.tasks.countP Task.opening := moved
    dsimp only
    rw [adds, opens, ← before]
    omega
  · simp [opens]

end Counted

theorem reaches_counted {trace : List Event} {state : State} (reaches : circuit.Reaches trace state) : Counted trace state := by
  refine reaches.trace_invariant Counted ⟨rfl, rfl, fun _ => rfl, by simp [circuit, stores]⟩ ?_
  intro trace state event next _ counted stepped
  cases step_cases stepped with
  | start =>
    refine counted.kept (by simp [fetch_adds]) (by simp [stores]) rfl rfl ?_ ?_
    · simp [State.start, Task.added]
    · simp [State.start, Task.opening]
  | fetch_add at_task => exact counted.fetch_add at_task
  | store at_task => exact counted.store at_task
  | pass at_task =>
    refine counted.kept (by simp [fetch_adds]) (by simp [stores]) rfl rfl ?_ ?_
    · simpa [Task.added] using countP_set Task.added state.tasks _ ⟨.passing_task, .finished⟩ _ at_task
    · simpa [Task.opening] using countP_set Task.opening state.tasks _ ⟨.passing_task, .finished⟩ _ at_task
  | spawn_task => exact counted.kept (by simp [fetch_adds]) (by simp [stores]) rfl rfl rfl rfl
  | load at_call => exact counted.kept (by simp [fetch_adds]) (by simp [stores]) rfl rfl rfl rfl
  | @returned call future opened at_call =>
    unfold State.spawn_task
    cases opened with
    | false =>
      refine counted.kept (by simp [fetch_adds]) (by simp [stores]) rfl rfl ?_ ?_
      · simp [State.start, Task.added]
      · simp [State.start, Task.opening]
    | true => exact counted.kept (by simp [fetch_adds]) (by simp [stores]) rfl rfl rfl rfl

/-- This call of `spawn_task` is still to be made, or still to load `OPEN`. -/
def State.later (state : State) (call : Nat) : Prop :=
  ∀ entry, state.calls[call]? = some entry → entry = { future := entry.future }

/-- What a call can be after `OPEN` was true before its load. -/
def Call.refused (call : Call) : Prop :=
  call.loaded ≠ some false ∧ (call.returned = none ∨ call.returned = some (.error "Circuit Open"))

/-- The circuit is open, and this call can no longer spawn its task. -/
def State.refuses (state : State) (call : Nat) : Prop :=
  state.opened = true ∧ ∀ entry, state.calls[call]? = some entry → entry.refused

theorem refuses_set {state : State} {call other : Nat} {entry : Call} (refuses : state.refuses call)
    (refused : call = other → entry.refused) :
    ∀ found, (state.calls.set other entry)[call]? = some found → found.refused := by
  intro found at_call
  by_cases same : other = call
  · subst same
    obtain ⟨inside, equal⟩ := List.getElem?_eq_some_iff.mp at_call
    rw [List.getElem_set_self] at equal
    exact equal ▸ refused rfl
  · rw [List.getElem?_set_ne same] at at_call
    exact refuses.2 found at_call

theorem step_refuses {state next : State} {event : Event} {call : Nat} (refuses : state.refuses call)
    (stepped : state.step event = some next) : next.refuses call := by
  cases step_cases stepped with
  | start => exact refuses
  | fetch_add _ => exact refuses
  | store _ => exact ⟨rfl, refuses.2⟩
  | pass _ => exact refuses
  | spawn_task =>
    refine ⟨refuses.1, ?_⟩
    intro entry at_call
    rcases Nat.lt_or_ge call state.calls.length with inside | outside
    · rw [List.getElem?_append_left inside] at at_call
      exact refuses.2 entry at_call
    · rw [List.getElem?_append_right outside] at at_call
      obtain ⟨_, rfl⟩ := singleton_getElem?.mp at_call
      exact ⟨Option.some_ne_none _ ∘ Eq.symm, .inl rfl⟩
  | load at_call =>
    refine ⟨refuses.1, refuses_set refuses fun _ => ⟨?_, .inl rfl⟩⟩
    rw [refuses.1]
    simp
  | @returned other future opened at_other =>
    unfold State.spawn_task
    cases opened with
    | false =>
      refine ⟨refuses.1, refuses_set refuses ?_⟩
      intro same
      subst same
      exact absurd rfl (refuses.2 _ at_other).1
    | true => exact ⟨refuses.1, refuses_set refuses fun _ => ⟨by simp, .inr rfl⟩⟩

theorem run_refuses {state final : State} {trace : List Event} {call : Nat} (refuses : state.refuses call)
    (runs : circuit.runFrom state trace = some final) : final.refuses call :=
  circuit.runFrom_invariant (fun state => state.refuses call)
    (fun _ _ _ _ refuses stepped => step_refuses refuses stepped) refuses runs

/-- A call that returns then spawns nothing. -/
theorem returned_refused {state next : State} {call : Nat} (refuses : state.refuses call)
    (stepped : state.step (.returned call) = some next) :
    next.tasks = state.tasks ∧
      ∃ future, next.calls[call]? = some ⟨future, some true, some (.error "Circuit Open")⟩ := by
  cases step_cases stepped with
  | @returned _ future opened at_call =>
    cases opened with
    | false => exact absurd rfl (refuses.2 _ at_call).1
    | true =>
      refine ⟨rfl, future, ?_⟩
      exact (getElem?_set_found at_call _ call).trans (if_pos rfl)

/-- Where the circuit is after a run, and what is refused from then on. -/
structure CircuitLaw (trace : List Event) (state : State) : Prop where
  once : stores trace ≤ 1
  third : (∀ task ∈ state.tasks, task.phase ≠ .opening) → (state.opened = true ↔ 3 ≤ fetch_adds trace)
  stays : state.opened = true → ∀ rest final, circuit.runFrom state rest = some final → final.opened = true
  refuses : state.opened = true → ∀ rest final call, circuit.runFrom state rest = some final → state.later call →
    (∀ entry, final.calls[call]? = some entry →
      entry.returned = none ∨ entry.returned = some (.error "Circuit Open")) ∧
    ∀ next, final.step (.returned call) = some next →
      next.tasks = final.tasks ∧
        ∃ future, next.calls[call]? = some ⟨future, some true, some (.error "Circuit Open")⟩

/-- The law holds in every interleaving of any number of tasks and calls. -/
theorem circuit_law {trace : List Event} {state : State} (reaches : circuit.Reaches trace state)
    (few : state.error_tasks < 2 ^ 64) : CircuitLaw trace state := by
  have counted := reaches_counted reaches
  have small : fetch_adds trace < 2 ^ 64 := by
    rw [counted.added]
    refine Nat.lt_of_le_of_lt (List.countP_mono_left ?_) few
    intro task _ added
    simp only [Task.added, decide_eq_true_eq] at added
    simpa using added.1
  have once := counted.once small
  refine ⟨?_, ?_, ?_, ?_⟩
  · split at once <;> omega
  · intro none
    have zero : state.tasks.countP Task.opening = 0 := by
      apply List.countP_eq_zero.mpr
      intro task member
      simpa [Task.opening] using none task member
    rw [counted.opened]
    split at once <;> omega
  · intro opened rest final runs
    have outside : state.refuses state.calls.length := ⟨opened, by simp⟩
    exact (run_refuses outside runs).1
  · intro opened rest final call runs later
    have refuses : state.refuses call := by
      refine ⟨opened, fun entry at_call => ?_⟩
      rw [later entry at_call]
      exact ⟨by simp, .inl rfl⟩
    have kept := run_refuses refuses runs
    exact ⟨fun entry at_call => (kept.2 entry at_call).2, fun next stepped => returned_refused kept stepped⟩

/-- Four error tasks, of which the third is slow to store, and a call between its `fetch_add` and its store. -/
theorem circuit_law_four :
    let trace : List Event := [.start .error_task, .start .error_task, .start .error_task, .fetch_add 1, .fetch_add 0,
      .fetch_add 2, .spawn_task .error_task, .load 0, .returned 0, .fetch_add 3, .store 2, .spawn_task .passing_task,
      .load 1, .returned 1]
    ∃ state, circuit.Reaches trace state ∧ CircuitLaw trace state := by
  intro trace
  exact ⟨_, rfl, circuit_law rfl (by decide)⟩

end RustAsyncAwait.CircuitBreaker
