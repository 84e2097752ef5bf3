import RustAsyncAwait.Proofs.ExecutorWraparound
import RustAsyncAwait.Proofs.GuardSteps

/-! A future that panics while it is polled. Only the panicking task is lost,
since the machine with the guards does what the executor of the atomic steps does. -/

namespace RustAsyncAwait.ExecutorGuards
open Library
open Executor (Task Caller Control usizeSize Tracks)

/-- What is still to be done to the deque and the map, which nothing else can see before. -/
def ahead (executor : Executor.State) : Instr Mutex Action → Executor.State
  | .act (.push_back task) => { executor with polling := executor.polling ++ [task] }
  | .act (.remove task_id) => executor.unpark task_id
  | _ => executor

/-- The executor of the atomic steps that this state stands for. -/
def State.atomic (state : State) : Executor.State := state.code.foldl ahead state.executor

/-- The task that an event takes from the executor for good. -/
def finished : Event → Option Executor.Event
  | .ready future | .panic future => some (.ready future)
  | _ => none

private theorem ahead_drops {code : Code} (drops : ∀ instr ∈ code, ∃ mutex, instr = .drop mutex) (executor : Executor.State)
    (rest : Code) : (code ++ rest).foldl ahead executor = rest.foldl ahead executor := by
  induction code with
  | nil => rfl
  | cons instr code ih =>
    obtain ⟨mutex, rfl⟩ := drops instr (List.mem_cons_self ..)
    exact ih fun instr member => drops instr (List.mem_cons_of_mem _ member)

private theorem ahead_send (code : Code) (executor : Executor.State) (task_id : Nat) :
    code.foldl ahead (executor.send task_id) = (code.foldl ahead executor).send task_id := by
  have commutes (executor : Executor.State) (instr : Instr Mutex Action) :
      ahead (executor.send task_id) instr = (ahead executor instr).send task_id := by
    cases instr with
    | act action =>
      cases action with
      | remove other =>
        simp only [ahead, Executor.State.unpark, Executor.State.send]
        cases executor.waiting[other]? <;> rfl
      | push_back | pop_front | insert | polling_is_empty | waiting_is_empty => rfl
    | lock | drop => rfl
  induction code generalizing executor with
  | nil => rfl
  | cons instr code ih =>
    rw [List.foldl_cons, commutes, ih, List.foldl_cons]

private theorem ahead_wakers (code : Code) (executor : Executor.State) :
    (code.foldl ahead executor).wakers = executor.wakers := by
  induction code generalizing executor with
  | nil => rfl
  | cons instr code ih =>
    rw [List.foldl_cons, ih]
    cases instr with
    | act action => cases action <;> simp [ahead]
    | lock | drop => rfl

/-- How the atomic executor follows a step: it stands still, makes a step of its
own, or is left with a task lost. -/
inductive Follows (executor : Executor.State) (event : Event) : Executor.State → Prop
  | still (quiet : finished event = none) : Follows executor event executor
  | moves {atomic next} (stepped : Executor.Step executor atomic next)
      (same : ∀ future, atomic = .ready future ↔ finished event = some (.ready future)) : Follows executor event next
  | panics {caller task} (control : executor.control = .polling caller task)
      (panic : event = .panic task.future) : Follows executor event { executor with control := .idle }

theorem Sound.follows_advance {state next : State} (sound : Sound state) (advances : Advance state next) :
    Follows state.atomic .advance next.atomic := by
  obtain ⟨_, clean, single, asked, emptied⟩ := sound
  unfold State.atomic
  cases advances with
  | @start code between begins =>
    have same : code.foldl ahead state.executor = state.executor := by
      cases control : state.executor.control <;> simp only [control, begin_statement, reduceCtorEq, Option.some.injEq] at begins
      all_goals
        subst begins
        rfl
    rw [between, show ({ state with code } : State).code = code from rfl]
    show Follows state.executor _ (code.foldl ahead state.executor)
    rw [same]
    exact .still rfl
  | lock code | drop code =>
    rw [code]
    exact .still rfl
  | poisoned code dirty => simp [clean] at dirty
  | @act action rest executor code head performs =>
    rw [head] at single asked emptied ⊢
    have done (executor : Executor.State) : rest.foldl ahead executor = executor := by
      simpa using ahead_drops single executor []
    simp only [List.foldl_cons]
    cases performs with
    | push_back => exact .still rfl
    | pop_front control front =>
      simp only [done, ahead]
      exact .moves (.pop control front) (by simp [finished])
    | drained control empty =>
      simp only [done, ahead]
      exact .moves (.drained control empty) (by simp [finished])
    | insert control =>
      simp only [done, ahead]
      exact .moves (.pending control) (by simp [finished])
    | first_operand empty =>
      simp only [ahead_drops single, done, ahead]
      exact .still rfl
    | filled left =>
      simp only [done, ahead]
      exact .moves (.block (asked (by simp)) (by simp [left])) (by simp [finished])
    | second_operand =>
      simp only [done, ahead]
      have control := asked (by simp)
      have empty := emptied (by simp)
      by_cases last : state.executor.waiting.isEmpty = true
      · rw [if_pos last]
        exact .moves (.finish control empty last) (by simp [finished])
      · rw [if_neg last]
        exact .moves (.block control (by simp [last])) (by simp [finished])
    | found parked =>
      simp only [statement, List.cons_append, List.nil_append, List.foldl_cons, done, ahead, Executor.State.unpark, parked]
      exact .still rfl
    | absent missing =>
      simp only [done, ahead, Executor.State.unpark, missing]
      exact .still rfl

theorem Sound.follows {state next : State} {event : Event} (sound : Sound state) (stepped : Step state event next) :
    Follows state.atomic event next.atomic := by
  have plain (between : state.code = []) : state.atomic = state.executor := by
    rw [State.atomic, between]
    rfl
  cases stepped with
  | spawn_rcv between outside =>
    rw [plain between]
    exact .moves (.spawn_rcv outside) (by simp [finished])
  | wake made =>
    show Follows (state.code.foldl ahead state.executor) _ (state.code.foldl ahead (state.executor.send _))
    rw [ahead_send]
    rw [← ahead_wakers state.code] at made
    exact .moves (.wake made) (by simp [finished])
  | run between idle =>
    rw [plain between, State.atomic, between]
    exact .moves (.run idle) (by simp [finished])
  | poll between idle =>
    rw [plain between, State.atomic, between]
    exact .moves (.poll idle) (by simp [finished])
  | pending between control =>
    rw [plain between]
    exact .still rfl
  | ready between control =>
    rw [plain between, State.atomic, between]
    exact .moves (.ready control) (by simp [finished, eq_comm])
  | panic between control =>
    rw [plain between]
    exact .panics control rfl
  | recv between control head =>
    rw [plain between]
    exact .moves (.recv control head) (by simp [finished])
  | advance advances => exact sound.follows_advance advances

theorem Follows.spawned_le {executor next : Executor.State} {event : Event} (follows : Follows executor event next) :
    executor.spawned ≤ next.spawned := by
  cases follows with
  | still | panics => exact Nat.le_refl _
  | moves stepped => exact stepped.spawned_le

/-- The record of the tasks matters only in which of them have come to an end. -/
private theorem tracks_record {trace other : List Executor.Event} {executor : Executor.State}
    {home : Nat → Option Executor.Place} (tracks : Tracks trace executor home)
    (same : ∀ future, .ready future ∈ other ↔ .ready future ∈ trace) : Tracks other executor home := by
  refine { tracks with live := fun future => ?_, finished := fun future => ?_ }
  · rw [same]
    exact tracks.live future
  · rw [same]
    exact tracks.finished future

theorem Follows.tracks {ended : List Executor.Event} {executor next : Executor.State} {event : Event}
    {home : Nat → Option Executor.Place} (follows : Follows executor event next) (tracks : Tracks ended executor home)
    (fits : next.spawned ≤ usizeSize) : ∃ home, Tracks (ended ++ (finished event).toList) next home := by
  cases follows with
  | still quiet =>
    refine ⟨home, ?_⟩
    rw [quiet, Option.toList_none, List.append_nil]
    exact tracks
  | moves stepped same =>
    obtain ⟨home, tracks⟩ := tracks.step stepped fits
    refine ⟨home, tracks_record tracks fun future => ?_⟩
    rw [List.mem_append, List.mem_append, List.mem_singleton, Option.mem_toList, ← same]
    exact or_congr_right eq_comm
  | @panics caller task control panic =>
    have gone := @Tracks.goes _ _ _ (tracks.completes control) .idle executor.channel rfl rfl (by simp)
    refine ⟨_, tracks_record gone fun future => ?_⟩
    rw [panic]
    rfl

/-- The tasks that have come to an end, by `Ready` or by a panic. -/
def record (trace : List Event) : List Executor.Event := trace.filterMap finished

theorem mem_record {trace : List Event} {future : Nat} :
    .ready future ∈ record trace ↔ .ready future ∈ trace ∨ .panic future ∈ trace := by
  simp only [record, List.mem_filterMap]
  constructor
  · intro ended
    obtain ⟨event, member, same⟩ := ended
    cases event with
    | ready other => cases same; exact .inl member
    | panic other => cases same; exact .inr member
    | spawn_rcv | wake | run | poll | pending | recv | advance => cases same
  · intro ended
    rcases ended with member | member
    · exact ⟨_, member, rfl⟩
    · exact ⟨_, member, rfl⟩

/-- The abstract executor can follow every run, also after a panic. -/
theorem reaches_tracks {trace : List Event} {state : State} (reaches : guarded.Reaches trace state)
    (fits : state.atomic.spawned ≤ usizeSize) : ∃ home, Tracks (record trace) state.atomic home := by
  refine reaches.trace_invariant
    (fun trace state => state.atomic.spawned ≤ usizeSize → ∃ home, Tracks (record trace) state.atomic home) ?_ ?_ fits
  · exact fun _ => ⟨_, .initial⟩
  · intro trace state event next reached earlier stepped fits
    have follows := (reaches_sound reached).follows (step_cases stepped)
    obtain ⟨home, tracks⟩ := earlier (Nat.le_trans follows.spawned_le fits)
    have longer : record (trace ++ [event]) = record trace ++ (finished event).toList := by
      simp only [record, List.filterMap_append]
      cases same : finished event <;> simp [same]
    rw [longer]
    exact follows.tracks tracks fits

theorem spawned_eq {trace : List Event} {state : State} (reaches : guarded.Reaches trace state) :
    state.executor.spawned = trace.count .spawn_rcv := by
  apply reaches.trace_invariant (fun trace state => state.executor.spawned = trace.count .spawn_rcv) rfl
  intro trace state event next _ counted stepped
  rw [List.count_append, ← counted]
  cases step_cases stepped with
  | spawn_rcv => simp [Executor.State.spawned]
  | wake | run | poll | pending | ready | panic | recv => rfl
  | advance advances =>
    cases advances with
    | start | lock | poisoned | drop => rfl
    | act _ performs =>
      cases performs with
      | @drained caller => cases caller <;> rfl
      | push_back | pop_front | insert | first_operand | filled | second_operand | found | absent => rfl

/-- Once in `polling`, or under one key of `waiting`, and not in both. -/
def InOneQueue (executor : Executor.State) (future : Nat) : Prop :=
  (executor.polling.map Task.future).count future = 1 ∧ ¬ executor.InWaiting future ∨
  ¬ executor.InPolling future ∧ ∃! key : Nat, ∃ task : Task, executor.waiting[key]? = some task ∧ task.future = future

/-- The call that goes on with the polls. -/
def call : Caller → Event
  | .run => .run
  | .owner => .poll

/-- What a panic in a future's code leaves, after `trace`: no guard and no
poison; the deque, the map and the queued ids as they were, without the
panicking task; the other tasks in their places; and a thread that goes on,
once it is called again, as if the future had been ready. Wakes may come before that. -/
structure Unharmed (trace : List Event) (state : State) (future : Nat) (next : State) : Prop where
  released : next.guards.held = [] ∧ next.guards.poisoned = []
  kept : next.executor = { state.executor with control := .idle }
  lost : state.executor.BeingPolled future ∧ ¬ next.executor.InPolling future ∧ ¬ next.executor.InWaiting future ∧
    ¬ next.executor.BeingPolled future
  others : ∀ other, other < next.executor.spawned → other ≠ future → .ready other ∉ trace → .panic other ∉ trace →
    InOneQueue next.executor other
  later : ∀ caller task, state.executor.control = .polling caller task → ∀ (wakes : List Nat) (rest : List Event),
    guarded.runFrom state (.panic future :: wakes.map .wake ++ call caller :: rest) =
      guarded.runFrom state (.ready future :: wakes.map .wake ++ rest)

/-- A call after some wakes, and the same wakes during the call. -/
private theorem call_after_wakes (executor : Executor.State) (caller : Caller) (wakes : List Nat) (rest : List Event) :
    guarded.runFrom { executor := { executor with control := .idle } } (wakes.map .wake ++ call caller :: rest) =
      guarded.runFrom { executor := { executor with control := .poll caller } } (wakes.map .wake ++ rest) := by
  induction wakes generalizing executor with
  | nil => cases caller <;> rfl
  | cons future wakes ih =>
    simp only [List.map_cons, List.cons_append, Machine.runFrom_cons]
    cases made : executor.wakers[future]? with
    | none => simp [guarded, step, made]
    | some task_id =>
      have sends (control : Control) : guarded.step { executor := { executor with control := control } } (.wake future) =
          some { executor := { executor.send task_id with control := control } } := by
        simp [guarded, step, made, Executor.State.send]
      rw [sends, sends, Option.bind_some, Option.bind_some]
      exact ih (executor.send task_id)

private theorem panic_step {executor : Executor.State} {caller : Caller} {task : Task}
    (control : executor.control = .polling caller task) :
    guarded.step { executor } (.panic task.future) = some { executor := { executor with control := .idle } } :=
  returns_eq_some.mpr ⟨rfl, caller, task, control, rfl, rfl⟩

private theorem ready_step {executor : Executor.State} {caller : Caller} {task : Task}
    (control : executor.control = .polling caller task) :
    guarded.step { executor } (.ready task.future) = some { executor := { executor with control := .poll caller } } :=
  returns_eq_some.mpr ⟨rfl, caller, task, control, rfl, rfl⟩

private theorem goes_on {state : State} {caller : Caller} {task : Task} (between : state.code = []) (unguarded : state.guards = {})
    (control : state.executor.control = .polling caller task) (wakes : List Nat) (rest : List Event) :
    guarded.runFrom state (.panic task.future :: wakes.map .wake ++ call caller :: rest) =
      guarded.runFrom state (.ready task.future :: wakes.map .wake ++ rest) := by
  obtain ⟨executor, code, guards⟩ := state
  subst between unguarded
  rw [List.cons_append, List.cons_append, Machine.runFrom_cons, Machine.runFrom_cons, panic_step control,
    ready_step control]
  exact call_after_wakes executor caller wakes rest

private theorem atomic_between {state : State} (between : state.code = []) : state.atomic = state.executor := by
  rw [State.atomic, between]
  rfl

private theorem inOneQueue {executor : Executor.State} {future : Nat} (placed : Executor.InOnePlace executor future)
    (idle : executor.control = .idle) : InOneQueue executor future := by
  rcases placed with ⟨once, elsewhere, _⟩ | ⟨unqueued, key, _⟩ | ⟨_, _, caller, task, control, _⟩
  · exact .inl ⟨once, elsewhere⟩
  · exact .inr ⟨unqueued, key⟩
  · rw [idle] at control
    cases control

/-- A panicking task harms no other task, as long as the ids are distinct. -/
theorem panics_unharmed {trace : List Event} {state next : State} {future : Nat} (reaches : guarded.Reaches trace state)
    (fewer : trace.count .spawn_rcv ≤ usizeSize) (panics : guarded.step state (.panic future) = some next) :
    Unharmed trace state future next := by
  have sound := reaches_sound reaches
  have stepped : Step state (.panic future) next := step_cases panics
  cases stepped with
  | @panic caller task between control =>
    have unguarded := sound.unguarded between
    have after := reaches.snoc panics
    have fits : state.unwind.atomic.spawned ≤ usizeSize := by
      show state.executor.spawned ≤ usizeSize
      rwa [spawned_eq reaches]
    obtain ⟨home, tracks⟩ := reaches_tracks after fits
    rw [atomic_between rfl] at tracks
    have ended : .ready task.future ∈ record (trace ++ [.panic task.future]) := mem_record.mpr (.inr (by simp))
    have gone {place : Executor.Place} : home task.future ≠ some place := fun placed => (tracks.of_placed placed).2 ended
    refine ⟨by simp [State.unwind, Guards.unwind, unguarded], rfl, ⟨⟨caller, task, control, rfl⟩, ?_, ?_, ?_⟩, ?_, ?_⟩
    · exact fun queued => gone (tracks.inPolling.mp queued)
    · exact fun parked => gone (tracks.inWaiting.mp parked)
    · exact fun stacked => gone (tracks.beingPolled.mp stacked)
    · intro other inside different unfinished calm
      apply inOneQueue (tracks.inOnePlace inside ?_) rfl
      rw [mem_record]
      simp [unfinished, calm, different]
    · intro other held same wakes rest
      rw [control] at same
      cases same
      exact goes_on between unguarded control wakes rest

/-- The second of three tasks panics while the first one waits with its wake
sent and the third one is still to be polled. -/
theorem panics_unharmed_middle :
    let spawn : List Event := [.spawn_rcv, .advance, .advance, .advance]
    let pop : List Event := [.advance, .advance, .advance, .advance]
    let trace := spawn ++ spawn ++ spawn ++ [.run] ++ pop ++ [.pending 0, .advance, .advance, .advance, .wake 0] ++ pop
    ∃ state next, guarded.Reaches trace state ∧ Unharmed trace state 1 next := by
  intro spawn pop trace
  have runs : ((guarded.runFrom guarded.init trace).bind fun state => guarded.step state (.panic 1)).isSome = true := by
    decide +kernel
  obtain ⟨next, found⟩ := Option.isSome_iff_exists.mp runs
  obtain ⟨state, reaches, panics⟩ := Option.bind_eq_some_iff.mp found
  exact ⟨state, next, reaches, panics_unharmed reaches (by decide) panics⟩

/-- A statement up to its action. -/
private theorem runs_action {executor after : Executor.State} {code : Code} {mutex : Mutex} {action : Action} (rest : List Event)
    (performs : action.perform executor [.drop mutex] = some (after, code)) :
    guarded.runFrom { executor, code := statement mutex action } (.advance :: .advance :: rest) =
      guarded.runFrom { executor := after, code, guards := { held := [mutex] } } rest := by
  simp [guarded, step, State.advance, statement, performs]

private theorem runs_drop {executor : Executor.State} {code : Code} {mutex : Mutex} (rest : List Event) :
    guarded.runFrom { executor, code := .drop mutex :: code, guards := { held := [mutex] } } (.advance :: rest) =
      guarded.runFrom { executor, code } rest := by
  simp [guarded, step, State.advance]

/-- A statement that leaves nothing of itself behind. -/
private theorem runs_statement {executor after : Executor.State} {mutex : Mutex} {action : Action} (rest : List Event)
    (performs : action.perform executor [.drop mutex] = some (after, [.drop mutex])) :
    guarded.runFrom { executor, code := statement mutex action } (.advance :: .advance :: .advance :: rest) =
      guarded.runFrom { executor := after } rest :=
  (runs_action _ performs).trans (runs_drop rest)

private theorem runs_begin {executor : Executor.State} {code : Code} (rest : List Event)
    (begins : begin_statement executor.control = some code) :
    guarded.runFrom { executor } (.advance :: rest) = guarded.runFrom { executor, code } rest := by
  simp [guarded, step, State.advance, begins]

/-- The first operand of `&&` is true, and the second one follows. -/
private theorem runs_operands {executor : Executor.State} (control : executor.control = .check) (empty : executor.polling = []) :
    guarded.runFrom { executor } (List.replicate 7 .advance) =
      some { executor := { executor with control := if executor.waiting.isEmpty then .idle else .recv } } := by
  have begins : begin_statement executor.control = some (statement .polling .polling_is_empty) := by rw [control]; rfl
  have first : Action.polling_is_empty.perform executor [.drop .polling] =
      some (executor, .drop .polling :: statement .waiting .waiting_is_empty) := by
    simp [Action.perform, empty]
  exact (runs_begin _ begins).trans ((runs_action _ first).trans ((runs_drop _).trans (runs_statement [] (by rfl))))

/-- The `if let` that brings a task back, to the end of its guard of `waiting`. -/
private theorem runs_remove (executor : Executor.State) (task_id : Nat) :
    ∃ count, guarded.runFrom { executor, code := statement .waiting (.remove task_id) } (List.replicate count .advance) =
      some { executor := executor.unpark task_id } := by
  unfold Executor.State.unpark
  cases parked : executor.waiting[task_id]? with
  | none =>
    have removes : (Action.remove task_id).perform executor [.drop .waiting] = some (executor, [.drop .waiting]) := by
      simp only [Action.perform, parked]
    exact ⟨3, runs_statement [] removes⟩
  | some task =>
    have removes : (Action.remove task_id).perform executor [.drop .waiting] =
        some ({ executor with waiting := executor.waiting.erase task_id },
          statement .polling (.push_back task) ++ [.drop .waiting]) := by
      simp only [Action.perform, parked]
    refine ⟨6, (runs_action _ removes).trans ?_⟩
    rfl

/-- The guards keep the executor from no step of its own. -/
theorem atomic_step {executor next : Executor.State} {atomic : Executor.Event} (stepped : Executor.Step executor atomic next) :
    ∃ events, guarded.runFrom { executor } events = some { executor := next } ∧
      (∀ future, .ready future ∈ events → atomic = .ready future) ∧ ∀ future, .panic future ∉ events := by
  cases stepped with
  | spawn_rcv outside =>
    have begins : guarded.step { executor } .spawn_rcv = some
        { executor := { executor with
            count := (executor.count + 1) % usizeSize, wakers := executor.wakers ++ [executor.count] }
          code := statement .polling (.push_back ⟨executor.wakers.length, executor.count⟩) } := by
      rcases outside with idle | ⟨caller, task, control⟩ <;> simp [guarded, step, *]
    refine ⟨[.spawn_rcv, .advance, .advance, .advance], ?_, by simp, by simp⟩
    rw [Machine.runFrom_cons, begins, Option.bind_some]
    show _ = guarded.runFrom { executor := executor.spawn_rcv } []
    apply runs_statement
    rfl
  | @wake future task_id made =>
    exact ⟨[.wake future], by simp [guarded, step, made], by simp, by simp⟩
  | run idle => exact ⟨[.run], by simp [guarded, step, idle], by simp, by simp⟩
  | poll idle => exact ⟨[.poll], by simp [guarded, step, idle], by simp, by simp⟩
  | pop control front =>
    refine ⟨[.advance, .advance, .advance, .advance], ?_, by simp, by simp⟩
    exact (runs_begin _ (by rw [control]; rfl)).trans (runs_statement [] (by simp [Action.perform, control, front]))
  | @pending caller task control =>
    have begins : guarded.step { executor } (.pending task.future) = some { executor, code := statement .waiting .insert } :=
      returns_eq_some.mpr ⟨rfl, caller, task, control, rfl, rfl⟩
    refine ⟨[.pending task.future, .advance, .advance, .advance], ?_, by simp, by simp⟩
    rw [Machine.runFrom_cons, begins]
    exact runs_statement [] (by simp [Action.perform, control])
  | @ready caller task control =>
    refine ⟨[.ready task.future], ?_, by simp, by simp⟩
    rw [Machine.runFrom_cons, ready_step control]
    rfl
  | drained control empty =>
    refine ⟨[.advance, .advance, .advance, .advance], ?_, by simp, by simp⟩
    exact (runs_begin _ (by rw [control]; rfl)).trans (runs_statement [] (by simp [Action.perform, control, empty]))
  | finish control polling waiting =>
    refine ⟨_, (runs_operands control polling).trans ?_, by simp, by simp⟩
    rw [if_pos waiting]
  | block control left =>
    by_cases empty : executor.polling = []
    · have parked : ¬ executor.waiting.isEmpty = true := fun last => left ⟨empty, last⟩
      refine ⟨_, (runs_operands control empty).trans ?_, by simp, by simp⟩
      rw [if_neg parked]
    · refine ⟨[.advance, .advance, .advance, .advance], ?_, by simp, by simp⟩
      exact (runs_begin _ (by rw [control]; rfl)).trans (runs_statement [] (by simp [Action.perform, empty]))
  | @recv task_id rest control head =>
    let received : Executor.State := { executor with channel := rest, control := .poll .run }
    have begins : guarded.step { executor } (.recv task_id) =
        some { executor := received, code := statement .waiting (.remove task_id) } := by
      simp [guarded, step, control, head, received]
    obtain ⟨count, runs⟩ := runs_remove received task_id
    refine ⟨.recv task_id :: List.replicate count .advance, ?_, by simp, by simp⟩
    rw [Machine.runFrom_cons, begins]
    exact runs

theorem atomic_reaches {trace : List Executor.Event} {executor : Executor.State}
    (reaches : Executor.executor.Reaches trace executor) :
    ∃ events, guarded.Reaches events { executor } ∧ (∀ future, .ready future ∈ events → .ready future ∈ trace) ∧
      ∀ future, .panic future ∉ events := by
  apply reaches.trace_invariant (fun trace executor => ∃ events, guarded.Reaches events { executor } ∧
    (∀ future, .ready future ∈ events → .ready future ∈ trace) ∧ ∀ future, .panic future ∉ events)
  · exact ⟨[], rfl, by simp, by simp⟩
  · intro trace executor event next _ earlier stepped
    obtain ⟨events, reached, ready, calm⟩ := earlier
    obtain ⟨more, runs, finishes, quiet⟩ := atomic_step (Executor.step_cases stepped)
    refine ⟨events ++ more, reached.append runs, fun future member => ?_, fun future member => ?_⟩
    · rcases List.mem_append.mp member with member | member
      · exact List.mem_append_left _ (ready future member)
      · exact List.mem_append_right _ (by simp [finishes future member])
    · rcases List.mem_append.mp member with member | member
      · exact calm future member
      · exact quiet future member

/-- Without a bound on the spawns a task can have been replaced in `waiting`
before another one panics, and is then nowhere. -/
theorem panic_after_wraparound :
    ¬ ∀ trace state future next, guarded.Reaches trace state → guarded.step state (.panic future) = some next →
      Unharmed trace state future next := by
  intro unharmed
  obtain ⟨future, wakers, trace, script, later, advances, replaced, made, unfinished, _⟩ := Executor.reaches_replaced
  have reaches := advances.invariant (fun trace script => Executor.executor.Reaches trace script.state)
    (Executor.started_reaches _) fun trace script events after earlier stepped =>
      Machine.Reaches.append earlier (PollingMachine.next_cases stepped).runs
  simp only [replaced] at reaches
  let task : Task := ⟨future, 0⟩
  let queued : Executor.State := .emptied future wakers [task] (.poll .run)
  let polled : Executor.State := .emptied future wakers [] (.polling .run task)
  have receives : Executor.executor.step (.replaced future wakers .recv) (.recv 0) = some queued :=
    (Executor.replaced_recv future wakers).sound
  have pops : Executor.executor.step queued (.pop future) = some polled :=
    (@Executor.Step.pop queued .run task [] rfl rfl).sound
  obtain ⟨events, reaches, ready, calm⟩ := atomic_reaches ((reaches.snoc receives).snoc pops)
  have first : 0 < wakers.length := (List.getElem?_eq_some_iff.mp made).1
  have kept := (unharmed _ _ future _ reaches (@panic_step polled .run task rfl)).others 0 first (Nat.ne_of_lt later)
    (fun member => by simpa [unfinished] using ready 0 member) (calm 0)
  rcases kept with ⟨once, _⟩ | ⟨_, key, ⟨task, found, _⟩, _⟩
  · simp [polled, Executor.State.emptied] at once
  · simp [polled, Executor.State.emptied] at found

end RustAsyncAwait.ExecutorGuards
