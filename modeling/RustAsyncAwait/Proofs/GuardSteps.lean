import RustAsyncAwait.ExecutorGuards
import Mathlib.Tactic.Common

/-! The guards of the executor's mutexes. Between two statements none is alive,
so none is while a future's own code runs, and a panic there poisons nothing. -/

namespace RustAsyncAwait.ExecutorGuards
open Library
open Executor (Task Caller Control usizeSize)

/-- What the actions do, and what they leave of the statement. -/
inductive Performs (executor : Executor.State) (rest : Code) : Action → Executor.State → Code → Prop
  | push_back {task} :
      Performs executor rest (.push_back task) { executor with polling := executor.polling ++ [task] } rest
  | pop_front {caller task tasks} (control : executor.control = .poll caller) (front : executor.polling = task :: tasks) :
      Performs executor rest .pop_front { executor with polling := tasks, control := .polling caller task } rest
  | drained {caller} (control : executor.control = .poll caller) (empty : executor.polling = []) :
      Performs executor rest .pop_front (executor.returnFromPoll caller) rest
  | insert {caller task} (control : executor.control = .polling caller task) :
      Performs executor rest .insert
        { executor with waiting := executor.waiting.insert task.task_id task, control := .poll caller } rest
  | first_operand (empty : executor.polling = []) :
      Performs executor rest .polling_is_empty executor (rest ++ statement .waiting .waiting_is_empty)
  | filled (left : executor.polling ≠ []) :
      Performs executor rest .polling_is_empty { executor with control := .recv } rest
  | second_operand :
      Performs executor rest .waiting_is_empty
        { executor with control := if executor.waiting.isEmpty then .idle else .recv } rest
  | found {task_id task} (parked : executor.waiting[task_id]? = some task) :
      Performs executor rest (.remove task_id) { executor with waiting := executor.waiting.erase task_id }
        (statement .polling (.push_back task) ++ rest)
  | absent {task_id} (missing : executor.waiting[task_id]? = none) : Performs executor rest (.remove task_id) executor rest

theorem perform_cases {executor after : Executor.State} {rest code : Code} {action : Action}
    (performs : action.perform executor rest = some (after, code)) : Performs executor rest action after code := by
  cases action with
  | push_back task => cases performs; exact .push_back
  | pop_front =>
    simp only [Action.perform] at performs
    split at performs
    next control front => cases performs; exact .pop_front control front
    next control empty => cases performs; exact .drained control empty
    next => cases performs
  | insert =>
    simp only [Action.perform] at performs
    split at performs
    next control => cases performs; exact .insert control
    next => cases performs
  | polling_is_empty =>
    simp only [Action.perform, List.isEmpty_iff] at performs
    split at performs
    next empty => cases performs; exact .first_operand empty
    next left => cases performs; exact .filled left
  | waiting_is_empty => cases performs; exact .second_operand
  | remove task_id =>
    simp only [Action.perform] at performs
    split at performs
    next parked => cases performs; exact .found parked
    next missing => cases performs; exact .absent missing

/-- What the thread does inside of the executor's code. -/
inductive Advance : State → State → Prop
  | start {state code} (between : state.code = []) (begins : begin_statement state.executor.control = some code) :
      Advance state { state with code }
  | lock {state mutex rest} (code : state.code = .lock mutex :: rest) (free : mutex ∉ state.guards.held)
      (clean : mutex ∉ state.guards.poisoned) :
      Advance state { state with code := rest, guards := { state.guards with held := mutex :: state.guards.held } }
  | poisoned {state mutex rest} (code : state.code = .lock mutex :: rest) (dirty : mutex ∈ state.guards.poisoned) :
      Advance state state.unwind
  | drop {state mutex rest} (code : state.code = .drop mutex :: rest) :
      Advance state { state with code := rest, guards := { state.guards with held := state.guards.held.erase mutex } }
  | act {state action rest executor code} (head : state.code = .act action :: rest)
      (performs : Performs state.executor rest action executor code) :
      Advance state { state with executor, code }

theorem advance_cases {state next : State} (advances : state.advance = some next) : Advance state next := by
  unfold State.advance at advances
  split at advances
  · rename_i between
    obtain ⟨code, begins, rfl⟩ := Option.map_eq_some_iff.mp advances
    exact .start between begins
  · rename_i mutex rest code
    split at advances
    · cases advances
    · rename_i free
      split at advances
      · rename_i dirty
        cases advances
        exact .poisoned code dirty
      · rename_i clean
        cases advances
        exact .lock code free clean
  · rename_i mutex rest code
    cases advances
    exact .drop code
  · rename_i action rest head
    obtain ⟨⟨executor, code⟩, performs, rfl⟩ := Option.map_eq_some_iff.mp advances
    exact .act head (perform_cases performs)

theorem returns_eq_some {state next : State} {future : Nat} {after : Caller → State} :
    state.returns future after = some next ↔
      state.code = [] ∧ ∃ caller task, state.executor.control = .polling caller task ∧ task.future = future ∧
        after caller = next := by
  unfold State.returns
  constructor
  · intro returned
    split at returned
    · rename_i caller task code control
      simp only [Option.ite_none_right_eq_some, Option.some.injEq] at returned
      exact ⟨code, caller, task, control, returned⟩
    · cases returned
  · intro returned
    obtain ⟨code, caller, task, control, same, rfl⟩ := returned
    simp only [code, control, same, if_true]

/-- All that one step can do, with the guards it passed. -/
inductive Step : State → Event → State → Prop
  | spawn_rcv {state} (between : state.code = [])
      (outside : state.executor.control = .idle ∨ ∃ caller task, state.executor.control = .polling caller task) :
      Step state .spawn_rcv { state with
        executor := { state.executor with
          count := (state.executor.count + 1) % usizeSize, wakers := state.executor.wakers ++ [state.executor.count] }
        code := statement .polling (.push_back ⟨state.executor.wakers.length, state.executor.count⟩) }
  | wake {state future task_id} (made : state.executor.wakers[future]? = some task_id) :
      Step state (.wake future) { state with executor := state.executor.send task_id }
  | run {state} (between : state.code = []) (idle : state.executor.control = .idle) :
      Step state .run { state with executor := { state.executor with control := .poll .run } }
  | poll {state} (between : state.code = []) (idle : state.executor.control = .idle) :
      Step state .poll { state with executor := { state.executor with control := .poll .owner } }
  | pending {state caller task} (between : state.code = []) (control : state.executor.control = .polling caller task) :
      Step state (.pending task.future) { state with code := statement .waiting .insert }
  | ready {state caller task} (between : state.code = []) (control : state.executor.control = .polling caller task) :
      Step state (.ready task.future) { state with executor := { state.executor with control := .poll caller } }
  | panic {state caller task} (between : state.code = []) (control : state.executor.control = .polling caller task) :
      Step state (.panic task.future) state.unwind
  | recv {state task_id rest} (between : state.code = []) (control : state.executor.control = .recv)
      (head : state.executor.channel = task_id :: rest) :
      Step state (.recv task_id) { state with
        executor := { state.executor with channel := rest, control := .poll .run }
        code := statement .waiting (.remove task_id) }
  | advance {state next} (advances : Advance state next) : Step state .advance next

theorem step_cases {state next : State} {event : Event} (stepped : step state event = some next) :
    Step state event next := by
  cases event with
  | spawn_rcv =>
    simp only [step] at stepped
    split at stepped
    next between idle => cases stepped; exact .spawn_rcv between (.inl idle)
    next caller task between held => cases stepped; exact .spawn_rcv between (.inr ⟨caller, task, held⟩)
    next => cases stepped
  | wake future =>
    obtain ⟨task_id, made, rfl⟩ := Option.map_eq_some_iff.mp stepped
    exact .wake made
  | run =>
    simp only [step, Option.ite_none_right_eq_some, Option.some.injEq] at stepped
    obtain ⟨⟨between, idle⟩, rfl⟩ := stepped
    exact .run between idle
  | poll =>
    simp only [step, Option.ite_none_right_eq_some, Option.some.injEq] at stepped
    obtain ⟨⟨between, idle⟩, rfl⟩ := stepped
    exact .poll between idle
  | pending future =>
    obtain ⟨between, caller, task, control, rfl, rfl⟩ := returns_eq_some.mp stepped
    exact .pending between control
  | ready future =>
    obtain ⟨between, caller, task, control, rfl, rfl⟩ := returns_eq_some.mp stepped
    exact .ready between control
  | panic future =>
    obtain ⟨between, caller, task, control, rfl, rfl⟩ := returns_eq_some.mp stepped
    exact .panic between control
  | recv task_id =>
    simp only [step] at stepped
    split at stepped
    next received rest between control head =>
      simp only [Option.ite_none_right_eq_some, Option.some.injEq] at stepped
      obtain ⟨rfl, rfl⟩ := stepped
      exact .recv between control head
    next => cases stepped
  | advance => exact .advance (advance_cases stepped)

/-- The deque and the map are only touched under their guards, and `remove` without the other one. -/
def Action.under : Action → List Mutex → Prop
  | .push_back _ | .pop_front | .polling_is_empty => fun held => .polling ∈ held
  | .insert | .waiting_is_empty => fun held => .waiting ∈ held
  | .remove _ => fun held => .waiting ∈ held ∧ .polling ∉ held

/-- The invariant of the guards, with what `&&` has found when its second operand is evaluated. -/
structure Sound (state : State) : Prop where
  bracketed : Bracketed Action.under state.guards.held state.code
  clean : state.guards.poisoned = []
  single : OneAction state.code
  asked : .act .polling_is_empty ∈ state.code ∨ .act .waiting_is_empty ∈ state.code → state.executor.control = .check
  emptied : .act .waiting_is_empty ∈ state.code → state.executor.polling = []

theorem sound_init : Sound {} := ⟨rfl, rfl, trivial, by simp, by simp⟩

/-- Between two statements no guard is alive. -/
theorem Sound.unguarded {state : State} (sound : Sound state) (between : state.code = []) : state.guards = {} := by
  have bracketed := sound.bracketed
  rw [between] at bracketed
  obtain ⟨executor, code, held, poisoned⟩ := state
  cases bracketed
  cases sound.clean
  rfl

private theorem Sound.begins {state next : State} (sound : Sound state) (between : state.code = [])
    {mutex : Mutex} {action : Action} (code : next.code = statement mutex action)
    (under : action.under [mutex]) (unasked : action ≠ .waiting_is_empty)
    (checks : action = .polling_is_empty → next.executor.control = .check) (guards : next.guards = state.guards) : Sound next := by
  have unguarded := sound.unguarded between
  rw [← guards] at unguarded
  have only : ∀ other, .act other ∈ next.code → other = action := by
    intro other member
    rw [code] at member
    simpa only [statement, List.mem_cons, reduceCtorEq, List.not_mem_nil, or_false, false_or, Instr.act.injEq] using member
  refine ⟨?_, by rw [unguarded], ?_, fun member => ?_, fun member => ?_⟩
  · rw [unguarded, code, ← List.append_nil (statement _ _)]
    exact bracketed_statement (by simp) under rfl
  · rw [code, ← List.append_nil (statement _ _)]
    exact oneAction_statement _ _ (by simp)
  · rcases member with member | member
    · exact checks (only _ member).symm
    · exact absurd (only _ member).symm unasked
  · exact absurd (only _ member).symm unasked

/-- A step between two statements that leaves no code behind. -/
private theorem Sound.between {state next : State} (sound : Sound state) (between : state.code = [])
    (code : next.code = []) (guards : next.guards = state.guards) : Sound next := by
  have unguarded := sound.unguarded between
  rw [← guards] at unguarded
  refine ⟨?_, by rw [unguarded], by rw [code]; trivial, by simp [code], by simp [code]⟩
  rw [unguarded, code]
  rfl

theorem Sound.advance {state next : State} (sound : Sound state) (advances : Advance state next) : Sound next := by
  have ⟨bracketed, clean, single, asked, emptied⟩ := sound
  cases advances with
  | @start code between begins =>
    cases control : state.executor.control with
    | poll caller =>
      simp only [control, begin_statement, Option.some.injEq] at begins
      exact sound.begins between begins.symm (by simp [Action.under]) (by simp) (by simp) rfl
    | check =>
      simp only [control, begin_statement, Option.some.injEq] at begins
      exact sound.begins between begins.symm (by simp [Action.under]) (by simp) (fun _ => control) rfl
    | idle | polling | recv => simp [control, begin_statement] at begins
  | lock code free _ =>
    rw [code] at bracketed single asked emptied
    refine ⟨bracketed.2, clean, single, fun member => asked ?_, fun member => emptied (List.mem_cons_of_mem _ member)⟩
    exact member.imp (List.mem_cons_of_mem _) (List.mem_cons_of_mem _)
  | poisoned code dirty => simp [clean] at dirty
  | @drop mutex rest code =>
    rw [code] at bracketed single asked emptied
    obtain ⟨others, held, bracketed⟩ := bracketed
    refine ⟨?_, clean, single, fun member => asked ?_, fun member => emptied (List.mem_cons_of_mem _ member)⟩
    · simpa only [held, List.erase_cons_head] using bracketed
    · exact member.imp (List.mem_cons_of_mem _) (List.mem_cons_of_mem _)
  | @act action rest executor code head performs =>
    rw [head] at bracketed single asked emptied
    have drops : ∀ action : Action, .act action ∉ rest := by
      intro action member
      obtain ⟨mutex, same⟩ := single _ member
      cases same
    have plain : OneAction rest := by simpa [OneAction] using oneAction_drops single []
    have quiet {executor : Executor.State} : .act .waiting_is_empty ∈ rest → executor.polling = [] :=
      fun member => absurd member (drops _)
    have silent {executor : Executor.State} :
        .act .polling_is_empty ∈ rest ∨ .act .waiting_is_empty ∈ rest → executor.control = .check :=
      fun member => absurd member (by simp [drops])
    cases performs with
    | push_back | pop_front | drained | insert | filled | second_operand | absent =>
      exact ⟨bracketed.2, clean, plain, silent, quiet⟩
    | first_operand empty =>
      refine ⟨Bracketed.append bracketed.2 ?_, clean, ?_, fun _ => asked (by simp), fun _ => empty⟩
      · exact ⟨by simp, by simp [Action.under], _, rfl, rfl⟩
      · exact (oneAction_drops single _).mpr (oneAction_statement _ _ (by simp))
    | found parked =>
      refine ⟨?_, clean, oneAction_statement _ _ single, ?_, ?_⟩
      · exact bracketed_statement bracketed.1.2 (by simp [Action.under]) bracketed.2
      · simpa [statement] using silent
      · simpa [statement] using quiet

theorem Sound.step {state next : State} {event : Event} (sound : Sound state) (stepped : Step state event next) :
    Sound next := by
  cases stepped with
  | spawn_rcv between => exact sound.begins between rfl (by simp [Action.under]) (by simp) (by simp) rfl
  | wake => exact { sound with }
  | run between | poll between => exact sound.between between between rfl
  | pending between => exact sound.begins between rfl (by simp [Action.under]) (by simp) (by simp) rfl
  | ready between => exact sound.between between between rfl
  | panic between =>
    apply sound.between between rfl
    rw [State.unwind, sound.unguarded between]
    rfl
  | recv between => exact sound.begins between rfl (by simp [Action.under]) (by simp) (by simp) rfl
  | advance advances => exact sound.advance advances

/-- Neither mutex is ever poisoned, and no guard is alive while a future's code runs. -/
theorem reaches_sound {trace : List Event} {state : State} (reaches : guarded.Reaches trace state) : Sound state :=
  reaches.invariant Sound sound_init fun _ _ _ sound stepped => sound.step (step_cases stepped)

end RustAsyncAwait.ExecutorGuards
