import RustAsyncAwait.AsyncRuntime
import RustAsyncAwait.Library.Lists
import Mathlib.Data.List.Nodup

/-! The order in which the executor of chap10 polls its tasks, and in which
their results are delivered. -/

namespace RustAsyncAwait.AsyncRuntime
open Library

/-- What each event does. -/
inductive Step (state : State) : Event → State → Prop
  | spawn (idle : state.running = none) :
      Step state .spawn { state with polling := state.polling ++ [state.spawned], spawned := state.spawned + 1 }
  | wake {task : Nat} (made : task < state.spawned) : Step state (.wake task) state
  | poll {task : Nat} {rest : List Nat} (idle : state.running = none) (first : state.polling = task :: rest) :
      Step state (.poll task) { state with polling := rest, running := some task }
  | pending {task : Nat} (running : state.running = some task) :
      Step state (.pending task) { state with polling := state.polling ++ [task], running := none }
  | ready {task : Nat} (running : state.running = some task) : Step state (.ready task) { state with running := none }
  | empty (idle : state.running = none) (none : state.polling = []) : Step state .empty state

theorem step_cases {state next : State} {event : Event} (stepped : step state event = some next) :
    Step state event next := by
  cases event with
  | spawn =>
    simp only [step, Option.ite_none_right_eq_some, Option.some.injEq] at stepped
    obtain ⟨idle, rfl⟩ := stepped
    exact .spawn idle
  | wake task =>
    simp only [step, Option.ite_none_right_eq_some, Option.some.injEq] at stepped
    obtain ⟨made, rfl⟩ := stepped
    exact .wake made
  | poll task =>
    simp only [step] at stepped
    split at stepped
    · rename_i first rest idle polling
      simp only [Option.ite_none_right_eq_some, Option.some.injEq] at stepped
      obtain ⟨rfl, rfl⟩ := stepped
      exact .poll idle polling
    · cases stepped
  | pending task =>
    simp only [step, Option.ite_none_right_eq_some, Option.some.injEq] at stepped
    obtain ⟨running, rfl⟩ := stepped
    exact .pending running
  | ready task =>
    simp only [step, Option.ite_none_right_eq_some, Option.some.injEq] at stepped
    obtain ⟨running, rfl⟩ := stepped
    exact .ready running
  | empty =>
    simp only [step, Option.ite_none_right_eq_some, Option.some.injEq] at stepped
    obtain ⟨⟨idle, none⟩, rfl⟩ := stepped
    exact .empty idle none

/-- The task that a call of `poll` takes, if the event is such a call. -/
def Event.call : Event → Option (Option Nat)
  | .poll task => some (some task)
  | .empty => some none
  | _ => none

def calls (trace : List Event) : List (Option Nat) := trace.filterMap Event.call

/-- The tasks that have returned `Ready`, in this order. Each sends its result in that poll. -/
def completions (trace : List Event) : List Nat :=
  trace.filterMap fun
    | .ready task => some task
    | _ => none

/-- What the receiver of a task has got, if its future gives this value. -/
def received {V : Type} (values : Nat → V) (task : Nat) (trace : List Event) : List V :=
  ((completions trace).filter (· = task)).map values

/-- Each task is in the deque once, or is being polled. -/
def Distinct (state : State) : Prop :=
  (state.running.toList ++ state.polling).Nodup ∧ ∀ task ∈ state.running.toList ++ state.polling, task < state.spawned

theorem reaches_distinct {trace : List Event} {state : State} (reaches : executor.Reaches trace state) :
    Distinct state := by
  refine reaches.invariant Distinct ⟨by simp [executor], by simp [executor]⟩ ?_
  intro state event next distinct stepped
  obtain ⟨unique, made⟩ := distinct
  cases step_cases stepped with
  | spawn idle =>
    rw [idle, Option.toList_none, List.nil_append] at unique made
    simp only [Distinct, idle, Option.toList_none, List.nil_append]
    constructor
    · rw [List.nodup_append]
      refine ⟨unique, by simp, fun task member other same => ?_⟩
      have below := made task member
      have last := List.mem_singleton.mp same
      omega
    · intro task member
      rcases List.mem_append.mp member with old | new
      · exact Nat.lt_succ_of_lt (made task old)
      · rw [List.mem_singleton.mp new]
        exact Nat.lt_succ_self _
  | wake _ => exact ⟨unique, made⟩
  | poll idle first =>
    rw [idle, first, Option.toList_none, List.nil_append] at unique made
    exact ⟨unique, made⟩
  | pending running =>
    rw [running, Option.toList_some] at unique made
    refine ⟨?_, ?_⟩
    · simpa using List.nodup_append_comm.mp unique
    · intro task member
      exact made task (by simpa [or_comm] using member)
  | ready running =>
    rw [running, Option.toList_some] at unique made
    exact ⟨(List.nodup_cons.mp unique).2, fun task member => made task (List.mem_cons_of_mem _ member)⟩
  | empty _ _ => exact ⟨unique, made⟩

/-- The calls that follow take the tasks of the deque one after the other. -/
theorem next_calls {trace : List Event} {state final : State} (runs : executor.runFrom state trace = some final)
    {position task : Nat} (at_position : state.polling[position]? = some task) {polled : Option Nat}
    (called : (calls trace)[position]? = some polled) : polled = some task := by
  induction trace generalizing state position with
  | nil => simp [calls] at called
  | cons event trace ih =>
    obtain ⟨next, stepped, runs⟩ := Option.bind_eq_some_iff.mp runs
    have inside := (List.getElem?_eq_some_iff.mp at_position).1
    cases step_cases stepped with
    | spawn idle | pending running =>
      exact ih runs (by rw [List.getElem?_append_left inside, at_position]) called
    | wake _ | ready _ => exact ih runs at_position called
    | poll idle first =>
      rw [first] at at_position
      cases position with
      | zero =>
        cases at_position
        cases called
        rfl
      | succ position => exact ih runs at_position called
    | empty _ none => simp [none] at inside

/-- How often a task has been polled. -/
def turns (polls : List Event) (task : Nat) : Nat := polls.count (.poll task)

/-- `needs` says how many polls each task takes: all but the last are pending. -/
def Needs (needs : List Nat) (polls : List Event) : Prop :=
  ∀ first event second, polls = first ++ event :: second → ∀ task need, needs[task]? = some need →
    (event = .pending task → turns first task < need) ∧ (event = .ready task → turns first task = need)

theorem needs_iff {needs : List Nat} {polls : List Event} :
    Needs needs polls ↔ ∀ index < polls.length, ∀ task < needs.length,
      (polls[index]? = some (.pending task) → turns (polls.take index) task < needs.getD task 0) ∧
      (polls[index]? = some (.ready task) → turns (polls.take index) task = needs.getD task 0) := by
  constructor
  · intro follows index inside task made
    have split : polls = polls.take index ++ polls[index] :: polls.drop (index + 1) := by
      rw [← List.drop_eq_getElem_cons, List.take_append_drop]
    have here := follows _ _ _ split task (needs.getD task 0) (by simp [made])
    simpa only [List.getElem?_eq_getElem inside, Option.some.injEq] using here
  · intro each first event second same task need needed
    subst same
    obtain ⟨made, rfl⟩ := List.getElem?_eq_some_iff.mp needed
    have here := each first.length (by simp) task made
    simpa [made] using here

instance (needs : List Nat) (polls : List Event) : Decidable (Needs needs polls) := decidable_of_iff _ needs_iff.symm

/-- The lexicographic order. -/
def Before (one other : Nat × Nat) : Prop := one.1 < other.1 ∨ one.1 = other.1 ∧ one.2 < other.2

def Event.isPoll : Event → Bool
  | .poll _ => true
  | _ => false

def turn (polls : List Event) (task : Nat) : Nat × Nat := (turns polls task, task)

@[simp] theorem turns_nil (task : Nat) : turns [] task = 0 := rfl

theorem turns_self (polls : List Event) (task : Nat) : turns (polls ++ [.poll task]) task = turns polls task + 1 := by
  simp [turns]

theorem turns_other {polls : List Event} {task other : Nat} (different : other ≠ task) :
    turns (polls ++ [.poll task]) other = turns polls other := by
  simp [turns, Ne.symm different]

/-- Where the rounds stand. A task is ahead of another in the deque if it has
had fewer polls, or as many and was spawned earlier; no task is a whole round ahead. -/
structure Rotation (needs : List Nat) (polls : List Event) (state : State) : Prop where
  distinct : (state.running.toList ++ state.polling ++ completions polls).Nodup
  everywhere : ∀ task, task ∈ state.running.toList ++ state.polling ++ completions polls ↔ task < needs.length
  rounds : (state.polling ++ state.running.toList).Pairwise fun one other =>
    Before (turn polls one) (turn polls other) ∧ Before (turn polls other) (turns polls one + 1, one)
  left : ∀ task ∈ state.polling, turns polls task < needs.getD task 0
  polled : ∀ task, state.running = some task → 1 ≤ turns polls task ∧ turns polls task ≤ needs.getD task 0
  complete : ∀ task ∈ completions polls, turns polls task = needs.getD task 0
  delivered : (completions polls).Pairwise fun one other => Before (needs.getD one 0, one) (needs.getD other 0, other)
  later : ∀ done ∈ completions polls, (∀ task ∈ state.polling,
    Before (needs.getD done 0, done) (turns polls task + 1, task)) ∧
      ∀ task, state.running = some task → Before (needs.getD done 0, done) (turn polls task)
  total : polls.countP Event.isPoll +
    ((state.running.toList ++ state.polling).map fun task => needs.getD task 0 - turns polls task).sum = needs.sum
  idle : .empty ∈ polls → state.running = none ∧ state.polling = []

theorem turns_quiet {event : Event} (quiet : event.isPoll = false) (polls : List Event) (task : Nat) :
    turns (polls ++ [event]) task = turns polls task := by
  rw [turns, List.count_append, List.count_singleton, if_neg]
  · rfl
  · intro same
    rw [beq_iff_eq] at same
    rw [same] at quiet
    cases quiet

theorem needs_before {needs : List Nat} {polls : List Event} {event : Event} (follows : Needs needs (polls ++ [event])) :
    Needs needs polls := by
  intro first other second split
  exact follows first other (second ++ [event]) (by simp [split])

namespace Rotation
variable {needs : List Nat} {polls : List Event} {state : State}

theorem initial (positive : ∀ need ∈ needs, 1 ≤ need) :
    Rotation needs [] ⟨List.range needs.length, needs.length, none⟩ := by
  have total : ((List.range needs.length).map fun task => needs.getD task 0).sum = needs.sum := by
    congr 1
    apply List.ext_getElem?
    intro index
    by_cases inside : index < needs.length
    · simp [inside]
    · simp [inside]
  refine ⟨?_, ?_, ?_, ?_, ?_, ?_, ?_, ?_, ?_, ?_⟩
  · simp [completions, List.nodup_range]
  · simp [completions]
  · rw [Option.toList_none, List.append_nil]
    refine List.pairwise_lt_range.imp fun {one other} below => ?_
    simp [turn, Before, below]
  · intro task member
    have inside := List.mem_range.mp member
    have above := positive needs[task] (List.getElem_mem inside)
    simpa [inside] using Nat.lt_of_lt_of_le Nat.zero_lt_one above
  · intro task running
    cases running
  · simp [completions]
  · simp [completions]
  · simp [completions]
  · simpa using total
  · simp

/-- A step that polls nothing and completes nothing. -/
theorem quiet (rotation : Rotation needs polls state) {event : Event} (silent : event.isPoll = false)
    (open_ : completions (polls ++ [event]) = completions polls)
    (idle : event = .empty → state.running = none ∧ state.polling = []) : Rotation needs (polls ++ [event]) state := by
  have same := turns_quiet silent polls
  have none : (polls ++ [event]).countP Event.isPoll = polls.countP Event.isPoll := by
    simp [List.countP_append, silent]
  obtain ⟨distinct, everywhere, rounds, left, polled, complete, delivered, later, total, before⟩ := rotation
  refine ⟨?_, ?_, ?_, ?_, ?_, ?_, ?_, ?_, ?_, ?_⟩
  · rwa [open_]
  · rwa [open_]
  · simpa only [turn, same] using rounds
  · simpa only [same] using left
  · simpa only [same] using polled
  · simpa only [open_, same] using complete
  · rwa [open_]
  · simpa only [open_, turn, same] using later
  · simpa only [none, same] using total
  · intro member
    rcases List.mem_append.mp member with old | new
    · exact before old
    · exact idle (List.mem_singleton.mp new).symm

theorem polls_first (rotation : Rotation needs polls state) {task : Nat} {rest : List Nat} (idle : state.running = none)
    (first : state.polling = task :: rest) :
    Rotation needs (polls ++ [.poll task]) { state with polling := rest, running := some task } := by
  obtain ⟨distinct, everywhere, rounds, left, polled, complete, delivered, later, total, before⟩ := rotation
  have open_ : completions (polls ++ [.poll task]) = completions polls := by simp [completions]
  rw [idle, first] at distinct everywhere rounds total
  rw [first] at left
  simp only [Option.toList_none, List.nil_append, List.cons_append, List.nodup_cons] at distinct
  have others : ∀ other ∈ rest, turns (polls ++ [.poll task]) other = turns polls other := by
    intro other member
    apply turns_other
    intro same
    subst same
    exact distinct.1 (List.mem_append_left _ member)
  have done : ∀ other ∈ completions polls, turns (polls ++ [.poll task]) other = turns polls other := by
    intro other member
    apply turns_other
    intro same
    subst same
    exact distinct.1 (List.mem_append_right _ member)
  rw [Option.toList_none, List.append_nil, List.pairwise_cons] at rounds
  refine ⟨?_, ?_, ?_, ?_, ?_, ?_, ?_, ?_, ?_, ?_⟩
  · rw [open_]
    exact List.nodup_cons.mpr distinct
  · intro other
    rw [open_]
    exact everywhere other
  · rw [Option.toList_some, List.pairwise_append]
    refine ⟨rounds.2.imp_of_mem fun {one other} member also ahead => ?_, List.pairwise_singleton _ _, ?_⟩
    · simpa only [turn, others one member, others other also] using ahead
    · intro other member last here
      rw [List.mem_singleton.mp here]
      have ahead := rounds.1 other member
      simp only [turn, others other member, turns_self, Before] at ahead ⊢
      omega
  · intro other member
    rw [others other member]
    exact left other (List.mem_cons_of_mem _ member)
  · intro other running
    cases running
    have more := left task (List.mem_cons_self ..)
    rw [turns_self]
    omega
  · intro other member
    rw [open_] at member
    rw [done other member, complete other member]
  · rwa [open_]
  · intro other member
    rw [open_] at member
    obtain ⟨behind, _⟩ := later other member
    rw [first] at behind
    refine ⟨fun waiting at_rest => ?_, fun running polled => ?_⟩
    · rw [others waiting at_rest]
      exact behind waiting (List.mem_cons_of_mem _ at_rest)
    · cases polled
      rw [turn, turns_self]
      exact behind task (List.mem_cons_self ..)
  · have more := left task (List.mem_cons_self ..)
    have unchanged : rest.map (fun other => needs.getD other 0 - turns (polls ++ [.poll task]) other) =
        rest.map fun other => needs.getD other 0 - turns polls other :=
      List.map_congr_left fun other member => by rw [others other member]
    simp only [Option.toList_none, Option.toList_some, List.nil_append, List.cons_append, List.map_cons,
      List.sum_cons] at total ⊢
    rw [unchanged, turns_self, List.countP_append, List.countP_singleton]
    simp only [Event.isPoll, if_true]
    omega
  · intro member
    have old : .empty ∈ polls := by simpa using member
    have stopped := before old
    rw [first] at stopped
    cases stopped.2

theorem need (rotation : Rotation needs polls state) {task : Nat} (running : state.running = some task) :
    needs[task]? = some (needs.getD task 0) := by
  have inside := (rotation.everywhere task).mp (by simp [running])
  simp [inside]

theorem parks (rotation : Rotation needs polls state) {task : Nat} (follows : Needs needs (polls ++ [.pending task]))
    (running : state.running = some task) :
    Rotation needs (polls ++ [.pending task]) { state with polling := state.polling ++ [task], running := none } := by
  have more := (follows polls _ [] rfl task _ (rotation.need running)).1 rfl
  have same := turns_quiet (show (Event.pending task).isPoll = false from rfl) polls
  have open_ : completions (polls ++ [.pending task]) = completions polls := by simp [completions]
  have moved : (state.polling ++ [task]).Perm (task :: state.polling) := List.perm_append_singleton _ _
  obtain ⟨distinct, everywhere, rounds, left, polled, complete, delivered, later, total, before⟩ := rotation
  rw [running] at distinct everywhere rounds total
  simp only [Option.toList_some, List.singleton_append] at distinct everywhere rounds total
  refine ⟨?_, ?_, ?_, ?_, ?_, ?_, ?_, ?_, ?_, ?_⟩
  · rw [open_]
    exact ((moved.append_right _).nodup_iff).mpr distinct
  · intro other
    rw [open_, ← everywhere other]
    exact (moved.append_right _).mem_iff
  · simpa only [turn, same, Option.toList_none, List.append_nil] using rounds
  · intro other member
    rw [same]
    rcases List.mem_append.mp member with old | new
    · exact left other old
    · rw [List.mem_singleton.mp new]
      exact more
  · intro other polled
    cases polled
  · simpa only [open_, same] using complete
  · rwa [open_]
  · intro other member
    rw [open_] at member
    obtain ⟨behind, current⟩ := later other member
    refine ⟨fun waiting at_end => ?_, fun _ polled => (by cases polled)⟩
    rw [same]
    rcases List.mem_append.mp at_end with old | new
    · exact behind waiting old
    · rw [List.mem_singleton.mp new]
      have ahead := current task running
      simp only [turn, Before] at ahead ⊢
      omega
  · have sums := (moved.map fun other => needs.getD other 0 - turns polls other).sum_nat
    simp only [same, Option.toList_none, List.nil_append, sums]
    simpa [List.countP_append, Event.isPoll] using total
  · intro member
    have stopped := before (by simpa using member)
    rw [running] at stopped
    cases stopped.1

theorem finishes (rotation : Rotation needs polls state) {task : Nat} (follows : Needs needs (polls ++ [.ready task]))
    (running : state.running = some task) :
    Rotation needs (polls ++ [.ready task]) { state with running := none } := by
  have last := (follows polls _ [] rfl task _ (rotation.need running)).2 rfl
  have same := turns_quiet (show (Event.ready task).isPoll = false from rfl) polls
  have closed : completions (polls ++ [.ready task]) = completions polls ++ [task] := by simp [completions]
  obtain ⟨distinct, everywhere, rounds, left, polled, complete, delivered, later, total, before⟩ := rotation
  have moved : (state.polling ++ (completions polls ++ [task])).Perm (task :: (state.polling ++ completions polls)) := by
    rw [← List.append_assoc]
    exact List.perm_append_singleton _ _
  rw [running] at distinct everywhere rounds total
  simp only [Option.toList_some, List.cons_append] at distinct everywhere total
  rw [Option.toList_some, List.pairwise_append] at rounds
  refine ⟨?_, ?_, ?_, ?_, ?_, ?_, ?_, ?_, ?_, ?_⟩
  · rw [closed]
    exact moved.nodup_iff.mpr distinct
  · intro other
    rw [closed, ← everywhere other]
    exact moved.mem_iff
  · simpa only [turn, same, Option.toList_none, List.append_nil] using rounds.1
  · simpa only [same] using left
  · intro other polled
    cases polled
  · intro other member
    rw [closed] at member
    rw [same]
    rcases List.mem_append.mp member with old | new
    · exact complete other old
    · rw [List.mem_singleton.mp new]
      exact last
  · rw [closed, List.pairwise_append]
    refine ⟨delivered, List.pairwise_singleton _ _, ?_⟩
    intro other member ready here
    rw [List.mem_singleton.mp here, ← last]
    exact (later other member).2 task running
  · intro other member
    rw [closed] at member
    refine ⟨fun waiting at_polling => ?_, fun _ polled => (by cases polled)⟩
    rw [same]
    rcases List.mem_append.mp member with old | new
    · exact (later other old).1 waiting at_polling
    · rw [List.mem_singleton.mp new, ← last]
      exact (rounds.2.2 waiting at_polling task (List.mem_singleton_self _)).2
  · have none : needs.getD task 0 - turns polls task = 0 := by omega
    simp only [List.map_cons, List.sum_cons, none, Nat.zero_add] at total
    simp only [same, Option.toList_none, List.nil_append]
    simpa [List.countP_append, Event.isPoll] using total
  · intro member
    have stopped := before (by simpa using member)
    rw [running] at stopped
    cases stopped.1

end Rotation

theorem reaches_spawns (count : Nat) :
    executor.Reaches (List.replicate count .spawn) ⟨List.range count, count, none⟩ := by
  induction count with
  | zero => exact .nil
  | succ count ih =>
    rw [List.replicate_succ', List.range_succ]
    exact ih.snoc (by simp [executor, step])

/-- No future is polled after it has returned `Ready`. -/
def Unpolled (polls : List Event) : Prop := ∀ task, ¬ [Event.ready task, .poll task].Sublist polls

theorem Unpolled.snoc {polls : List Event} {event : Event} (unpolled : Unpolled polls)
    (fresh : ∀ task, event = .poll task → task ∉ completions polls) : Unpolled (polls ++ [event]) := by
  intro task before
  rcases before_snoc.mp before with old | ⟨ready, polled⟩
  · exact unpolled task old
  · exact fresh task polled.symm (List.mem_filterMap.mpr ⟨_, ready, rfl⟩)

theorem runs_rotation {needs : List Nat} {polls : List Event} {state : State} (positive : ∀ need ∈ needs, 1 ≤ need)
    (runs : executor.runFrom ⟨List.range needs.length, needs.length, none⟩ polls = some state) (closed : .spawn ∉ polls)
    (follows : Needs needs polls) : Rotation needs polls state ∧ Unpolled polls := by
  induction polls using List.reverseRecOn generalizing state with
  | nil =>
    cases runs
    exact ⟨.initial positive, fun task before => (by cases before)⟩
  | append_singleton polls event ih =>
    obtain ⟨before, earlier, last⟩ := (Machine.runFrom_append_some executor).mp runs
    have stepped : step before event = some state := by simpa [executor] using last
    obtain ⟨rotation, unpolled⟩ := ih earlier (fun member => closed (List.mem_append_left _ member)) (needs_before follows)
    cases step_cases stepped with
    | spawn _ => exact absurd (List.mem_append_right _ (List.mem_singleton_self _)) closed
    | wake _ =>
      exact ⟨rotation.quiet rfl (by simp [completions]) fun other => (by cases other),
        unpolled.snoc fun _ other => (by cases other)⟩
    | poll idle first =>
      refine ⟨rotation.polls_first idle first, unpolled.snoc fun task same done => ?_⟩
      cases same
      have distinct := rotation.distinct
      rw [idle, first, Option.toList_none, List.nil_append, List.cons_append, List.nodup_cons] at distinct
      exact distinct.1 (List.mem_append_right _ done)
    | pending running => exact ⟨rotation.parks follows running, unpolled.snoc fun _ other => (by cases other)⟩
    | ready running => exact ⟨rotation.finishes follows running, unpolled.snoc fun _ other => (by cases other)⟩
    | empty idle none =>
      exact ⟨rotation.quiet rfl (by simp [completions]) fun _ => ⟨idle, none⟩,
        unpolled.snoc fun _ other => (by cases other)⟩

theorem calls_length (polls : List Event) :
    (calls polls).length = polls.countP Event.isPoll + polls.count .empty := by
  induction polls with
  | nil => rfl
  | cons event polls ih =>
    rw [calls, List.filterMap_cons, List.countP_cons, List.count_cons]
    cases event with
    | poll task | empty =>
      simp only [Event.call, List.length_cons, Event.isPoll]
      simp only [calls] at ih
      simp [ih]
      omega
    | spawn | wake task | pending task | ready task =>
      simp only [Event.call, Event.isPoll]
      simpa [calls] using ih

/-- The polls of tasks that were spawned up front, as far as they have got. -/
structure Scheduled (needs : List Nat) (polls : List Event) (state : State) : Prop where
  ordered : (completions polls).Pairwise fun one other => Before (needs.getD one 0, one) (needs.getD other 0, other)
  once : ∀ (V : Type) (values : Nat → V) (task : Nat), received values task polls = [] ∨
    received values task polls = [values task]
  unpolled : Unpolled polls
  empties : state.running = none → (state.polling = [] ↔ needs.sum ≤ (calls polls).length)
  all : state.running = none → state.polling = [] → ∀ (V : Type) (values : Nat → V) (task : Nat), task < needs.length →
    received values task polls = [values task]

theorem received_of_nodup {V : Type} {values : Nat → V} {task : Nat} {polls : List Event}
    (distinct : (completions polls).Nodup) :
    received values task polls = if task ∈ completions polls then [values task] else [] := by
  rw [received, List.filter_eq, List.Nodup.count distinct]
  split
  · rfl
  · rfl

theorem needs_snoc {needs : List Nat} {polls : List Event} {event : Event} (follows : Needs needs polls)
    (last : ∀ task need, needs[task]? = some need →
      (event = .pending task → turns polls task < need) ∧ (event = .ready task → turns polls task = need)) :
    Needs needs (polls ++ [event]) := by
  intro first other second split
  rcases List.eq_nil_or_concat second with rfl | ⟨second, final, rfl⟩
  · obtain ⟨rfl, same⟩ := List.append_inj' split rfl
    cases same
    exact last
  · rw [List.concat_eq_append, ← List.cons_append, ← List.append_assoc] at split
    obtain ⟨same, _⟩ := List.append_inj' split rfl
    exact follows first other second same

namespace Rotation
variable {needs : List Nat} {polls : List Event} {state : State}

theorem scheduled (rotation : Rotation needs polls state) (unpolled : Unpolled polls) : Scheduled needs polls state := by
  have distinct := (List.nodup_append.mp rotation.distinct).2.1
  refine ⟨rotation.delivered, ?_, unpolled, ?_, ?_⟩
  · intro V values task
    rw [received_of_nodup distinct]
    split
    · exact .inr rfl
    · exact .inl rfl
  · intro idle
    have total := rotation.total
    rw [idle, Option.toList_none, List.nil_append] at total
    rw [calls_length]
    constructor
    · intro none
      rw [none, List.map_nil, List.sum_nil] at total
      omega
    · intro enough
      cases polling : state.polling with
      | nil => rfl
      | cons task rest =>
        have busy : .empty ∉ polls := by
          intro member
          have stopped := (rotation.idle member).2
          rw [polling] at stopped
          cases stopped
        have more := rotation.left task (by simp [polling])
        rw [List.count_eq_zero_of_not_mem busy] at enough
        rw [polling, List.map_cons, List.sum_cons] at total
        omega
  · intro idle none V values task inside
    have member := (rotation.everywhere task).mpr inside
    rw [idle, none, Option.toList_none, List.append_nil, List.nil_append] at member
    rw [received_of_nodup distinct, if_pos member]

/-- One call of `poll` on a deque that is not empty. -/
theorem turns_once (rotation : Rotation needs polls state) (follows : Needs needs polls) (idle : state.running = none)
    {task : Nat} {rest : List Nat} (first : state.polling = task :: rest) :
    ∃ result final, executor.runFrom state [.poll task, result] = some final ∧
      (result = .pending task ∨ result = .ready task) ∧
      Needs needs (polls ++ [.poll task, result]) ∧ Rotation needs (polls ++ [.poll task, result]) final ∧
      final.running = none := by
  have popped := rotation.polls_first idle first
  have called : Needs needs (polls ++ [.poll task]) :=
    needs_snoc follows fun other need _ => ⟨fun same => (by cases same), fun same => (by cases same)⟩
  have need := popped.need rfl
  have more := rotation.left task (by simp [first])
  have now := turns_self polls task
  by_cases unfinished : turns polls task + 1 < needs.getD task 0
  · have waits : Needs needs (polls ++ [.poll task] ++ [.pending task]) := by
      refine needs_snoc called fun other amount needed => ⟨fun same => ?_, fun same => (by cases same)⟩
      cases same
      rw [need] at needed
      cases needed
      rwa [now]
    have parked := popped.parks waits rfl
    rw [List.append_assoc] at waits parked
    exact ⟨.pending task, _, by simp [executor, step, idle, first], .inl rfl, waits, parked, rfl⟩
  · have ends : Needs needs (polls ++ [.poll task] ++ [.ready task]) := by
      refine needs_snoc called fun other amount needed => ⟨fun same => (by cases same), fun same => ?_⟩
      cases same
      rw [need] at needed
      cases needed
      rw [now]
      omega
    have finished := popped.finishes ends rfl
    rw [List.append_assoc] at ends finished
    exact ⟨.ready task, _, by simp [executor, step, idle, first], .inr rfl, ends, finished, rfl⟩

/-- The owner that goes on calling `poll` comes to the empty deque. -/
theorem drains (rotation : Rotation needs polls state) (follows : Needs needs polls) (idle : state.running = none) :
    ∃ more final, executor.runFrom state more = some final ∧ .spawn ∉ more ∧ .empty ∉ more ∧
      Needs needs (polls ++ more) ∧ final.running = none ∧ final.polling = [] := by
  induction left : needs.sum - polls.countP Event.isPoll generalizing polls state with
  | zero =>
    have total := rotation.total
    cases polling : state.polling with
    | nil => exact ⟨[], state, rfl, by simp, by simp, by simpa using follows, idle, polling⟩
    | cons task rest =>
      have more := rotation.left task (by simp [polling])
      rw [polling, idle, Option.toList_none, List.nil_append, List.map_cons, List.sum_cons] at total
      omega
  | succ fuel ih =>
    cases polling : state.polling with
    | nil => exact ⟨[], state, rfl, by simp, by simp, by simpa using follows, idle, polling⟩
    | cons task rest =>
      obtain ⟨result, next, runs, returned, follows, rotation, idle⟩ := rotation.turns_once follows idle polling
      have fewer : needs.sum - (polls ++ [.poll task, result]).countP Event.isPoll = fuel := by
        rcases returned with rfl | rfl
        · simp only [List.countP_append, List.countP_cons, List.countP_nil, Event.isPoll]
          simp only [if_true, Bool.false_eq_true, if_false]
          omega
        · simp only [List.countP_append, List.countP_cons, List.countP_nil, Event.isPoll]
          simp only [if_true, Bool.false_eq_true, if_false]
          omega
      obtain ⟨more, final, rest_runs, closed, full, follows, stopped⟩ := ih rotation follows idle fewer
      refine ⟨[.poll task, result] ++ more, final, ?_, ?_, ?_, ?_, stopped⟩
      · exact (Machine.runFrom_append_some executor).mpr ⟨next, runs, rest_runs⟩
      · rcases returned with rfl | rfl
        · simpa using closed
        · simpa using closed
      · rcases returned with rfl | rfl
        · simpa using full
        · simpa using full
      · rwa [List.append_assoc] at follows

end Rotation

theorem calls_follow {before after : List Event} {state final : State} (reaches : executor.Reaches before state)
    (runs : executor.runFrom state after = some final) {position task call : Nat} {polled : Option Nat}
    (waits : state.polling[position]? = some task) (called : (calls after)[call]? = some polled)
    (until_ : call ≤ position) : polled = some task ↔ call = position := by
  obtain ⟨inside, here⟩ := List.getElem?_eq_some_iff.mp waits
  have distinct := (List.nodup_append.mp (reaches_distinct reaches).1).2.1
  have there : state.polling[call]? = some state.polling[call] := List.getElem?_eq_getElem (by omega)
  constructor
  · intro same
    have other := next_calls runs there called
    rw [same, Option.some.injEq, ← here] at other
    exact ((List.Nodup.getElem_inj_iff distinct).mp other).symm
  · intro same
    subst same
    exact next_calls runs waits called

def CountingFuture.polled : Nat → CountingFuture
  | 0 => {}
  | polls + 1 => (polled polls).poll.2

/-- What a `CountingFuture` returns from its poll of this number, counted from one. -/
def counted : Nat → Option Int32
  | 0 => none
  | polls + 1 => (CountingFuture.polled polls).poll.1

/-- The tasks of `main` are `CountingFuture`s. -/
def Counting (polls : List Event) : Prop :=
  ∀ first event second, polls = first ++ event :: second → ∀ task,
    (event = .pending task → counted (turns first task) = none) ∧
    (event = .ready task → counted (turns first task) = some 4)

theorem counted_fourth {polls : Nat} (few : polls ≤ 4) : counted polls = if polls = 4 then some 4 else none := by
  match polls, few with
  | 0, _ | 1, _ | 2, _ | 3, _ | 4, _ => decide

theorem counting_needs {count : Nat} {polls : List Event} {state : State}
    (runs : executor.runFrom ⟨List.range count, count, none⟩ polls = some state) (closed : .spawn ∉ polls)
    (counting : Counting polls) : Needs (List.replicate count 4) polls := by
  induction polls using List.reverseRecOn generalizing state with
  | nil =>
    intro first event second split
    simp at split
  | append_singleton polls event ih =>
    obtain ⟨before, earlier, last⟩ := (Machine.runFrom_append_some executor).mp runs
    have stepped : step before event = some state := by simpa [executor] using last
    have before_closed : .spawn ∉ polls := fun member => closed (List.mem_append_left _ member)
    have follows := ih earlier before_closed fun first event second split =>
      counting first event (second ++ _) (by rw [split, List.append_assoc, List.cons_append])
    have positive : ∀ need ∈ List.replicate count 4, 1 ≤ need := by
      intro need member
      rw [(List.mem_replicate.mp member).2]
      decide
    have starts : (⟨List.range count, count, none⟩ : State) =
        ⟨List.range (List.replicate count 4).length, (List.replicate count 4).length, none⟩ := by simp
    obtain ⟨rotation, _⟩ := runs_rotation positive (starts ▸ earlier) before_closed follows
    refine needs_snoc follows fun task need needed => ?_
    have four : need = 4 := (List.mem_replicate.mp (List.mem_of_getElem? needed)).2
    have result := counting polls event [] rfl task
    constructor
    · intro same
      subst same
      cases step_cases stepped with
      | pending running =>
        have few := (rotation.polled task running).2
        rw [List.getD_eq_getElem?_getD, needed, Option.getD_some] at few
        have waits := result.1 rfl
        rw [counted_fourth (by omega)] at waits
        split at waits
        · cases waits
        · omega
    · intro same
      subst same
      cases step_cases stepped with
      | ready running =>
        have few := (rotation.polled task running).2
        rw [List.getD_eq_getElem?_getD, needed, Option.getD_some] at few
        have ends := result.2 rfl
        rw [counted_fourth (by omega)] at ends
        split at ends
        · omega
        · cases ends

/-- Each call of `poll` takes the task that the position in the deque tells;
tasks spawned up front finish by the number of polls they need, then by their order. -/
theorem executor_schedule :
    (∀ before after state final, ∀ position task : Nat, executor.Reaches before state → state.polling[position]? = some task →
      executor.runFrom state after = some final → ∀ (call : Nat) polled, (calls after)[call]? = some polled → call ≤ position →
        (polled = some task ↔ call = position)) ∧
    (∀ needs : List Nat, (∀ need ∈ needs, 1 ≤ need) →
      (∀ polls state, executor.Reaches (List.replicate needs.length .spawn ++ polls) state → .spawn ∉ polls →
        Needs needs polls → Scheduled needs polls state) ∧
      ∃ polls state, executor.Reaches (List.replicate needs.length .spawn ++ polls) state ∧ .spawn ∉ polls ∧
        Needs needs polls ∧ (calls polls).length = needs.sum ∧ state.running = none ∧ state.polling = []) := by
  refine ⟨fun _ _ _ _ _ _ reaches waits runs _ _ called until_ => calls_follow reaches runs waits called until_, ?_⟩
  intro needs positive
  have spawned := reaches_spawns needs.length
  constructor
  · intro polls state reaches closed follows
    obtain ⟨middle, first, runs⟩ := reaches.split
    cases first.symm.trans spawned
    obtain ⟨rotation, unpolled⟩ := runs_rotation positive runs closed follows
    exact rotation.scheduled unpolled
  · have start := Rotation.initial positive
    have empty : Needs needs [] := by
      intro first event second split
      simp at split
    obtain ⟨polls, state, runs, closed, full, follows, idle, none⟩ := start.drains empty rfl
    rw [List.nil_append] at follows
    obtain ⟨rotation, _⟩ := runs_rotation positive runs closed follows
    have total := rotation.total
    rw [idle, none, Option.toList_none, List.nil_append, List.map_nil, List.sum_nil, Nat.add_zero] at total
    refine ⟨polls, state, spawned.append runs, closed, follows, ?_, idle, none⟩
    rw [calls_length, List.count_eq_zero_of_not_mem full, total, Nat.add_zero]

theorem executor_schedule_two :
    let polls := [.poll 0, .pending 0, .poll 1, .ready 1, .poll 0, .ready 0]
    (∀ polled, (calls polls)[1]? = some polled → polled = some 1) ∧
      ∃ state, executor.Reaches ([.spawn, .spawn] ++ polls) state ∧ Scheduled [2, 1] polls state := by
  intro polls
  constructor
  · intro polled called
    exact (executor_schedule.1 [.spawn, .spawn] polls ⟨[0, 1], 2, none⟩ _ 1 1 rfl rfl rfl 1 polled called (by decide)).mpr rfl
  refine ⟨⟨[], 2, none⟩, rfl, ?_⟩
  have positive : ∀ need ∈ [2, 1], 1 ≤ need := by decide
  exact (executor_schedule.2 [2, 1] positive).1 polls ⟨[], 2, none⟩ rfl (by decide) (by decide)

end RustAsyncAwait.AsyncRuntime
