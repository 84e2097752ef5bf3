import RustAsyncAwait.BoundedExecutor
import RustAsyncAwait.Proofs.CompletedPolls
import Mathlib.Data.List.Perm.Subperm

/-! When the executor's thread blocks in a send on the channel that only it
receives from. -/

namespace RustAsyncAwait.BoundedExecutor
open Library
open ScheduledCoroutine (capacity)

/-- The thread is in a `send`, and the channel is full. -/
def Blocked (state : State) : Prop := state.sending ≠ none ∧ capacity ≤ state.channel.length

/-- All that one step can do, with the guards it passed. -/
inductive Step : State → Event → State → Prop
  | spawn {state} (free : state.sending = none) : Step state .spawn { state with sending := some .spawn }
  | wake_by_ref {state task} (free : state.sending = none) (made : task < state.spawned) :
      Step state (.wake_by_ref task) { state with sending := some (.wake task) }
  | spawned {state} (sending : state.sending = some .spawn) (room : state.channel.length < capacity) :
      Step state .sent
        { state with channel := state.channel ++ [state.spawned], spawned := state.spawned + 1, sending := none }
  | sent {state task} (sending : state.sending = some (.wake task)) (room : state.channel.length < capacity) :
      Step state .sent { state with channel := state.channel ++ [task], sending := none }
  | woken {state task} (made : task < state.spawned) (room : state.channel.length < capacity) :
      Step state (.woken task) { state with channel := state.channel ++ [task] }
  | run {state} (free : state.sending = none) : Step state .run { state with started := true }
  | recv {state task rest} (free : state.sending = none) (head : state.channel = task :: rest) :
      Step state (.recv task) { state with channel := rest, running := some task }
  | pending {state task} (free : state.sending = none) (running : state.running = some task) :
      Step state (.pending task) { state with running := none }
  | ready {state task} (free : state.sending = none) (running : state.running = some task) :
      Step state (.ready task) { state with running := none }

/-- Only a spawn or a wake is ever sent. -/
def State.Sends (state : State) : Prop :=
  ∀ event, state.sending = some event → event = .spawn ∨ ∃ task, event = .wake task

private theorem performed {state next : State} {event : ScheduledCoroutine.Event}
    (performs : state.perform event = some next) :
    ∃ moved, ScheduledCoroutine.Step state.toState event moved ∧ { state with toState := moved } = next := by
  obtain ⟨moved, moves, same⟩ := Option.map_eq_some_iff.mp performs
  exact ⟨moved, ScheduledCoroutine.step_cases moves, same⟩

theorem step_cases {state next : State} {event : Event} (sends : state.Sends) (stepped : step state event = some next) :
    Step state event next := by
  cases event with
  | spawn =>
    simp only [step, Option.ite_none_right_eq_some, Option.some.injEq] at stepped
    obtain ⟨⟨free, _⟩, rfl⟩ := stepped
    exact .spawn free
  | wake_by_ref task =>
    simp only [step, Option.ite_none_right_eq_some, Option.some.injEq] at stepped
    obtain ⟨⟨free, _, made⟩, rfl⟩ := stepped
    exact .wake_by_ref free made
  | sent =>
    obtain ⟨event, sending, performs⟩ := Option.bind_eq_some_iff.mp stepped
    obtain ⟨moved, moves, rfl⟩ := performed performs
    rcases sends event sending with rfl | ⟨task, rfl⟩
    · cases moves with
      | spawn room => exact .spawned sending room
    · cases moves with
      | wake made room => exact .sent sending room
  | woken task =>
    obtain ⟨moved, moves, rfl⟩ := performed stepped
    cases moves with
    | wake made room => exact .woken made room
  | run =>
    simp only [step, Option.ite_none_right_eq_some, Option.some.injEq] at stepped
    obtain ⟨⟨free, _⟩, rfl⟩ := stepped
    exact .run free
  | recv task =>
    simp only [step, Option.ite_none_right_eq_some] at stepped
    obtain ⟨⟨free, _⟩, performs⟩ := stepped
    obtain ⟨moved, moves, rfl⟩ := performed performs
    cases moves with
    | recv idle head => exact .recv free head
  | pending task =>
    simp only [step, Option.ite_none_right_eq_some] at stepped
    obtain ⟨free, performs⟩ := stepped
    obtain ⟨moved, moves, rfl⟩ := performed performs
    cases moves with
    | pending running => exact .pending free running
  | ready task =>
    simp only [step, Option.ite_none_right_eq_some] at stepped
    obtain ⟨free, performs⟩ := stepped
    obtain ⟨moved, moves, rfl⟩ := performed performs
    cases moves with
    | ready running => exact .ready free running

/-- With its calls left out, a run is one of the executor whose sends are single steps. -/
theorem reaches_scheduled {trace : List Event} {state : State} (reaches : executor.Reaches trace state) :
    ∃ sent, ScheduledCoroutine.executor.Reaches sent state.toState := by
  refine reaches.invariant (fun state => ∃ sent, ScheduledCoroutine.executor.Reaches sent state.toState) ⟨[], .nil⟩ ?_
  intro state event next earlier stepped
  obtain ⟨sent, earlier⟩ := earlier
  have moves : ∀ (before : State) (event : ScheduledCoroutine.Event), before.toState = state.toState →
      before.perform event = some next → ∃ sent, ScheduledCoroutine.executor.Reaches sent next.toState := by
    intro before event same performs
    obtain ⟨moved, moves, rfl⟩ := Option.map_eq_some_iff.mp performs
    rw [same] at moves
    exact ⟨_, earlier.snoc moves⟩
  replace stepped : step state event = some next := stepped
  cases event with
  | spawn | wake_by_ref | run =>
    simp only [step, Option.ite_none_right_eq_some, Option.some.injEq] at stepped
    obtain ⟨_, rfl⟩ := stepped
    exact ⟨sent, earlier⟩
  | sent =>
    obtain ⟨event, _, performs⟩ := Option.bind_eq_some_iff.mp stepped
    exact moves { state with sending := none } event rfl performs
  | woken => exact moves _ _ rfl stepped
  | recv | pending | ready =>
    simp only [step, Option.ite_none_right_eq_some] at stepped
    exact moves _ _ rfl stepped.2

/-- The thread receives what it blocks for: nothing can happen any more. -/
theorem blocked_forever {state : State} (sends : state.Sends) (blocked : Blocked state) (event : Event) :
    step state event = none := by
  obtain ⟨sending, full⟩ := blocked
  cases stepped : step state event with
  | none => rfl
  | some next =>
    cases step_cases sends stepped with
    | spawn free | wake_by_ref free | run free | recv free | pending free | ready free => exact absurd free sending
    | spawned _ room | sent _ room | woken _ room => exact absurd full (Nat.not_le_of_lt room)

/-- The sends that have begun. -/
def begun (trace : List Event) : Nat :=
  trace.countP fun | .spawn | .wake_by_ref _ | .woken _ => true | _ => false

def received (trace : List Event) : Nat := trace.countP fun | .recv _ => true | _ => false

/-- When the thread calls `send`, fewer than 1024 of the sends begun before are
still to be received, and so it is at every wake by another thread during the call. -/
def Room (trace : List Event) (state : State) : Event → Prop
  | .spawn | .wake_by_ref _ => begun trace < received trace + capacity
  | .woken _ => state.sending ≠ none → begun trace < received trace + capacity
  | _ => True

/-- A send that has begun has been received, is in the channel, or is the one under way. -/
structure Balanced (trace : List Event) (state : State) : Prop where
  sends : state.Sends
  sum : begun trace = received trace + state.channel.length + if state.sending = none then 0 else 1

theorem balanced_step {trace : List Event} {state next : State} {event : Event} (balanced : Balanced trace state)
    (stepped : Step state event next) : Balanced (trace ++ [event]) next := by
  have sum := balanced.sum
  have begun_snoc : begun (trace ++ [event]) = begun trace + begun [event] := List.countP_append
  have received_snoc : received (trace ++ [event]) = received trace + received [event] := List.countP_append
  cases stepped with
  | spawn free =>
    refine ⟨fun event same => .inl ?_, ?_⟩
    · cases same
      rfl
    · rw [begun_snoc, received_snoc, sum, free]
      simp [begun, received]
  | @wake_by_ref task free made =>
    refine ⟨fun event same => .inr ⟨task, ?_⟩, ?_⟩
    · cases same
      rfl
    · rw [begun_snoc, received_snoc, sum, free]
      simp [begun, received]
  | spawned sending room | sent sending room =>
    refine ⟨fun event same => (nomatch same), ?_⟩
    rw [begun_snoc, received_snoc, sum, sending]
    simp [begun, received]
    omega
  | woken made room =>
    refine ⟨balanced.sends, ?_⟩
    rw [begun_snoc, received_snoc, sum, List.length_append]
    show received trace + state.channel.length + (if state.sending = none then 0 else 1) + 1 =
      received trace + 0 + (state.channel.length + 1) + if state.sending = none then 0 else 1
    omega
  | @recv task rest free head =>
    refine ⟨balanced.sends, ?_⟩
    rw [begun_snoc, received_snoc, sum, head, List.length_cons]
    show received trace + (rest.length + 1) + (if state.sending = none then 0 else 1) + 0 =
      received trace + 1 + rest.length + if state.sending = none then 0 else 1
    omega
  | run free | pending free running | ready free running =>
    refine ⟨balanced.sends, ?_⟩
    rw [begun_snoc, received_snoc, sum]
    rfl

theorem reaches_balanced {trace : List Event} {state : State} (reaches : executor.Reaches trace state) :
    Balanced trace state := by
  refine reaches.trace_invariant Balanced ⟨fun event same => (by cases same), rfl⟩ ?_
  intro trace state event next _ balanced stepped
  exact balanced_step balanced (step_cases balanced.sends stepped)

/-- A step blocks the thread if and only if it breaks the condition. -/
theorem blocks_iff {trace : List Event} {state next : State} {event : Event} (balanced : Balanced trace state)
    (stepped : Step state event next) : Blocked next ↔ ¬ Room trace state event := by
  have sum := balanced.sum
  cases stepped with
  | spawn free | wake_by_ref free =>
    rw [free, if_pos rfl] at sum
    simp only [Blocked, Room, ne_eq, reduceCtorEq, not_false_eq_true, true_and, Nat.not_lt]
    omega
  | woken made room =>
    simp only [Blocked, Room, List.length_append, List.length_singleton, Classical.not_imp, Nat.not_lt]
    refine and_congr_right fun sending => ?_
    rw [if_neg sending] at sum
    omega
  | spawned | sent => simp [Blocked, Room]
  | run free | recv free | pending free | ready free => simp [Blocked, Room, free]

/-- No state that the run passes through has the thread blocked. -/
def NeverBlocked (trace : List Event) : Prop :=
  ∀ first second middle, trace = first ++ second → executor.Reaches first middle → ¬ Blocked middle

/-- Every step of the run meets the condition. -/
def HasRoom (trace : List Event) : Prop :=
  ∀ first event second middle, trace = first ++ event :: second → executor.Reaches first middle → Room first middle event

/-- The thread is never blocked in a run if and only if all of its steps meet the condition. -/
theorem never_blocked {trace : List Event} {state : State} (reaches : executor.Reaches trace state) :
    NeverBlocked trace ↔ HasRoom trace := by
  constructor
  · intro free first event second middle split earlier
    rw [split, List.append_cons] at reaches
    obtain ⟨next, longer, _⟩ := reaches.split
    obtain ⟨before, same, stepped⟩ := Machine.reaches_snoc.mp longer
    obtain rfl : middle = before := Option.some.inj (earlier.symm.trans same)
    have balanced := reaches_balanced earlier
    by_contra breaks
    apply free (first ++ [event]) second next (by rw [split, List.append_cons]) longer
    exact (blocks_iff balanced (step_cases balanced.sends stepped)).mpr breaks
  · intro meets first second middle split longer
    cases first using List.reverseRecOn with
    | nil =>
      cases longer
      simp [Blocked, executor]
    | append_singleton first event =>
      obtain ⟨before, earlier, stepped⟩ := Machine.reaches_snoc.mp longer
      have balanced := reaches_balanced earlier
      intro blocked
      apply (blocks_iff balanced (step_cases balanced.sends stepped)).mp blocked
      exact meets first event second before (by rw [split, List.append_assoc, List.singleton_append]) earlier

/-- Task 0 spawns task 1 and wakes itself, and another thread wakes it once more. -/
theorem never_blocked_woken :
    let trace : List Event :=
      [.spawn, .sent, .run, .recv 0, .spawn, .sent, .wake_by_ref 0, .woken 0, .sent, .pending 0]
    ∃ state, executor.Reaches trace state ∧ (NeverBlocked trace ↔ HasRoom trace) := by
  intro trace
  have runs : (executor.runFrom executor.init trace).isSome = true := by decide +kernel
  obtain ⟨state, reaches⟩ := Option.isSome_iff_exists.mp runs
  exact ⟨state, reaches, never_blocked reaches⟩

/-- A task spawns this many others without yielding. -/
def burst (count : Nat) : List Event := (List.replicate count [Event.spawn, .sent]).flatten

theorem burst_fills (count : Nat) {state : State} (free : state.sending = none) (polled : state.running ≠ none)
    (room : state.channel.length + count ≤ capacity) :
    ∃ next, executor.runFrom state (burst count) = some next ∧ next.sending = none ∧ next.running ≠ none ∧
      next.channel.length = state.channel.length + count := by
  induction count generalizing state with
  | zero => exact ⟨state, rfl, free, polled, rfl⟩
  | succ count ih =>
    have called : executor.step state .spawn = some { state with sending := some .spawn } := by
      simp [executor, step, free, polled]
    have sent : executor.step { state with sending := some .spawn } .sent =
        some { state with channel := state.channel ++ [state.spawned], spawned := state.spawned + 1, sending := none } := by
      have fits : state.channel.length < capacity := by omega
      simp [executor, step, State.perform, ScheduledCoroutine.step, ScheduledCoroutine.State.send, fits]
    obtain ⟨next, runs, last, still, length⟩ := @ih
      { state with channel := state.channel ++ [state.spawned], spawned := state.spawned + 1, sending := none } rfl polled (by
        rw [List.length_append, List.length_singleton]
        omega)
    refine ⟨next, ?_, last, still, ?_⟩
    · rw [burst, List.replicate_succ, List.flatten_cons, List.cons_append, List.cons_append, List.nil_append,
        Machine.runFrom_cons, called, Option.bind_some, Machine.runFrom_cons, sent, Option.bind_some]
      exact runs
    · rw [length, List.length_append, List.length_singleton]
      omega

/-- The server task accepts 1025 connections in one poll and spawns a task for each. -/
theorem thread_blocks :
    ¬ ∀ (trace : List Event) (state : State), executor.Reaches trace state → ¬ Blocked state := by
  intro free
  have polled : executor.Reaches [.spawn, .sent, .run, .recv 0] { spawned := 1, running := some 0, started := true } := by
    unfold Machine.Reaches
    decide +kernel
  obtain ⟨full, filled, last, still, length⟩ :=
    @burst_fills 1024 { spawned := 1, running := some 0, started := true } rfl (by simp) (by decide)
  have called : executor.step full .spawn = some { full with sending := some .spawn } := by
    simp [executor, step, last, still]
  apply free _ _ ((polled.append filled).snoc called)
  exact ⟨by simp, by simp [length, capacity]⟩

def completed (trace : List Event) : List Nat := trace.filterMap fun | .ready task => some task | _ => none

/-- The task that the thread's `send` will put into the channel. -/
def State.pending (state : State) : List Nat :=
  match state.sending with
  | some .spawn => [state.spawned]
  | some (.wake task) => [task]
  | _ => []

/-- Fewer than 1024 tasks are incomplete at a spawn, and a task is woken, and
completes, only while it is not on its way into the channel or in it. -/
def Few : List Event × State → Event → Prop
  | (trace, state), .spawn => state.spawned < (completed trace).length + capacity
  | (trace, state), .wake_by_ref task => task ∉ completed trace ++ state.channel
  | (trace, state), .woken task => task ∉ completed trace ++ (state.channel ++ state.pending)
  | (_, state), .ready task => task ∉ state.channel
  | _, _ => True

instance (state : List Event × State) (event : Event) : Decidable (Few state event) := by
  cases event <;> unfold Few <;> infer_instance

/-- The completed tasks, and those in the channel or on their way into it. -/
def State.placed (state : State) (trace : List Event) : List Nat := completed trace ++ (state.channel ++ state.pending)

/-- The tasks that have been spawned, or are being. -/
def State.total (state : State) : Nat := state.spawned + if state.sending = some .spawn then 1 else 0

structure Single (trace : List Event) (state : State) : Prop where
  sends : state.Sends
  once : (state.placed trace).Nodup
  made : ∀ task ∈ state.placed trace, task < state.total
  polled : ∀ task, state.running = some task → task < state.total ∧ task ∉ completed trace
  few : state.total ≤ (completed trace).length + capacity

namespace Single
variable {trace : List Event} {state : State}

private theorem extend {longer : List Event} {next : State} {task : Nat} (single : Single trace state)
    (placed : (next.placed longer).Perm (task :: state.placed trace)) (fresh : task ∉ state.placed trace)
    (made : task < next.total) (grows : state.total ≤ next.total) :
    (next.placed longer).Nodup ∧ ∀ task ∈ next.placed longer, task < next.total := by
  refine ⟨placed.nodup_iff.mpr (List.nodup_cons.mpr ⟨fresh, single.once⟩), ?_⟩
  intro other member
  rcases List.mem_cons.mp (placed.mem_iff.mp member) with rfl | old
  · exact made
  · exact Nat.lt_of_lt_of_le (single.made other old) grows

/-- A step that puts one more task on its way into the channel, and completes none. -/
private theorem adds {longer : List Event} {next : State} {task : Nat} (single : Single trace state) (sends : next.Sends)
    (done : completed longer = completed trace)
    (placed : (next.channel ++ next.pending).Perm (task :: (state.channel ++ state.pending)))
    (fresh : task ∉ state.placed trace) (made : task < next.total) (grows : state.total ≤ next.total)
    (running : next.running = state.running) (few : next.total ≤ (completed trace).length + capacity) : Single longer next := by
  have more : (next.placed longer).Perm (task :: state.placed trace) := by
    rw [State.placed, done]
    exact (placed.append_left _).trans List.perm_middle
  obtain ⟨once, below⟩ := single.extend more fresh made grows
  refine ⟨sends, once, below, ?_, ?_⟩
  · intro other polls
    rw [done]
    obtain ⟨made, incomplete⟩ := single.polled other (running ▸ polls)
    exact ⟨Nat.lt_of_lt_of_le made grows, incomplete⟩
  · rw [done]
    exact few

/-- A step that leaves the tasks where they are. -/
private theorem keep {longer : List Event} {next : State} (single : Single trace state) (sends : next.Sends)
    (done : completed longer = completed trace) (pending : next.channel ++ next.pending = state.channel ++ state.pending)
    (total : next.total = state.total) (running : ∀ task, next.running = some task → state.running = some task) :
    Single longer next := by
  have placed : next.placed longer = state.placed trace := by rw [State.placed, State.placed, done, pending]
  refine ⟨sends, placed ▸ single.once, ?_, ?_, ?_⟩
  · rw [placed, total]
    exact single.made
  · intro task polls
    rw [done, total]
    exact single.polled task (running task polls)
  · rw [done, total]
    exact single.few

private theorem completed_snoc {event : Event} (unready : ∀ task, event ≠ .ready task) :
    completed (trace ++ [event]) = completed trace := by
  rw [completed, filterMap_snoc]
  cases event with
  | ready task => exact absurd rfl (unready task)
  | _ => exact List.append_nil _

private theorem placed_free (free : state.sending = none) : state.placed trace = completed trace ++ state.channel := by
  simp [State.placed, State.pending, free]

private theorem step {next : State} {event : Event} (single : Single trace state) (few : Few (trace, state) event)
    (stepped : Step state event next) : Single (trace ++ [event]) next := by
  cases stepped with
  | spawn free =>
    have fresh : state.spawned ∉ state.placed trace := by
      intro member
      exact absurd (single.made _ member) (by simp [State.total, free])
    refine single.adds ?_ (completed_snoc (by simp)) ?_ fresh (by simp [State.total]) (by simp [State.total, free]) rfl few
    · intro event sending
      cases sending
      exact .inl rfl
    · simp only [State.pending, free, List.append_nil]
      exact List.perm_append_singleton _ _
  | @wake_by_ref task free made =>
    have fresh : task ∉ state.placed trace := by
      rw [placed_free free]
      exact few
    refine single.adds ?_ (completed_snoc (by simp)) ?_ fresh (by simpa [State.total] using made)
      (by simp [State.total, free]) rfl (by simpa [State.total, free] using single.few)
    · intro event sending
      cases sending
      exact .inr ⟨task, rfl⟩
    · simp only [State.pending, free, List.append_nil]
      exact List.perm_append_singleton _ _
  | spawned sending room | sent sending room =>
    exact single.keep (fun event sending => (nomatch sending)) (completed_snoc (by simp)) (by simp [State.pending, sending])
      (by simp [State.total, sending]) (fun _ => id)
  | @woken task made room =>
    have placed : (state.channel ++ [task] ++ state.pending).Perm (task :: (state.channel ++ state.pending)) := by
      rw [List.append_assoc, List.singleton_append]
      exact List.perm_middle
    exact single.adds single.sends (completed_snoc (by simp)) placed few (Nat.lt_of_lt_of_le made (Nat.le_add_right _ _))
      (Nat.le_refl _) rfl single.few
  | @recv task rest free head =>
    have same : completed (trace ++ [.recv task]) = completed trace := completed_snoc (by simp)
    have placed : (State.placed { state with channel := rest, running := some task } (trace ++ [.recv task])).Sublist
        (state.placed trace) := by
      rw [State.placed, State.placed, same, head]
      exact (List.Sublist.refl _).append ((List.sublist_cons_self task rest).append (List.Sublist.refl _))
    refine ⟨single.sends, single.once.sublist placed, fun other member => single.made other (placed.subset member), ?_,
      same ▸ single.few⟩
    intro other running
    cases running
    have member : task ∈ state.channel ++ state.pending := by simp [head]
    refine ⟨single.made task (List.mem_append_right _ member), fun complete => ?_⟩
    rw [same] at complete
    exact (List.nodup_append.mp single.once).2.2 task complete task member rfl
  | run free => exact single.keep single.sends (completed_snoc (by simp)) rfl rfl (fun _ => id)
  | pending free running =>
    exact single.keep single.sends (completed_snoc (by simp)) rfl rfl (fun _ idle => (nomatch idle))
  | @ready task free running =>
    have snoc : completed (trace ++ [.ready task]) = completed trace ++ [task] := by
      rw [completed, filterMap_snoc]
      rfl
    have placed : (State.placed { state with running := none } (trace ++ [.ready task])).Perm (task :: state.placed trace) := by
      rw [State.placed, snoc, List.append_assoc]
      exact List.perm_middle
    obtain ⟨made, incomplete⟩ := single.polled task running
    have fresh : task ∉ state.placed trace := by
      rw [placed_free free, List.mem_append, not_or]
      exact ⟨incomplete, few⟩
    obtain ⟨once, below⟩ := single.extend placed fresh made (Nat.le_refl _)
    refine ⟨single.sends, once, below, fun _ idle => (nomatch idle), ?_⟩
    rw [snoc, List.length_append, List.length_singleton]
    exact Nat.le_trans single.few (by omega)

theorem not_blocked (single : Single trace state) : ¬ Blocked state := by
  intro blocked
  obtain ⟨sending, full⟩ := blocked
  have pending : state.pending.length = 1 := by
    obtain ⟨event, same⟩ := Option.ne_none_iff_exists'.mp sending
    rcases single.sends event same with rfl | ⟨task, rfl⟩ <;> simp [State.pending, same]
  have bound : (state.placed trace).length ≤ state.total := by
    rw [← @List.length_range state.total]
    exact (List.subperm_of_subset single.once fun task member => List.mem_range.mpr (single.made task member)).length_le
  have few := single.few
  simp only [State.placed, List.length_append, pending] at bound
  omega

end Single

/-- The thread is never blocked while tasks are few and each is queued once. -/
theorem few_never_block {trace final : List Event} {state : State}
    (reaches : (executor.traced.restrict Few).Reaches trace (final, state)) : ¬ Blocked state := by
  have single : final = trace ∧ Single trace state := by
    refine reaches.guarded_invariant Single ?_ fun trace state event next few single stepped =>
      single.step few (step_cases single.sends stepped)
    exact ⟨fun event same => (by cases same), .nil, fun task member => (nomatch member), fun task same => (by cases same),
      Nat.zero_le _⟩
  exact single.2.not_blocked

end RustAsyncAwait.BoundedExecutor
