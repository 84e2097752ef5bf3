import RustAsyncAwait.Library.RoundRobin
import RustAsyncAwait.AsyncRuntime
import RustAsyncAwait.ScheduledCoroutine
import RustAsyncAwait.CoroutineExecutor
import RustAsyncAwait.Proofs.ExecutorCompletion
import RustAsyncAwait.Proofs.PollOrder

/-! The executors schedule alike. Each of their states stands for the queue of a
round-robin scheduler. -/

namespace RustAsyncAwait
open Library PollingMachine

variable {V : Type} {values : Nat → V}

namespace AsyncRuntime

private def Queue (queue : List (Nat × Nat)) (script : Scripted State V) : Prop :=
  script.state.polling = queue.map Prod.fst ∧ script.state.running = none ∧
    ∀ entry ∈ queue, entry.1 < script.state.spawned

private theorem polls_first {script : Scripted State V} {entry : Nat × Nat} {rest : List (Nat × Nat)}
    (queue : Queue (entry :: rest) script) :
    thread.Advances script [.poll entry.1]
      { script with state := ⟨rest.map Prod.fst, script.state.spawned, some entry.1⟩ } := by
  obtain ⟨polling, running, _⟩ := queue
  apply Advances.own running
  · simp [thread, polling]
  · simp [thread, executor, step, running, polling]

private theorem serves : Serves thread (fun task => Future.waking (values task)) Queue := by
  constructor
  · intro task pendings rest script queue follows
    have made : task < script.state.spawned := queue.2.2 (task, pendings + 1) List.mem_cons_self
    have code := follows.queued (task, pendings + 1) List.mem_cons_self
    let popped : Scripted State V := { script with state := ⟨rest.map Prod.fst, script.state.spawned, some task⟩ }
    have rest_polled : thread.Advances popped _ _ :=
      .waking_pending rfl code (by simp [thread, executor, step, popped, made]; rfl) rfl
        (by simp [thread, executor, step]; rfl)
    refine ⟨_, _, (polls_first queue).trans rest_polled, rfl, rfl, by simp, rfl, ?_⟩
    intro entry member
    rcases List.mem_append.mp member with old | new
    · exact queue.2.2 entry (List.mem_cons_of_mem _ old)
    · rw [List.mem_singleton.mp new]
      exact made
  · intro task rest script queue follows
    have code := follows.queued (task, 0) List.mem_cons_self
    let popped : Scripted State V := { script with state := ⟨rest.map Prod.fst, script.state.spawned, some task⟩ }
    have completes : thread.Advances popped _ _ := .ready rfl code (by simp [thread, executor, step, popped]; rfl)
    refine ⟨_, _, (polls_first queue).trans completes, rfl, rfl, rfl, rfl, ?_⟩
    exact fun entry member => queue.2.2 entry (List.mem_cons_of_mem _ member)
  · intro script done
    obtain ⟨polling, running, _⟩ := done
    refine ⟨[], script, .refl script, rfl, rfl, ?_⟩
    simp [next, thread, running, polling]

end AsyncRuntime

namespace ScheduledCoroutine

private def Queue (queue : List (Nat × Nat)) (script : Scripted State V) : Prop :=
  script.state.channel = queue.map Prod.fst ∧ script.state.running = none ∧ queue.length ≤ capacity ∧
    ∀ entry ∈ queue, entry.1 < script.state.spawned

private theorem recv_first {script : Scripted State V} {entry : Nat × Nat} {rest : List (Nat × Nat)}
    (queue : Queue (entry :: rest) script) :
    thread.Advances script [.recv entry.1]
      { script with state := ⟨rest.map Prod.fst, script.state.spawned, some entry.1⟩ } := by
  obtain ⟨channel, running, _⟩ := queue
  apply Advances.own running
  · simp [thread, channel]
  · simp [thread, executor, step, running, channel]

private theorem serves : Serves thread (fun task => Future.waking (values task)) Queue := by
  constructor
  · intro task pendings rest script queue follows
    have made : task < script.state.spawned := queue.2.2.2 (task, pendings + 1) List.mem_cons_self
    have room : rest.length < capacity := queue.2.2.1
    have code := follows.queued (task, pendings + 1) List.mem_cons_self
    let received : Scripted State V := { script with state := ⟨rest.map Prod.fst, script.state.spawned, some task⟩ }
    have sent : thread.Advances received _ _ :=
      .waking_pending rfl code (by simp [thread, executor, step, State.send, received, made, room]; rfl) rfl
        (by simp [thread, executor, step]; rfl)
    refine ⟨_, _, (recv_first queue).trans sent, rfl, rfl, by simp, rfl, by simpa using Nat.succ_le_of_lt room, ?_⟩
    intro entry member
    rcases List.mem_append.mp member with old | new
    · exact queue.2.2.2 entry (List.mem_cons_of_mem _ old)
    · rw [List.mem_singleton.mp new]
      exact made
  · intro task rest script queue follows
    have code := follows.queued (task, 0) List.mem_cons_self
    let received : Scripted State V := { script with state := ⟨rest.map Prod.fst, script.state.spawned, some task⟩ }
    have completes : thread.Advances received _ _ := .ready rfl code (by simp [thread, executor, step, received]; rfl)
    refine ⟨_, _, (recv_first queue).trans completes, rfl, rfl, rfl, rfl, Nat.le_of_lt queue.2.2.1, ?_⟩
    exact fun entry member => queue.2.2.2 entry (List.mem_cons_of_mem _ member)
  · intro script done
    obtain ⟨channel, running, _⟩ := done
    refine ⟨[], script, .refl script, rfl, rfl, ?_⟩
    simp [next, thread, running, channel]

private theorem spawns {count : Nat} (fits : count ≤ capacity) :
    executor.Reaches (List.replicate count .spawn) ⟨List.range count, count, none⟩ := by
  induction count with
  | zero => exact .nil
  | succ count ih =>
    rw [List.replicate_succ', List.range_succ]
    exact (ih (Nat.le_of_succ_le fits)).snoc (by simpa [executor, step, State.send] using Nat.lt_of_succ_le fits)

end ScheduledCoroutine

namespace CoroutineExecutor

private def Queue (queue : List (Nat × Nat)) (script : Scripted State V) : Prop :=
  script.state.coroutines = queue.map Prod.fst ∧ script.state.running = none

private theorem polls_first {script : Scripted State V} {entry : Nat × Nat} {rest : List (Nat × Nat)}
    (queue : Queue (entry :: rest) script) :
    thread.Advances script [.poll entry.1]
      { script with state := ⟨rest.map Prod.fst, script.state.added, some entry.1⟩ } := by
  obtain ⟨coroutines, running⟩ := queue
  apply Advances.own running
  · simp [thread, coroutines]
  · simp [thread, executor, step, running, coroutines]

private theorem serves : Serves thread (fun task => Future.yielding (values task)) Queue := by
  constructor
  · intro task pendings rest script queue follows
    have code := follows.queued (task, pendings + 1) List.mem_cons_self
    let popped : Scripted State V := { script with state := ⟨rest.map Prod.fst, script.state.added, some task⟩ }
    have yields : thread.Advances popped _ _ :=
      .yielding_pending rfl code (by simp [thread, executor, step, popped]; rfl)
    exact ⟨_, _, (polls_first queue).trans yields, rfl, rfl, by simp, rfl⟩
  · intro task rest script queue follows
    have code := follows.queued (task, 0) List.mem_cons_self
    let popped : Scripted State V := { script with state := ⟨rest.map Prod.fst, script.state.added, some task⟩ }
    have completes : thread.Advances popped _ _ := .ready rfl code (by simp [thread, executor, step, popped]; rfl)
    exact ⟨_, _, (polls_first queue).trans completes, rfl, rfl, rfl, rfl⟩
  · intro script done
    obtain ⟨coroutines, running⟩ := done
    refine ⟨[], script, .refl script, rfl, rfl, ?_⟩
    simp [next, thread, running, coroutines]

private theorem adds (count : Nat) : executor.Reaches (List.replicate count .add) ⟨List.range count, count, none⟩ := by
  induction count with
  | zero => exact .nil
  | succ count ih =>
    rw [List.replicate_succ', List.range_succ]
    exact ih.snoc (by simp [executor, step])

end CoroutineExecutor

namespace Executor

/-- The ids of `polling`, then those of the channel, stand for the queue. A task
whose id is in the channel waits. -/
private structure Standing (queue : List (Nat × Nat)) (state : State) : Prop where
  split : ∃ polling, queue.map Prod.fst = polling ++ state.channel ∧ state.polling = polling.map fun id => ⟨id, id⟩
  waiting : ∀ key : Nat, state.waiting[key]? = if key ∈ state.channel then some ⟨key, key⟩ else none

private def Queue (queue : List (Nat × Nat)) (script : Scripted State V) : Prop :=
  script.state.control = .poll .run ∧ Standing queue script.state ∧
    ∀ entry ∈ queue, script.state.wakers[entry.1]? = some entry.1

/-- `run` gets to the first task of the queue, from `polling` or from the channel. -/
private theorem pops_first {script : Scripted State V} {entry : Nat × Nat} {rest : List (Nat × Nat)}
    (queue : Queue (entry :: rest) script) (distinct : ((entry :: rest).map Prod.fst).Nodup) :
    ∃ events state, thread.Advances script events { script with state := state } ∧
      events.filterMap thread.returned = [] ∧ state.control = .polling .run ⟨entry.1, entry.1⟩ ∧ Standing rest state ∧
      state.wakers = script.state.wakers := by
  obtain ⟨control, ⟨⟨polling, split, front⟩, waiting⟩, _⟩ := queue
  cases polling with
  | cons id polling =>
    simp only [List.map_cons, List.cons_append, List.cons.injEq] at split front
    obtain ⟨rfl, split⟩ := split
    let popped : State :=
      { script.state with
        polling := polling.map fun id => ⟨id, id⟩
        control := .polling .run ⟨entry.1, entry.1⟩ }
    have pops : thread.Advances script [.pop entry.1] { script with state := popped } :=
      .own (by simp [thread, polled, control, Control.held]) (by simp [thread, own, control, front])
        (Step.pop control front).sound
    exact ⟨_, _, pops, rfl, rfl, ⟨⟨polling, split, rfl⟩, waiting⟩, rfl⟩
  | nil =>
    have channel : script.state.channel = entry.1 :: rest.map Prod.fst := split.symm
    have found : script.state.waiting[entry.1]? = some ⟨entry.1, entry.1⟩ := by simp [waiting, channel]
    have left : script.state.waiting.isEmpty = false := by
      rw [← Bool.not_eq_true, HashMap.empty_iff]
      intro empty
      simp [empty] at found
    let checked : State := { script.state with control := .check }
    let blocked : State := { script.state with control := .recv }
    let received : State :=
      { script.state with
        channel := rest.map Prod.fst
        waiting := script.state.waiting.erase entry.1
        polling := [⟨entry.1, entry.1⟩]
        control := .poll .run }
    have drains : thread.Advances script [.drained] { script with state := checked } :=
      .own (by simp [thread, polled, control, Control.held]) (by simp [thread, own, control, front])
        (Step.drained control front).sound
    have blocks : thread.Advances { script with state := checked } [.block] { script with state := blocked } :=
      .own rfl (by simp [thread, own, checked, left]) (Step.block rfl (by simp [checked, left])).sound
    have receives : thread.Advances { script with state := blocked } [.recv entry.1] { script with state := received } := by
      apply Advances.own rfl (by simp [thread, own, blocked, channel])
      simp [thread, executor, step, blocked, channel, State.unpark, found, front, received]
    have pops : thread.Advances { script with state := received } [.pop entry.1] _ :=
      .own rfl rfl (@Step.pop received .run ⟨entry.1, entry.1⟩ [] rfl rfl).sound
    refine ⟨_, _, drains.trans (blocks.trans (receives.trans pops)), rfl, rfl, ⟨⟨[], rfl, rfl⟩, ?_⟩, rfl⟩
    intro key
    have distinct := (List.nodup_cons.mp distinct).1
    simp only [received, HashMap.get_erase, waiting, channel, List.mem_cons]
    by_cases same : entry.1 = key
    · subst same
      rw [if_pos rfl, if_neg distinct]
    · simp only [same, Ne.symm same, if_false, false_or]

private theorem serves : Serves thread (fun task => Future.waking (values task)) Queue := by
  constructor
  · intro task pendings rest script queue follows
    have made := queue.2.2 (task, pendings + 1) List.mem_cons_self
    have code := follows.queued (task, pendings + 1) List.mem_cons_self
    obtain ⟨events, state, pops, silent, control, ⟨⟨polling, split, front⟩, waiting⟩, wakers⟩ :=
      pops_first queue follows.distinct
    have held : thread.polled state = some task := by simp [thread, polled, control, Control.held]
    have wakes : step state (.wake task) = some (state.send task) := (Step.wake (wakers ▸ made)).sound
    have parks := (@Step.pending (state.send task) .run ⟨task, task⟩ control).sound
    have polls : thread.Advances { script with state := state } _ _ := .waking_pending held code wakes held parks
    refine ⟨_, _, pops.trans polls, ?_, rfl, rfl, ⟨⟨polling, ?_, front⟩, ?_⟩, ?_⟩
    · rw [List.filterMap_append, silent]
      rfl
    · simp [split, State.send]
    · intro key
      simp only [State.send, HashMap.get_insert, waiting, List.mem_append, List.mem_singleton]
      by_cases same : task = key
      · simp [same]
      · simp [same, Ne.symm same]
    · intro entry member
      simp only [State.send, wakers]
      rcases List.mem_append.mp member with old | new
      · exact queue.2.2 entry (List.mem_cons_of_mem _ old)
      · rw [List.mem_singleton.mp new]
        exact made
  · intro task rest script queue follows
    have code := follows.queued (task, 0) List.mem_cons_self
    obtain ⟨events, state, pops, silent, control, ⟨⟨polling, split, front⟩, waiting⟩, wakers⟩ :=
      pops_first queue follows.distinct
    have held : thread.polled state = some task := by simp [thread, polled, control, Control.held]
    have returns := (@Step.ready state .run ⟨task, task⟩ control).sound
    have completes : thread.Advances { script with state := state } _ _ := .ready held code returns
    refine ⟨_, _, pops.trans completes, ?_, rfl, rfl, ⟨⟨polling, split, front⟩, waiting⟩, ?_⟩
    · rw [List.filterMap_append, silent]
      rfl
    · intro entry member
      simpa only [wakers] using queue.2.2 entry (List.mem_cons_of_mem _ member)
  · intro script done
    obtain ⟨control, ⟨⟨polling, split, front⟩, waiting⟩, _⟩ := done
    obtain ⟨rfl, channel⟩ := List.append_eq_nil_iff.mp split.symm
    have empty : script.state.waiting.isEmpty = true := by
      rw [HashMap.empty_iff]
      intro key
      simp [waiting, channel]
    let checked : State := { script.state with control := .check }
    have drains : thread.Advances script [.drained] { script with state := checked } :=
      .own (by simp [thread, polled, control, Control.held]) (by simp [thread, own, control, front])
        (Step.drained control front).sound
    have finishes : thread.Advances { script with state := checked } [.finish] _ :=
      .own rfl (by simp [thread, own, checked, empty, front]) (@Step.finish checked rfl front empty).sound
    refine ⟨_, _, drains.trans finishes, rfl, rfl, ?_⟩
    simp [next, thread, polled, own, Control.held]

private theorem spawns {count : Nat} (fits : count ≤ usizeSize) :
    executor.Reaches (List.replicate count .spawn_rcv)
      { count := count % usizeSize
        polling := (List.range count).map fun id => ⟨id, id⟩
        wakers := List.range count } := by
  induction count with
  | zero => exact .nil
  | succ count ih =>
    rw [List.replicate_succ', List.range_succ]
    have small : count % usizeSize = count := Nat.mod_eq_of_lt fits
    refine (ih (Nat.le_of_succ_le fits)).snoc ?_
    simp [executor, step, State.spawn_rcv, small]

private theorem runs {count : Nat} (fits : count ≤ usizeSize) :
    executor.Reaches (List.replicate count .spawn_rcv ++ [.run])
      { count := count % usizeSize
        polling := (List.range count).map fun id => ⟨id, id⟩
        wakers := List.range count
        control := .poll .run } :=
  (spawns fits).snoc (by simp [executor, step])

end Executor

/-- Whatever tasks are spawned up front, each waking itself in every pending poll,
all four executors poll them in the round-robin order until all are complete. -/
theorem schedules_alike (values : Nat → V) (pendings : List Nat) (fits : pendings.length ≤ 1024) :
    let waking := (numbered pendings).map fun entry => Future.waking (values entry.1) entry.2
    let yielding := (numbered pendings).map fun entry => Future.yielding (values entry.1) entry.2
    let polls := roundRobin (numbered pendings)
    Completes AsyncRuntime.thread [] waking polls ∧ Completes Executor.thread [.run] waking polls ∧
      Completes ScheduledCoroutine.thread [] waking polls ∧ Completes CoroutineExecutor.thread [] yielding polls := by
  have bounded : ∀ entry ∈ numbered pendings, entry.1 < pendings.length := by
    intro entry member
    rw [← List.mem_range, ← numbered_tasks]
    exact List.mem_map_of_mem member
  refine ⟨?_, ?_, ?_, ?_⟩
  · apply AsyncRuntime.serves.completes
    · rw [List.append_nil]
      exact AsyncRuntime.reaches_spawns _
    · exact ⟨(numbered_tasks pendings).symm, rfl, bounded⟩
  · have few : pendings.length ≤ Executor.usizeSize := Nat.le_trans fits (by decide)
    apply Executor.serves.completes
    · exact Executor.runs few
    · refine ⟨rfl, ⟨⟨List.range pendings.length, ?_, rfl⟩, ?_⟩, ?_⟩
      · simp [numbered_tasks, Scripted.start]
      · simp [Scripted.start]
      · intro entry member
        exact List.getElem?_range (bounded entry member)
  · apply ScheduledCoroutine.serves.completes
    · rw [List.append_nil]
      exact ScheduledCoroutine.spawns fits
    · refine ⟨(numbered_tasks pendings).symm, rfl, ?_, bounded⟩
      rw [numbered_length]
      exact fits
  · apply CoroutineExecutor.serves.completes
    · rw [List.append_nil]
      exact CoroutineExecutor.adds _
    · exact ⟨(numbered_tasks pendings).symm, rfl⟩

/-- A task that is ready at once, between two that are pending once and three times. -/
theorem schedules_alike_three :
    let pendings := [1, 0, 3]
    let waking := (numbered pendings).map fun entry => Future.waking entry.1 entry.2
    let polls := roundRobin (numbered pendings)
    Completes AsyncRuntime.thread [] waking polls ∧ Completes Executor.thread [.run] waking polls := by
  intro pendings waking polls
  have alike := schedules_alike id [1, 0, 3] (by decide)
  exact ⟨alike.1, alike.2.1⟩

end RustAsyncAwait
