import RustAsyncAwait.Proofs.ExecutorWakes
import Mathlib.Order.WellFounded

/-! `run` completes tasks that wake themselves. The rank that decreases is the
code left in all futures, then the ids left in the channel. -/

namespace RustAsyncAwait.Executor
open Library

variable {V : Type}

/-- What is known of one spawned future. While it is being polled the present
poll is already counted. -/
def Along (trace : List Event) (script : Scripted State V) (future : Nat) (original : Future V) : Prop :=
  script.code[future]? = some none ∧ .ready future ∈ trace ∧
      trace.count (.pop future) = original.pendings + 1 ∧
      script.received[future]? = some [original.value] ∨
    ∃ rest, script.code[future]? = some (some rest) ∧ .ready future ∉ trace ∧ rest.value = original.value ∧
      script.received[future]? = some [] ∧
      if polled script.state = some future then
        trace.count (.pop future) + rest.pendings = original.pendings + 1 ∧
          rest.Wakes (wokenSincePoll future trace)
      else trace.count (.pop future) + rest.pendings = original.pendings ∧ rest.Wakes false

/-- The invariant of a `run` over futures that wake themselves. -/
structure Going (trace : List Event) (script : Scripted State V) : Prop where
  reaches : executor.Reaches trace script.state
  spawned : script.spawned.length = script.state.spawned
  code : script.code.length = script.state.spawned
  received : script.received.length = script.state.spawned
  room : script.state.spawned + script.total Future.spawns ≤ usizeSize
  along : ∀ future original, script.spawned[future]? = some original → Along trace script future original
  parked : ∀ future, script.state.InWaiting future → wokenSincePoll future trace = true
  called : ∀ task, script.state.control ≠ .poll .owner ∧ script.state.control ≠ .polling .owner task
  waiting : script.state.control = .recv → script.state.waiting.isEmpty = false
  returned : script.state.control = .idle → script.state.polling = [] ∧ script.state.waiting.isEmpty = true

private theorem Going.fits {trace : List Event} {script : Scripted State V} (going : Going trace script) :
    script.state.spawned ≤ usizeSize := Nat.le_trans (Nat.le_add_right _ _) going.room

private theorem Going.tracked {trace : List Event} {script : Scripted State V} (going : Going trace script) :
    ∃ home, Tracks trace script.state home := Executor.tracked going.reaches going.fits

private theorem polled_iff {state : State} {future : Nat} :
    polled state = some future ↔ ∃ caller task, state.control = .polling caller task ∧ task.future = future := by
  cases control : state.control with
  | polling caller task => simp [polled, control, Control.held]
  | idle | poll _ | check | recv => simp [polled, control, Control.held]

section Along
variable {trace later : List Event} {script after : Scripted State V} {future : Nat} {original : Future V}

/-- Steps that are not about a future leave what is known of it. -/
private theorem Along.frame (along : Along trace script future original)
    (code : after.code[future]? = script.code[future]?) (received : after.received[future]? = script.received[future]?)
    (ready : .ready future ∈ later ↔ .ready future ∈ trace) (pop : later.count (.pop future) = trace.count (.pop future))
    (held : polled after.state = some future ↔ polled script.state = some future)
    (woken : polled script.state = some future → wokenSincePoll future later = wokenSincePoll future trace) :
    Along later after future original := by
  simp only [Along, code, received, ready, pop, held] at along ⊢
  rcases along with finished | ⟨rest, found, unfinished, value, empty, progress⟩
  · exact .inl finished
  · refine .inr ⟨rest, found, unfinished, value, empty, ?_⟩
    split
    next polling => simpa only [polling, if_true, woken polling] using progress
    next free => simpa only [free, if_false] using progress

/-- What is known of the future whose code is running. -/
private theorem Along.running (along : Along trace script future original) (held : polled script.state = some future)
    {code : Future V} (found : script.code[future]? = some (some code)) :
    .ready future ∉ trace ∧ code.value = original.value ∧ script.received[future]? = some [] ∧
      trace.count (.pop future) + code.pendings = original.pendings + 1 ∧
      code.Wakes (wokenSincePoll future trace) := by
  rcases along with ⟨finished, _⟩ | ⟨rest, same, unfinished, value, empty, progress⟩
  · rw [finished] at found
    cases found
  · rw [same] at found
    cases found
    rw [if_pos held] at progress
    exact ⟨unfinished, value, empty, progress.1, progress.2⟩

/-- The running future has performed an effect and its poll goes on. -/
private theorem Along.resumed (along : Along trace script future original) (held : polled script.state = some future)
    {code : Future V} (rest : Future V) (found : script.code[future]? = some (some code))
    (resumed : after.code[future]? = some (some rest)) (received : after.received[future]? = script.received[future]?)
    (ready : .ready future ∈ later ↔ .ready future ∈ trace) (pop : later.count (.pop future) = trace.count (.pop future))
    (still : polled after.state = some future) (value : rest.value = code.value) (pendings : rest.pendings = code.pendings)
    (wakes : code.Wakes (wokenSincePoll future trace) → rest.Wakes (wokenSincePoll future later)) :
    Along later after future original := by
  obtain ⟨unfinished, same, empty, count, woken⟩ := along.running held found
  refine .inr ⟨rest, resumed, fun member => unfinished (ready.mp member), value.trans same, received.trans empty, ?_⟩
  rw [if_pos still, pop, pendings]
  exact ⟨count, wakes woken⟩

/-- A future that has just been spawned. -/
private theorem Along.spawned {child : Future V} (unpopped : .pop future ∉ trace) (unfinished : .ready future ∉ trace)
    (code : script.code[future]? = some (some child)) (received : script.received[future]? = some [])
    (unpolled : polled script.state ≠ some future) (wakes : child.Wakes false) :
    Along trace script future child := by
  refine .inr ⟨child, code, unfinished, rfl, received, ?_⟩
  rw [if_neg unpolled, List.count_eq_zero_of_not_mem unpopped]
  exact ⟨Nat.zero_add _, wakes⟩

end Along

/-- The code that runs belongs to a spawned future. -/
private theorem Going.running {trace : List Event} {script : Scripted State V} {future : Nat} {code : Future V}
    (going : Going trace script) (held : polled script.state = some future)
    (found : script.code[future]? = some (some code)) :
    future < script.spawned.length ∧ .ready future ∉ trace ∧ code.Wakes (wokenSincePoll future trace) := by
  have inside : future < script.spawned.length := by
    rw [going.spawned, ← going.code]
    exact (List.getElem?_eq_some_iff.mp found).1
  have along := going.along future _ (List.getElem?_eq_getElem inside)
  obtain ⟨unfinished, _, _, _, wakes⟩ := along.running held found
  exact ⟨inside, unfinished, wakes⟩

private theorem own_cases {state : State} {event : Event} (chosen : own state = some event) :
    (∃ future, event = .pop future) ∨ event = .drained ∨ event = .finish ∨ event = .block ∨
      ∃ task_id, event = .recv task_id := by
  simp only [own] at chosen
  split at chosen
  · cases chosen
  · cases chosen
  · split at chosen <;> cases chosen <;> simp
  · split at chosen <;> cases chosen <;> simp
  · obtain ⟨task_id, _, rfl⟩ := Option.map_eq_some_iff.mp chosen
    simp

private theorem polled_none {state : State} (free : polled state = none) (caller : Caller) (task : Task) :
    state.control ≠ .polling caller task := by
  intro control
  simp [polled, control, Control.held] at free

/-- The executor's own steps do not touch futures; `pop` begins a poll. -/
private theorem Along.own {trace : List Event} {script : Scripted State V} {state : State} {event : Event}
    {future : Nat} {original : Future V} (along : Along trace script future original)
    (free : polled script.state = none) (chosen : own script.state = some event)
    (unfinished : event = .pop future → .ready future ∉ trace)
    (stepped : step script.state event = some state) : Along (trace ++ [event]) { script with state } future original := by
  have unpolled : polled script.state ≠ some future := by simp [free]
  have quiet (idle : polled state = none) (pop : event ≠ .pop future) (ready : event ≠ .ready future) :
      Along (trace ++ [event]) { script with state } future original := by
    refine along.frame rfl rfl ?_ ?_ (by simp [idle, free]) (fun held => absurd held unpolled)
    · simp [ready.symm]
    · simp [List.count_append, pop]
  cases step_cases stepped with
  | @pop caller task rest control front =>
    by_cases same : task.future = future
    · subst same
      rcases along with ⟨_, finished, _⟩ | ⟨code, found, unfinished, value, empty, progress⟩
      · exact absurd finished (unfinished rfl)
      · rw [if_neg unpolled] at progress
        refine .inr ⟨code, found, by simpa using unfinished, value, empty, ?_⟩
        have held : polled { script.state with polling := rest, control := .polling caller task } = some task.future := rfl
        rw [if_pos held, wokenSincePoll_snoc, List.count_append, List.count_singleton_self]
        simp only [bne_self_eq_false, Bool.and_false]
        exact ⟨by omega, progress.2⟩
    · refine along.frame rfl rfl (by simp) ?_ ?_ (fun held => absurd held unpolled)
      · simp [List.count_append, same]
      · exact ⟨fun held => absurd (Option.some.inj held) same, fun held => absurd held unpolled⟩
  | @drained caller control empty => exact quiet (by cases caller <;> rfl) (by simp) (by simp)
  | finish _ _ _ | block _ _ => exact quiet rfl (by simp) (by simp)
  | recv control head => exact quiet (by simp [polled, unpark_control, Control.held]) (by simp) (by simp)
  | spawn_rcv _ | wake _ | run _ | poll _ => simpa using own_cases chosen
  | pending control | ready control => exact absurd control (polled_none free _ _)

/-- A future is polled only after it was spawned. -/
private theorem popped_spawned {trace : List Event} {state : State} (reaches : executor.Reaches trace state)
    (fits : state.spawned ≤ usizeSize) (future : Nat) : .pop future ∈ trace → future < state.spawned := by
  refine reaches.trace_invariant
    (fun trace state => state.spawned ≤ usizeSize → .pop future ∈ trace → future < state.spawned) ?_ ?_ fits
  · simp
  · intro trace state event next reached earlier stepped fits member
    have stepped := step_cases stepped
    have grown := stepped.spawned_le
    have fits := Nat.le_trans grown fits
    rcases List.mem_append.mp member with member | member
    · exact Nat.lt_of_lt_of_le (earlier fits member) grown
    · obtain ⟨home, tracks⟩ := tracked reached fits
      rw [List.mem_singleton] at member
      subst member
      cases stepped with
      | @pop caller task rest control front =>
        have queued : state.InPolling task.future := ⟨task, by simp [front], rfl⟩
        exact (tracks.of_placed (tracks.inPolling.mp queued)).1

private theorem thread_cases {state next : State} {event : Event} (stepped : thread.step state event = some next) :
    Step state event next := step_cases (show step state event = some next from stepped)

/-- The effects of the running future concern itself and a future it spawns. -/
private theorem Going.along_turn {trace events : List Event} {script after : Scripted State V}
    (going : Going trace script) (turn : thread.Turn script events after) (future : Nat) (original : Future V)
    (found : after.spawned[future]? = some original) : Along (trace ++ events) after future original := by
  obtain ⟨home, tracks⟩ := going.tracked
  cases turn with
  | @own event state free chosen stepped =>
    refine (going.along future original found).own free chosen ?_ stepped
    intro same finished
    subst same
    cases thread_cases stepped with
    | @pop caller task rest control front =>
      have queued : script.state.InPolling task.future := ⟨task, by simp [front], rfl⟩
      exact (tracks.of_placed (tracks.inPolling.mp queued)).2 finished
  | @wake_by_ref running rest state held code stepped =>
    have along := going.along future original found
    cases thread_cases stepped with
    | wake made =>
      by_cases same : running = future
      · subst same
        refine along.resumed held rest code (script.resume_code_self rest code) rfl
          (by simp [thread]) (by simp [thread, List.count_append]) held rfl rfl ?_
        simp only [thread, wokenSincePoll_snoc, beq_self_eq_true, Bool.or_true]
        exact id
      · exact along.frame (script.resume_code_other rest same) rfl (by simp [thread])
          (by simp [thread, List.count_append]) Iff.rfl (by simp [thread, wokenSincePoll_snoc, same])
  | @wake running other rest state held code known stepped =>
    have along := going.along future original found
    cases thread_cases stepped with
    | wake made =>
      by_cases same : running = future
      · subst same
        refine along.resumed held rest code (script.resume_code_self rest code) rfl
          (by simp [thread]) (by simp [thread, List.count_append]) held rfl rfl ?_
        simp only [thread, wokenSincePoll_snoc]
        intro wakes
        cases woken : wokenSincePoll running trace with
        | false => exact Future.Wakes.weaken (by simpa [woken, Future.Wakes] using wakes) _
        | true => simpa [woken, Future.Wakes] using wakes
      · have unpolled : polled script.state ≠ some future := by
          intro polling
          exact same (Option.some.inj (held.symm.trans polling))
        exact along.frame (script.resume_code_other rest same) rfl (by simp [thread])
          (by simp [thread, List.count_append]) Iff.rfl (fun polling => absurd polling unpolled)
  | @unknown running other rest held code _ =>
    have along := going.along future original found
    by_cases same : running = future
    · subst same
      exact along.resumed held rest code (script.resume_code_self rest code) rfl (by simp) (by simp) held rfl rfl
        (by simp [Future.Wakes])
    · exact along.frame (script.resume_code_other rest same) rfl (by simp) (by simp) Iff.rfl (by simp)
  | @spawn running child rest state held code stepped =>
    obtain ⟨present, _, wakes⟩ := going.running held code
    have length : (script.resume running rest).code.length = script.spawned.length :=
      (script.resume_length running rest).trans (going.code.trans going.spawned.symm)
    have stored : (script.resume running rest).received.length = script.spawned.length :=
      going.received.trans going.spawned.symm
    cases thread_cases stepped with
    | spawn_rcv outside =>
      by_cases old : future < script.spawned.length
      · have along := going.along future original ((Scripted.add_spawned_old _ child old).symm.trans found)
        have code_old := (script.resume running rest).add_code_old child (length.symm ▸ old)
        have received_old := (script.resume running rest).add_received_old child (stored.symm ▸ old)
        by_cases same : running = future
        · subst same
          exact along.resumed held rest code (code_old.trans (script.resume_code_self rest code)) received_old
            (by simp [thread]) (by simp [thread, List.count_append]) held rfl rfl
            (by simp [thread, wokenSincePoll_snoc, Future.Wakes])
        · exact along.frame (code_old.trans (script.resume_code_other rest same)) received_old (by simp [thread])
            (by simp [thread, List.count_append]) Iff.rfl (by simp [thread, wokenSincePoll_snoc])
      · obtain ⟨newest, rfl⟩ := (script.resume running rest).add_spawned_new child old found
        have outside : ¬ future < script.state.spawned := by rwa [← going.spawned]
        apply Along.spawned
        · simpa [thread] using mt (popped_spawned going.reaches going.fits future) outside
        · simpa [thread] using mt (tracks.finished future) outside
        · rw [newest, show (script.resume running rest).spawned.length = _ from length.symm]
          exact Scripted.add_code_new _ original
        · rw [newest, show (script.resume running rest).spawned.length = _ from stored.symm]
          exact Scripted.add_received_new _ original
        · intro polling
          exact old (Option.some.inj (held.symm.trans polling) ▸ present)
        · exact wakes.1
  | @pending running rest state held code stepped =>
    have along := going.along future original found
    cases thread_cases stepped with
    | @pending caller task control =>
      by_cases same : task.future = future
      · subst same
        obtain ⟨unfinished, value, empty, count, woken⟩ := along.running held code
        refine .inr ⟨rest, script.resume_code_self rest code, by simpa [thread] using unfinished, value, empty, ?_⟩
        rw [if_neg (by simp [polled, Control.held])]
        simp only [Future.pendings] at count
        exact ⟨by simp [thread, List.count_append]; omega, woken.2⟩
      · exact along.frame (script.resume_code_other rest same) rfl (by simp [thread])
          (by simp [thread, List.count_append]) (by simp [polled, Control.held, control, same])
          (by simp [thread, wokenSincePoll_snoc])
  | @ready running value state held code stepped =>
    have along := going.along future original found
    cases thread_cases stepped with
    | @ready caller task control =>
      by_cases same : task.future = future
      · subst same
        obtain ⟨unfinished, result, empty, count, _⟩ := along.running held code
        refine .inl ⟨script.deliver_code_self value code, by simp [thread], ?_, ?_⟩
        · simp only [Future.pendings] at count
          simp [thread, List.count_append]
          omega
        · simp only [Future.value] at result
          exact (script.deliver_received_self value empty).trans (by simp [result])
      · exact along.frame (script.deliver_code_other value same) (script.deliver_received_other value same)
          (by simp [thread, Ne.symm same]) (by simp [thread, List.count_append])
          (by simp [polled, Control.held, control, same]) (by simp [thread, wokenSincePoll_snoc])

private theorem Going.room_turn {trace events : List Event} {script after : Scripted State V}
    (going : Going trace script) (turn : thread.Turn script events after) :
    after.state.spawned + after.total Future.spawns ≤ usizeSize := by
  have room := going.room
  cases turn with
  | @own event state free chosen stepped =>
    have same := (thread_cases stepped).spawned_eq
    rcases own_cases chosen with ⟨_, rfl⟩ | rfl | rfl | rfl | ⟨_, rfl⟩ <;>
      simpa [Scripted.total, same] using room
  | @wake_by_ref _ rest state _ code stepped | @wake _ _ rest state _ code _ stepped
  | @pending _ rest state _ code stepped =>
    have same : state.spawned = script.state.spawned := by simpa [thread] using (thread_cases stepped).spawned_eq
    have total := script.resume_total Future.spawns rest code
    simp only [Future.spawns, Scripted.total] at total room ⊢
    omega
  | @unknown _ _ rest _ code _ =>
    have total := script.resume_total Future.spawns rest code
    have same : ∀ future, (script.resume future rest).state.spawned = script.state.spawned := fun _ => rfl
    simp only [Future.spawns] at total
    rw [same]
    omega
  | @spawn running child rest state _ code stepped =>
    have more : state.spawned = script.state.spawned + 1 := by simpa [thread] using (thread_cases stepped).spawned_eq
    have total := script.resume_total Future.spawns rest code
    have grown := (script.resume running rest).add_total Future.spawns child
    simp only [Future.spawns, Scripted.total] at total grown room ⊢
    omega
  | @ready _ value state _ code stepped =>
    have same : state.spawned = script.state.spawned := by simpa [thread] using (thread_cases stepped).spawned_eq
    have total := script.deliver_total Future.spawns value code
    simp only [Future.spawns, Scripted.total] at total room ⊢
    omega

/-- A future that waits was woken in its latest poll. -/
private theorem Going.parked_turn {trace events : List Event} {script after : Scripted State V}
    (going : Going trace script) (turn : thread.Turn script events after) (future : Nat)
    (waits : after.state.InWaiting future) : wokenSincePoll future (trace ++ events) = true := by
  obtain ⟨home, tracks⟩ := going.tracked
  cases turn with
  | @own event state free chosen stepped =>
    cases thread_cases stepped with
    | @pop caller task rest control front =>
      have woken := going.parked future waits
      rw [wokenSincePoll_snoc]
      simp only [woken, Bool.true_and, bne_iff_ne]
      intro same
      have polling := tracks.inPolling.mp ⟨task, by simp [front], same⟩
      rw [tracks.inWaiting.mp waits] at polling
      cases polling
    | @drained caller control empty =>
      have waits : script.state.InWaiting future := by cases caller <;> exact waits
      simpa [wokenSincePoll_snoc] using going.parked future waits
    | finish _ _ _ | block _ _ => simpa [wokenSincePoll_snoc] using going.parked future waits
    | @recv task_id rest control head =>
      have waits : script.state.InWaiting future := by
        obtain ⟨key, task, found, same⟩ := waits
        refine ⟨key, task, ?_, same⟩
        simp only [State.unpark] at found
        split at found
        · simp only [HashMap.get_erase] at found
          split at found
          · cases found
          · exact found
        · exact found
      simpa [wokenSincePoll_snoc] using going.parked future waits
    | spawn_rcv _ | wake _ | run _ | poll _ => simpa using own_cases chosen
    | pending control | ready control => exact absurd control (polled_none free _ _)
  | wake_by_ref _ _ stepped | wake _ _ _ stepped =>
    cases thread_cases stepped with
    | wake made =>
      have woken := going.parked future waits
      simp [thread, wokenSincePoll_snoc, woken]
  | unknown _ _ _ => simpa using going.parked future waits
  | spawn _ _ stepped =>
    cases thread_cases stepped with
    | spawn_rcv outside =>
      have woken := going.parked future waits
      simp [thread, wokenSincePoll_snoc, woken]
  | pending held code stepped =>
    cases thread_cases stepped with
    | @pending caller task control =>
      simp only [thread, wokenSincePoll_snoc]
      obtain ⟨key, other, found, rfl⟩ := waits
      simp only [HashMap.get_insert] at found
      split at found
      · cases found
        exact (going.running held code).2.2.1
      · exact going.parked _ ⟨key, other, found, rfl⟩
  | ready _ _ stepped =>
    cases thread_cases stepped with
    | ready control =>
      have woken := going.parked future waits
      simp [thread, wokenSincePoll_snoc, woken]

/-- Where the thread can stand in a `run` that nobody calls `poll` beside. -/
private theorem Going.control_turn {trace events : List Event} {script after : Scripted State V}
    (going : Going trace script) (turn : thread.Turn script events after) :
    (∀ task, after.state.control ≠ .poll .owner ∧ after.state.control ≠ .polling .owner task) ∧
      (after.state.control = .recv → after.state.waiting.isEmpty = false) ∧
      (after.state.control = .idle → after.state.polling = [] ∧ after.state.waiting.isEmpty = true) := by
  obtain ⟨home, tracks⟩ := going.tracked
  have called := going.called
  cases turn with
  | @own event state free chosen stepped =>
    have chosen_cases := own_cases chosen
    cases thread_cases stepped with
    | @pop caller task rest control front =>
      cases caller with
      | owner => exact absurd control (called task).1
      | run => simp
    | @drained caller control empty =>
      cases caller with
      | owner => exact absurd control (called ⟨0, 0⟩).1
      | run => simp [State.returnFromPoll]
    | finish control polling waiting => simp [polling, waiting]
    | block control left =>
      have empty := tracks.drained (.inl control)
      simpa [empty] using left
    | recv control head => simp
    | spawn_rcv _ | wake _ | run _ | poll _ => simp at chosen_cases
    | pending control | ready control => exact absurd control (polled_none free _ _)
  | wake_by_ref held _ stepped | wake held _ _ stepped =>
    obtain ⟨caller, task, control, _⟩ := polled_iff.mp held
    cases thread_cases stepped with
    | wake made => simpa [State.send, control] using called
  | unknown held _ _ =>
    obtain ⟨caller, task, control, _⟩ := polled_iff.mp held
    simpa [Scripted.resume, control] using called
  | spawn held _ stepped =>
    obtain ⟨caller, task, control, _⟩ := polled_iff.mp held
    cases thread_cases stepped with
    | spawn_rcv outside => simpa [State.spawn_rcv, control] using called
  | pending _ _ stepped =>
    cases thread_cases stepped with
    | @pending caller task control =>
      cases caller with
      | owner => exact absurd control (called task).2
      | run => simp
  | ready _ _ stepped =>
    cases thread_cases stepped with
    | @ready caller task control =>
      cases caller with
      | owner => exact absurd control (called task).2
      | run => simp

private theorem Going.turn {trace events : List Event} {script after : Scripted State V}
    (going : Going trace script) (turn : thread.Turn script events after) : Going (trace ++ events) after := by
  have lengths : after.spawned.length = after.state.spawned ∧ after.code.length = after.state.spawned ∧
      after.received.length = after.state.spawned := by
    obtain ⟨_, spawned, code, received, _⟩ := going
    cases turn with
    | @own event state free chosen stepped =>
      have same := (thread_cases stepped).spawned_eq
      rcases own_cases chosen with ⟨_, rfl⟩ | rfl | rfl | rfl | ⟨_, rfl⟩ <;> simp_all
    | wake_by_ref _ _ stepped | wake _ _ _ stepped | pending _ _ stepped =>
      have same := (thread_cases stepped).spawned_eq
      simp_all [thread, Scripted.resume]
    | unknown => simp_all [Scripted.resume]
    | spawn _ _ stepped =>
      have same := (thread_cases stepped).spawned_eq
      simp_all [thread, Scripted.resume, Scripted.add]
    | ready _ _ stepped =>
      have same := (thread_cases stepped).spawned_eq
      simp_all [thread, Scripted.deliver]
  have runs : executor.runFrom script.state events = some after.state := turn.runs
  obtain ⟨called, waiting, returned⟩ := going.control_turn turn
  exact ⟨going.reaches.append runs, lengths.1, lengths.2.1, lengths.2.2, going.room_turn turn,
    going.along_turn turn, going.parked_turn turn, called, waiting, returned⟩

def controlRank : Control → Nat
  | .poll _ => 3
  | .check => 2
  | .recv => 1
  | .polling _ _ | .idle => 0

/-- The code left in all futures, then the ids in the channel, then the place in
the loop of `run`. -/
def rank (script : Scripted State V) : Nat × Nat × Nat :=
  (script.total Future.size, script.state.channel.length, controlRank script.state.control)

private theorem rank_decreases {script after : Scripted State V} {events : List Event}
    (turn : thread.Turn script events after) :
    Prod.Lex (· < ·) (Prod.Lex (· < ·) (· < ·)) (rank after) (rank script) := by
  cases held : thread.polled script.state with
  | some future => exact .left _ _ (turn.size_lt held)
  | none =>
    cases turn with
    | @own event state free chosen stepped =>
      apply Prod.Lex.right
      cases thread_cases stepped with
      | pop control front =>
        apply Prod.Lex.right
        simp [controlRank, control]
      | @drained caller control empty =>
        cases caller <;>
        · apply Prod.Lex.right
          simp [State.returnFromPoll, controlRank, control]
      | finish control _ _ | block control _ =>
        apply Prod.Lex.right
        simp [controlRank, control]
      | recv control head =>
        apply Prod.Lex.left
        simp [head]
      | spawn_rcv _ | wake _ | run _ | poll _ => simpa using own_cases chosen
      | pending control | ready control => exact absurd control (polled_none free _ _)
    | wake_by_ref busy | wake busy | unknown busy | spawn busy | pending busy | ready busy =>
      rw [held] at busy
      cases busy

/-- `receiver.recv()` would block. -/
def Blocked (state : State) : Prop := state.control = .recv ∧ state.channel = []

private theorem Going.unblocked {trace : List Event} {script : Scripted State V} (going : Going trace script) :
    ¬ Blocked script.state := by
  intro stuck
  obtain ⟨control, empty⟩ := stuck
  obtain ⟨home, tracks⟩ := going.tracked
  have left : ¬ ∀ key : Nat, script.state.waiting[key]? = none := by
    rw [← HashMap.empty_iff, going.waiting control]
    simp
  obtain ⟨key, present⟩ := not_forall.mp left
  obtain ⟨task, found⟩ := Option.ne_none_iff_exists'.mp present
  have waits : script.state.InWaiting task.future := ⟨key, task, found, rfl⟩
  have placed := tracks.inWaiting.mp waits
  obtain ⟨inside, unfinished⟩ := tracks.of_placed placed
  rcases queued going.reaches going.fits task.future inside unfinished (going.parked _ waits) with polling | sent
  · rw [tracks.inPolling.mp polling] at placed
    cases placed
  · simp [empty] at sent

private theorem own_step {state : State} (free : polled state = none) (busy : state.control ≠ .idle)
    (unblocked : ¬ Blocked state) : ∃ event next, own state = some event ∧ Step state event next := by
  cases control : state.control with
  | idle => exact absurd control busy
  | polling caller task => exact absurd control (polled_none free caller task)
  | poll caller =>
    cases polling : state.polling with
    | nil => exact ⟨_, _, by simp [own, control, polling], .drained control polling⟩
    | cons task rest => exact ⟨_, _, by simp [own, control, polling], .pop control polling⟩
  | check =>
    by_cases done : state.polling = [] ∧ state.waiting.isEmpty = true
    · exact ⟨.finish, _, by simp [own, control, done], .finish control done.1 done.2⟩
    · exact ⟨.block, _, by simpa [own, control] using done, .block control done⟩
  | recv =>
    cases channel : state.channel with
    | nil => exact absurd ⟨control, channel⟩ unblocked
    | cons task_id rest => exact ⟨_, _, by simp [own, control, channel], .recv control channel⟩

/-- A future's effects are never refused: its waker exists, and spawning never blocks. -/
private theorem Going.effect {trace : List Event} {script : Scripted State V} {caller : Caller} {task : Task}
    (going : Going trace script) (control : script.state.control = .polling caller task) :
    ∃ events after, thread.Turn script events after := by
  have held : polled script.state = some task.future := polled_iff.mpr ⟨caller, task, control, rfl⟩
  obtain ⟨home, tracks⟩ := going.tracked
  obtain ⟨inside, unfinished⟩ := tracks.of_placed (tracks.beingPolled.mp ⟨caller, task, control, rfl⟩)
  obtain ⟨original, spawned⟩ : ∃ original, script.spawned[task.future]? = some original :=
    ⟨_, List.getElem?_eq_getElem (going.spawned ▸ inside)⟩
  have known (other : Nat) (present : other < script.spawned.length) :
      ∃ task_id, script.state.wakers[other]? = some task_id := ⟨other, tracks.wakers other (going.spawned ▸ present)⟩
  rcases going.along task.future original spawned with ⟨_, finished, _⟩ | ⟨rest, code, _⟩
  · exact absurd finished unfinished
  · obtain ⟨task_id, made⟩ := known task.future (going.spawned ▸ inside)
    cases rest with
    | wake_by_ref rest => exact ⟨_, _, .wake_by_ref held code (Step.wake made).sound⟩
    | wake other rest =>
      by_cases present : other < script.spawned.length
      · obtain ⟨task_id, made⟩ := known other present
        exact ⟨_, _, .wake held code present (Step.wake made).sound⟩
      · exact ⟨_, _, .unknown held code present⟩
    | spawn child rest => exact ⟨_, _, .spawn held code (Step.spawn_rcv (.inr ⟨caller, task, control⟩)).sound⟩
    | pending rest => exact ⟨_, _, .pending held code (Step.pending control).sound⟩
    | ready value => exact ⟨_, _, .ready held code (Step.ready control).sound⟩

/-- The thread stops only where `run` returns. -/
private theorem Going.stuck {trace : List Event} {script : Scripted State V} (going : Going trace script)
    (stuck : thread.next script = none) : script.state.control = .idle := by
  by_contra busy
  cases held : polled script.state with
  | none =>
    obtain ⟨event, next, chosen, stepped⟩ := own_step held busy going.unblocked
    rw [(PollingMachine.Turn.own held chosen stepped.sound).sound] at stuck
    cases stuck
  | some future =>
    obtain ⟨caller, task, control, _⟩ := polled_iff.mp held
    obtain ⟨events, after, turn⟩ := going.effect control
    rw [turn.sound] at stuck
    cases stuck

private theorem spawns_reach (futures : List (Future V)) :
    let state := futures.foldl (fun (state : State) _ => state.spawn_rcv) {}
    executor.Reaches (List.replicate futures.length .spawn_rcv) state ∧ state.control = .idle ∧
      state.waiting = ∅ ∧ state.spawned = futures.length := by
  induction futures using List.reverseRecOn with
  | nil => exact ⟨.nil, rfl, rfl, rfl⟩
  | append_singleton futures future ih =>
    obtain ⟨reaches, control, waiting, spawned⟩ := ih
    simp only [List.foldl_append, List.foldl_cons, List.foldl_nil, List.length_append, List.length_singleton]
    rw [List.replicate_succ']
    refine ⟨reaches.snoc (Step.spawn_rcv (.inl control)).sound, control, waiting, ?_⟩
    simpa [State.spawn_rcv, State.spawned] using spawned

theorem started_reaches (futures : List (Future V)) :
    executor.Reaches (List.replicate futures.length .spawn_rcv ++ [.run]) (started futures).state := by
  obtain ⟨reaches, control, _⟩ := spawns_reach futures
  exact reaches.snoc (Step.run control).sound

private theorem Going.initial (futures : List (Future V)) (wakes : ∀ future ∈ futures, future.Wakes false)
    (fewer : futures.length + (futures.map Future.spawns).sum ≤ usizeSize) :
    Going (List.replicate futures.length .spawn_rcv ++ [.run]) (started futures) := by
  obtain ⟨_, _, waiting, spawned⟩ := spawns_reach futures
  constructor
  · exact started_reaches futures
  · exact spawned.symm
  · exact List.length_map _ |>.trans spawned.symm
  · exact List.length_map _ |>.trans spawned.symm
  · have total : (started futures).total Future.spawns = (futures.map Future.spawns).sum := by
      simp [Scripted.total, started, Scripted.start, Function.comp_def]
    rw [total]
    exact Nat.le_trans (Nat.le_of_eq (congrArg (· + _) spawned)) fewer
  · intro future original found
    have found : futures[future]? = some original := found
    have inside : future < futures.length := (List.getElem?_eq_some_iff.mp found).1
    refine .spawned (by simp [List.mem_replicate]) (by simp [List.mem_replicate]) (by simp [started, Scripted.start, found])
      (by simp [started, Scripted.start, inside]) (by simp [started, Scripted.start, polled, Control.held]) ?_
    exact wakes original (List.mem_of_getElem? found)
  · intro future parked
    obtain ⟨key, task, found, _⟩ := parked
    simp [started, Scripted.start, waiting] at found
  · simp [started, Scripted.start]
  · simp [started, Scripted.start]
  · simp [started, Scripted.start]

/-- `run` has returned, every task was polled until it was ready and no further,
and every receiver holds its one value. -/
structure Completed (futures : List (Future V)) (trace : List Event) (final : Scripted State V) : Prop where
  returned : final.state.control = .idle
  given : futures <+: final.spawned
  polls : ∀ (future : Nat) original, final.spawned[future]? = some original →
    trace.count (.pop future) = original.pendings + 1
  receivers : ∀ (future : Nat) original, final.spawned[future]? = some original →
    final.received[future]? = some [original.value]

/-- The call of `run` terminates in a completed state and is never blocked. -/
def RunCompletes (futures : List (Future V)) : Prop :=
  (∃ trace final, thread.Advances (started futures) trace final ∧ Completed futures trace final) ∧
    ∀ trace reached, thread.Advances (started futures) trace reached → ¬ Blocked reached.state

private theorem Tracks.unplaced {trace : List Event} {state : State} {home : Nat → Option Place} {future : Nat}
    (tracks : Tracks trace state home) (polling : state.polling = []) (waiting : state.waiting.isEmpty = true)
    (free : state.control.held = none) : ¬ ∃ place, home future = some place := by
  intro placed
  obtain ⟨place, placed⟩ := placed
  cases place with
  | polling =>
    have member := (tracks.polling future future).mpr ⟨rfl, placed⟩
    simp [polling] at member
  | waiting =>
    have found := (tracks.waiting future future future).mpr ⟨rfl, rfl, placed⟩
    rw [HashMap.empty_iff] at waiting
    simp [waiting] at found
  | polled =>
    have held := (tracks.polled future future).mpr ⟨rfl, placed⟩
    simp [free] at held

/-- The converse asks nothing of the tasks. -/
private theorem finish_completes {trace : List Event} {state : State}
    (reaches : executor.Reaches (trace ++ [.finish]) state) (fewer : trace.count .spawn_rcv ≤ usizeSize) :
    ∀ future, future < state.spawned → .ready future ∈ trace := by
  intro future inside
  have fits : state.spawned ≤ usizeSize := by
    rw [spawned_eq reaches]
    simpa using fewer
  obtain ⟨home, tracks⟩ := tracked reaches fits
  obtain ⟨before, _, stepped⟩ := Machine.reaches_snoc.mp reaches
  cases step_cases (show step before .finish = some state from stepped) with
  | finish control polling waiting =>
    by_contra unfinished
    exact tracks.unplaced polling waiting (by simp [Control.held]) (tracks.alive inside (by simpa using unfinished))

/-- Where `run` has returned, all that is known of a future is that it is ready. -/
private theorem Going.finished {trace : List Event} {script : Scripted State V} {future : Nat} {original : Future V}
    (going : Going trace script) (control : script.state.control = .idle)
    (found : script.spawned[future]? = some original) :
    trace.count (.pop future) = original.pendings + 1 ∧ script.received[future]? = some [original.value] := by
  obtain ⟨home, tracks⟩ := going.tracked
  have inside : future < script.state.spawned := going.spawned ▸ (List.getElem?_eq_some_iff.mp found).1
  obtain ⟨polling, waiting⟩ := going.returned control
  have done : .ready future ∈ trace := by
    by_contra unfinished
    exact tracks.unplaced polling waiting (by simp [control, Control.held]) (tracks.alive inside unfinished)
  rcases going.along future original found with ⟨_, _, polls, received⟩ | ⟨_, _, unfinished, _⟩
  · exact ⟨polls, received⟩
  · exact absurd done unfinished

/-- With at most 2^64 tasks in all, `run` completes tasks that wake themselves
before every `Pending`, and it returns only once all tasks are complete. -/
theorem run_completes (futures : List (Future V)) (wakes : ∀ future ∈ futures, future.Wakes false)
    (fewer : futures.length + (futures.map Future.spawns).sum ≤ usizeSize) :
    RunCompletes futures ∧
      ∀ trace state, executor.Reaches (trace ++ [.finish]) state → trace.count .spawn_rcv ≤ usizeSize →
        ∀ future, future < state.spawned → .ready future ∈ trace := by
  have initial := Going.initial futures wakes fewer
  have kept (trace : List Event) (script : Scripted State V) (events : List Event) (after : Scripted State V)
      (going : Going trace script ∧ futures <+: script.spawned) (stepped : thread.next script = some (events, after)) :
      Going (trace ++ events) after ∧ futures <+: after.spawned := by
    have turn := PollingMachine.next_cases stepped
    exact ⟨going.1.turn turn, going.2.trans turn.spawned_prefix⟩
  refine ⟨⟨?_, ?_⟩, fun trace state reaches fewer => finish_completes reaches fewer⟩
  · have wf : WellFounded (Prod.Lex (· < ·) (Prod.Lex (· < ·) (· < ·)) : Nat × Nat × Nat → Nat × Nat × Nat → Prop) :=
      Nat.lt_wfRel.wf.prod_lex (Nat.lt_wfRel.wf.prod_lex Nat.lt_wfRel.wf)
    obtain ⟨trace, final, advances, stuck, going, given⟩ := PollingMachine.Advances.terminates wf rank
      (fun trace script => Going trace script ∧ futures <+: script.spawned)
      (fun trace script events after going stepped =>
        ⟨kept trace script events after going stepped, rank_decreases (PollingMachine.next_cases stepped)⟩)
      (started futures) ⟨initial, List.prefix_refl _⟩
    have control := going.stuck stuck
    refine ⟨trace, final, advances, control, given, ?_, ?_⟩
    · intro future original found
      have polls := (going.finished control found).1
      simpa [List.count_append, List.count_replicate] using polls
    · intro future original found
      exact (going.finished control found).2
  · intro trace reached advances
    have going := advances.invariant (fun trace script => Going trace script ∧ futures <+: script.spawned)
      ⟨initial, List.prefix_refl _⟩ kept
    exact going.1.unblocked

/-- One task wakes itself twice and another before it is pending; the other spawns. -/
theorem run_completes_mixed_wakes :
    let futures : List (Future Nat) :=
      [.wake_by_ref (.wake 1 (.wake_by_ref (.pending (.ready 7)))), .spawn (.wake_by_ref (.pending (.ready 8))) (.ready 9)]
    RunCompletes futures := by
  intro futures
  exact (run_completes futures (by simp [futures, Future.Wakes]) (by decide)).1

end RustAsyncAwait.Executor
