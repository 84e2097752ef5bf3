import RustAsyncAwait.Proofs.ExecutorCompletion

/-! What happens after 2^64 spawns. Each task of a chain spawns the next and is
ready, so one call of `poll` goes through all ids and the last task gets the id
of the first, which is still waiting. -/

namespace RustAsyncAwait.Executor
open Library

/-- Wakes itself, is pending once, and is then ready. -/
def sleeper : Future Nat := .wake_by_ref (.pending (.ready 0))

def chain : Nat → Future Nat
  | 0 => sleeper
  | links + 1 => .spawn (chain links) (.ready 0)

theorem chain_wakes (links : Nat) : (chain links).Wakes false := by
  induction links with
  | zero => simp [chain, sleeper, Future.Wakes]
  | succ links ih => exact ⟨ih, trivial⟩

/-- The first task waits with its id sent, and the chain has come to `future`. -/
def State.chained (future : Nat) (wakers : List Nat) : State :=
  { channel := [0]
    count := (future + 1) % usizeSize
    waiting := (∅ : HashMap Nat Task).insert 0 ⟨0, 0⟩
    polling := [⟨future, future % usizeSize⟩]
    wakers := wakers
    control := .poll .run }

structure Chained (future links : Nat) (script : Scripted State Nat) : Prop where
  state : ∃ wakers, script.state = .chained future wakers
  wakers : script.state.wakers.length = future + 1
  first : script.state.wakers[0]? = some 0
  last : script.state.wakers[future]? = some (future % usizeSize)
  length : script.code.length = future + 1
  code : script.code[future]? = some (some (chain links))
  received : script.received[0]? = some []

private theorem own_turn (script : Scripted State Nat) {state : State} {event : Event} (chosen : own script.state = some event)
    (stepped : Step script.state event state) : thread.Turn script [event] { script with state := state } := by
  refine .own ?_ chosen stepped.sound
  simp only [own] at chosen
  split at chosen <;> simp_all [thread, polled, Control.held]

/-- One task of the chain spawns the next and is ready. -/
private theorem Chained.link {future links : Nat} {script : Scripted State Nat}
    (chained : Chained future (links + 1) script) (later : 0 < future) :
    ∃ after, thread.Advances script [.pop future, .spawn_rcv, .ready future] after ∧ Chained (future + 1) links after := by
  obtain ⟨state, code, spawned, received⟩ := script
  obtain ⟨⟨wakers, rfl⟩, made, first, last, length, linked, empty⟩ := chained
  let task : Task := ⟨future, future % usizeSize⟩
  let held : State := { State.chained future wakers with polling := [], control := .polling .run task }
  let popped : Scripted State Nat := ⟨held, code, spawned, received⟩
  let grown := (popped.resume future (.ready 0)).add (chain links)
  have inside := (List.getElem?_eq_some_iff.mp linked).1
  have left : grown.code[future]? = some (some (.ready 0)) := by
    have old : future < (popped.resume future (.ready 0)).code.length := by simpa [popped] using inside
    exact (Scripted.add_code_old _ _ old).trans (popped.resume_code_self _ linked)
  have pops := own_turn ⟨_, code, spawned, received⟩ rfl (@Step.pop (.chained future wakers) .run task [] rfl rfl)
  have spawns := @PollingMachine.Turn.spawn _ _ _ thread popped future _ _ _ rfl linked
    (@Step.spawn_rcv held (.inr ⟨_, _, rfl⟩)).sound
  have readies := @PollingMachine.Turn.ready _ _ _ thread { grown with state := held.spawn_rcv } future 0 _ rfl
    left (@Step.ready held.spawn_rcv .run task rfl).sound
  have length : code.length = future + 1 := length
  have made : wakers.length = future + 1 := made
  refine ⟨_, .head pops.sound (.head spawns.sound (.single readies.sound)),
    ⟨wakers ++ [(future + 1) % usizeSize], ?_⟩, ?_, ?_, ?_, ?_, ?_, ?_⟩
  · simp [held, State.spawn_rcv, State.chained, made, Nat.mod_add_mod]
  · simp [held, State.spawn_rcv, State.chained, made]
  · exact (List.getElem?_append_left (by simp [held, State.chained, made])).trans first
  · simp [held, State.spawn_rcv, State.chained, made]
  · simp [grown, popped, Scripted.deliver, Scripted.resume, Scripted.add, length]
  · simp [grown, popped, Scripted.deliver, Scripted.resume, Scripted.add, length]
  · have present : 0 < received.length := (List.getElem?_eq_some_iff.mp empty).1
    rw [Scripted.deliver_received_other _ _ (Nat.ne_of_gt later)]
    exact (Scripted.add_received_old _ (chain links) present).trans empty

private theorem Chained.run {future links : Nat} {script : Scripted State Nat} (chained : Chained future links script)
    (later : 0 < future) :
    ∃ trace after, thread.Advances script trace after ∧ .ready 0 ∉ trace ∧ Chained (future + links) 0 after := by
  induction links generalizing future script with
  | zero => exact ⟨[], script, .refl script, by simp, chained⟩
  | succ links ih =>
    obtain ⟨middle, first, chained⟩ := chained.link later
    obtain ⟨trace, after, rest, unfinished, chained⟩ := ih chained (Nat.succ_pos future)
    refine ⟨_, after, first.trans rest, ?_, ?_⟩
    · simpa [unfinished] using (Nat.ne_of_gt later).symm
    · rwa [Nat.add_right_comm] at chained

private theorem Chained.initial (links : Nat) :
    ∃ script, thread.Advances (started [sleeper, chain links]) [.pop 0, .wake 0, .pending 0] script ∧
      Chained 1 links script := by
  let task : Task := ⟨0, 0⟩
  let script := started [sleeper, chain links]
  let held : State := { script.state with polling := [⟨1, 1 % usizeSize⟩], control := .polling .run task }
  have pops := own_turn script rfl (@Step.pop script.state .run task [⟨1, 1 % usizeSize⟩] rfl rfl)
  have wakes := @PollingMachine.Turn.wake_by_ref _ _ _ thread { script with state := held } 0 _ _ rfl rfl
    (@Step.wake held 0 0 rfl).sound
  have parks := @PollingMachine.Turn.pending _ _ _ thread { script.resume 0 (.pending (.ready 0)) with state := held.send 0 }
    0 _ _ rfl rfl (@Step.pending (held.send 0) .run task rfl).sound
  refine ⟨_, .head pops.sound (.head wakes.sound (.single parks.sound)), ⟨[0, 1 % usizeSize], ?_⟩, ?_, ?_, ?_, ?_, ?_, ?_⟩
  · simp [held, script, State.send, State.chained, started, Scripted.start, State.spawn_rcv, Nat.mod_add_mod]
    rfl
  · rfl
  · rfl
  · rfl
  · rfl
  · rfl
  · rfl

/-- The chain's last task is stored under the first task's id. -/
def State.replaced (future : Nat) (wakers : List Nat) (control : Control) : State :=
  { channel := [0, 0]
    count := (future + 1) % usizeSize
    waiting := ((∅ : HashMap Nat Task).insert 0 ⟨0, 0⟩).insert 0 ⟨future, 0⟩
    polling := []
    wakers := wakers
    control := control }

private theorem Chained.replace {future : Nat} {script : Scripted State Nat} (chained : Chained future 0 script)
    (wraps : future % usizeSize = 0) :
    ∃ wakers after, thread.Advances script [.pop future, .wake future, .pending future, .drained, .block] after ∧
      after.state = .replaced future wakers .recv ∧ wakers[0]? = some 0 ∧
      after.code[future]? = some (some (.ready 0)) ∧ after.received[0]? = some [] := by
  obtain ⟨state, code, spawned, received⟩ := script
  obtain ⟨⟨wakers, rfl⟩, made, first, last, length, linked, empty⟩ := chained
  let task : Task := ⟨future, 0⟩
  let popped : State := { State.chained future wakers with polling := [], control := .polling .run task }
  have front : (State.chained future wakers).polling = [task] := by simp [State.chained, task, wraps]
  have pops := own_turn ⟨_, code, spawned, received⟩ rfl (Step.pop rfl front)
  have wakes := @PollingMachine.Turn.wake_by_ref _ _ _ thread ⟨popped, code, spawned, received⟩ future _ _ rfl linked
    (@Step.wake popped future 0 (last.trans (congrArg some wraps))).sound
  let woken : Scripted State Nat := Scripted.resume ⟨popped.send 0, code, spawned, received⟩ future (.pending (.ready 0))
  have sleeps : woken.code[future]? = some (some (.pending (.ready 0))) := Scripted.resume_code_self _ _ linked
  have parks := @PollingMachine.Turn.pending _ _ _ thread woken future _ _ rfl sleeps
    (@Step.pending (popped.send 0) .run task rfl).sound
  let parked : Scripted State Nat :=
    { woken.resume future (.ready 0) with state := .replaced future wakers (.poll .run) }
  have drains := own_turn parked rfl (@Step.drained (.replaced future wakers (.poll .run)) .run rfl rfl)
  have left : ¬ ((State.replaced future wakers .check).polling = [] ∧
      (State.replaced future wakers .check).waiting.isEmpty = true) := by
    simp [State.replaced]
  have blocks := own_turn { parked with state := .replaced future wakers .check } (by simp [own, State.replaced])
    (Step.block rfl left)
  refine ⟨wakers, _, .head pops.sound (.head wakes.sound (.head parks.sound (.head drains.sound (.single blocks.sound)))),
    rfl, first, woken.resume_code_self _ sleeps, empty⟩

/-- Nothing waits any more, although the first task is not complete. -/
def State.emptied (future : Nat) (wakers : List Nat) (polling : List Task) (control : Control) : State :=
  { channel := [0]
    count := (future + 1) % usizeSize
    waiting := ∅
    polling := polling
    wakers := wakers
    control := control }

theorem replaced_recv (future : Nat) (wakers : List Nat) :
    Step (.replaced future wakers .recv) (.recv 0) (.emptied future wakers [⟨future, 0⟩] (.poll .run)) := by
  have taken : (((∅ : HashMap Nat Task).insert 0 ⟨0, 0⟩).insert 0 ⟨future, 0⟩).erase 0 = ∅ := by
    rw [← Std.ExtTreeMap.isEmpty_iff, HashMap.empty_iff]
    intro key
    by_cases same : 0 = key <;> simp [same]
  have moved : ({ State.replaced future wakers .recv with channel := [0], control := .poll .run }).unpark 0 =
      .emptied future wakers [⟨future, 0⟩] (.poll .run) := by
    simp [State.unpark, State.replaced, State.emptied, taken]
  rw [← moved]
  exact .recv rfl rfl

private theorem replaced_finishes {future : Nat} {wakers : List Nat} {script : Scripted State Nat} (later : 0 < future)
    (replaced : script.state = .replaced future wakers .recv)
    (code : script.code[future]? = some (some (.ready 0))) (received : script.received[0]? = some []) :
    ∃ trace final, thread.Advances script trace final ∧ final.state.control = .idle ∧ final.received[0]? = some [] := by
  obtain ⟨_, codes, spawned, receivers⟩ := script
  subst replaced
  let state := State.emptied future wakers
  have receives := own_turn ⟨_, codes, spawned, receivers⟩ rfl (replaced_recv future wakers)
  have pops := own_turn ⟨_, codes, spawned, receivers⟩ rfl
    (@Step.pop (state [⟨future, 0⟩] (.poll .run)) .run ⟨future, 0⟩ [] rfl rfl)
  have readies := @PollingMachine.Turn.ready _ _ _ thread
    ⟨state [] (.polling .run ⟨future, 0⟩), codes, spawned, receivers⟩ future 0 _ rfl code
    (@Step.ready (state [] (.polling .run ⟨future, 0⟩)) .run ⟨future, 0⟩ rfl).sound
  let finished : Scripted State Nat := Scripted.deliver ⟨state [] (.poll .run), codes, spawned, receivers⟩ future 0
  have drains := own_turn finished rfl (@Step.drained (state [] (.poll .run)) .run rfl rfl)
  have finishes := own_turn { finished with state := state [] .check } (by simp [own, state, State.emptied])
    (@Step.finish (state [] .check) rfl rfl (by simp [state, State.emptied]))
  refine ⟨_, _, .head receives.sound (.head pops.sound (.head readies.sound (.head drains.sound (.single finishes.sound)))),
    rfl, ?_⟩
  exact (Scripted.deliver_received_other _ 0 (Nat.ne_of_gt later)).trans received

/-- With 2^64 spawns from inside polls a call of `run` gets to this state. -/
theorem reaches_replaced :
    ∃ future wakers trace script, 0 < future ∧ thread.Advances (started [sleeper, chain (usizeSize - 1)]) trace script ∧
      script.state = .replaced future wakers .recv ∧ wakers[0]? = some 0 ∧ .ready 0 ∉ trace ∧
      script.code[future]? = some (some (.ready 0)) ∧ script.received[0]? = some [] := by
  have positive : 0 < usizeSize := Nat.two_pow_pos 64
  have last : 1 + (usizeSize - 1) = usizeSize := Nat.add_sub_cancel' positive
  obtain ⟨first, starts, chained⟩ := Chained.initial (usizeSize - 1)
  obtain ⟨trace, middle, runs, unfinished, chained⟩ := chained.run Nat.one_pos
  rw [last] at chained
  obtain ⟨wakers, after, ends, state, made, code, received⟩ := chained.replace (Nat.mod_self _)
  refine ⟨usizeSize, wakers, _, after, positive, starts.trans (runs.trans ends), state, made, ?_, code, received⟩
  simp [unfinished]

/-- Without a bound on the spawns a wake can be lost: the id of the first task
is received, and another task is polled. -/
theorem wakes_lost : ¬ ∀ trace state, executor.Reaches trace state → WakesKept trace state := by
  intro kept
  obtain ⟨future, wakers, trace, script, later, advances, replaced, made, unfinished, _⟩ := reaches_replaced
  have reaches := advances.invariant (fun trace script => executor.Reaches trace script.state) (started_reaches _)
    fun trace script events after earlier stepped =>
      Machine.Reaches.append earlier (PollingMachine.next_cases stepped).runs
  simp only [replaced] at reaches
  obtain ⟨task, found, same, _⟩ := (kept _ _ reaches).received 0 0 _ made (by simpa using unfinished)
    (replaced_recv future wakers).sound
  simp only [State.replaced, HashMap.get_insert, if_true, Option.some.injEq] at found
  subst found
  exact Nat.ne_of_gt later same

/-- Without a bound on the spawns `run` can return with a task incomplete. -/
theorem run_incomplete :
    ¬ ∀ futures : List (Future Nat), (∀ future ∈ futures, future.Wakes false) → RunCompletes futures := by
  intro complete
  obtain ⟨future, wakers, trace, script, later, advances, replaced, _, _, code, received⟩ := reaches_replaced
  obtain ⟨_, final, finishes, idle, missing⟩ := replaced_finishes later replaced code received
  have wakes : ∀ future ∈ [sleeper, chain (usizeSize - 1)], future.Wakes false := by
    simp [chain_wakes, sleeper, Future.Wakes]
  obtain ⟨⟨_, completed, runs, returned, given, _, receivers⟩, _⟩ := complete _ wakes
  have stuck {script : Scripted State Nat} (idle : script.state.control = .idle) : thread.next script = none := by
    simp [PollingMachine.next, thread, polled, own, idle, Control.held]
  obtain ⟨_, rfl⟩ := (advances.trans finishes).final_unique runs (stuck idle) (stuck returned)
  have first : final.spawned[0]? = some sleeper := by
    obtain ⟨later, split⟩ := given
    rw [← split]
    rfl
  rw [receivers 0 sleeper first] at missing
  cases missing

end RustAsyncAwait.Executor
