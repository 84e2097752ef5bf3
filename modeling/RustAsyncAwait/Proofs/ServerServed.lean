import RustAsyncAwait.Proofs.ServerWaits

/-! Every accepted stream gets its task, however the clients reset. -/

namespace RustAsyncAwait.Server
open Library DataLayer

variable {order : ByteOrder} {state next : Serving} {event : ServingEvent} {id : Fin 3} {stream : Nat}

theorem accepted_le (stepped : (serving order).step state event = some next) : state.server.accepted ≤ next.server.accepted := by
  have below {server after : State} {move : Event} (moved : Server.step server move = some after) :
      server.accepted ≤ after.accepted := by
    cases move with
    | accept | refuse | store | unpark =>
      simp only [Server.step, Option.ite_none_right_eq_some, Option.some.injEq] at moved
      obtain ⟨_, rfl⟩ := moved
      simp [State.update, State.next]
    | load =>
      simp only [Server.step, Option.ite_none_right_eq_some] at moved
      obtain ⟨_, moved⟩ := moved
      split at moved <;> cases moved <;> exact Nat.le_refl _
    | worker id own =>
      obtain ⟨_, _, rfl⟩ := Option.map_eq_some_iff.mp moved
      exact Nat.le_refl _
  rcases serving_cases stepped with ⟨move, rfl, moved⟩ | ⟨id, operation, rfl, same | ⟨move, _, returned⟩⟩
  · exact below moved
  · rw [same]
  · exact below returned

theorem mem_dealt {accepted : Nat} : stream ∈ dealt accepted id ↔ stream < accepted ∧ stream % 3 = id.val := by
  simp [dealt]

/-- The workers outlive the clients of a run exactly when `peer_addr` has succeeded
on every stream taken in it. And where it does, no flag is read too early and no
poll goes on for ever, every accepted stream is taken, and gets its task. -/
theorem streams_served (order : ByteOrder) :
    (∀ trace state, (serving order).Reaches trace state → (Outlives order trace state ↔ Addressed trace)) ∧
      ∀ schedule, Fair order schedule → Pauses order schedule → ∀ start id stream,
        stream ∈ dealt ((timely order).states schedule start).server.accepted id → ∃ later, start ≤ later ∧
          Outlives order ((timely order).happened schedule later) ((timely order).states schedule later) ∧
            stream ∈ taken ((timely order).happened schedule later) id := by
  refine ⟨fun trace state => outlives_iff_addressed, fun schedule fair pauses start id stream accepted => ?_⟩
  by_contra never
  have untaken (later : Nat) (after : start ≤ later) : stream ∉ taken ((timely order).happened schedule later) id := by
    intro served
    have reaches := Machine.reaches_states (timely order) schedule later
    exact never ⟨later, after, (outlives_iff_addressed reaches.unrestricted).mpr (timely_addressed reaches), served⟩
  have always (later : Nat) (after : start ≤ later) : stream ∈ (worker_at order schedule id later).channel := by
    obtain ⟨early, own⟩ := mem_dealt.mp accepted
    have still := Machine.states_keep (fun state : Serving => stream < state.server.accepted)
      (fun state event next early stepped => Nat.lt_of_lt_of_le early (accepted_le (Machine.restrict_step.mp stepped).2)) early after
    have among : stream ∈ dealt ((timely order).states schedule later).server.accepted id := mem_dealt.mpr ⟨still, own⟩
    rw [← (dispatched_states order schedule later).delivered id] at among
    exact (List.mem_append.mp among).resolve_left (untaken later after)
  obtain ⟨last, _, waiting⟩ := waiting_of_mem always
  exact waiting.false fair pauses

/-- All workers are parked, and the acceptor waits for a connection. -/
def Serving.quiet (state : Serving) : Bool :=
  decide (state.server.acceptor = .accept ∧ ∀ id, (state.server.workers id).place = .parked ∧
    (state.server.workers id).token = false ∧ (state.server.workers id).executor.running = none)

theorem not_able_quiet (quiet : state.quiet = true) (thread : Thread) : ¬ state.able order thread := by
  obtain ⟨acceptor, parked⟩ := of_decide_eq_true quiet
  intro able
  obtain ⟨event, next, own, stepped⟩ := able
  cases thread with
  | acceptor =>
    unfold ServingEvent.thread? at own
    split at own <;> simp [serving, Serving.step, Event.returns, Server.step, acceptor] at own stepped
  | worker id =>
    obtain ⟨place, token, idle⟩ := parked id
    cases serving_turn stepped id with
    | rests rests =>
      rcases thread_worker own with ⟨moves, acts⟩ | ⟨operation, operates⟩
      · exact rests.1 _ acts
      · exact rests.2 _ operates
    | acts acts _ moved =>
      subst acts
      generalize next.server.workers id = after at moved
      cases moved with
      | unparked _ given => cases token.symm.trans given
      | spurious => cases own
      | receive other | panic other | empty other | store other | park other | parks other | polls other | finds_none other
      | returns other => cases place.symm.trans other
    | operates _ running | returns _ running => cases idle.symm.trans running

/-- A worker finds no stream and no task, and parks. -/
def goes_to_park (id : Fin 3) : List ServingEvent :=
  [.server (.worker id .empty), .server (.worker id .store), .server (.worker id .park)]

/-- Two clients that reset. The first one's task sees it in a read that fails, the
second one's in `set_nonblocking`; all workers are parked when they connect. -/
def two_resets (first second third : Fin 3) : List ServingEvent :=
  goes_to_park first ++ goes_to_park second ++ goes_to_park third ++
  [.server .accept, .server .load, .server .store, .server .unpark, .server (.worker first .unparked),
    .server (.worker first (.poll .empty)), .server (.worker first (.receive 0)), .server (.worker first (.poll (.poll 0))),
    .client first (.set_nonblocking (.ok ())), .client first (.read .failed), .client first (.read (.ok [])), .server .accept,
    .client first (.sleep false), .server .load, .server .store, .server .unpark, .server (.worker second .unparked),
    .server (.worker first .empty), .server (.worker second (.poll .empty)), .server (.worker first (.poll (.poll 0))),
    .client first (.sleep true), .server (.worker second (.receive 1)), .server (.worker second (.poll (.poll 0))),
    .client second (.set_nonblocking (.error .failed)), .client first (.write_all [.failed])] ++
  goes_to_park first ++ goes_to_park second

/-- Then no connection comes any more. -/
def after_resets (first second third : Fin 3) : Nat → ServingEvent :=
  Machine.lasso (two_resets first second third) (.server .refuse) []

theorem after_resets_refuse {first second third : Fin 3} (later : Nat) (after : (two_resets first second third).length ≤ later) :
    after_resets first second third later = .server .refuse := by
  rw [after_resets, Machine.lasso, List.getD_eq_getElem?_getD, List.getElem?_eq_none after, List.length_nil, Nat.zero_add,
    Nat.mod_one]
  rfl

theorem two_resets_run : ∃ start, (timely .little).Reaches (two_resets 0 1 2) start ∧
    (timely .little).runFrom start [.server .refuse] = some start ∧ start.quiet = true := ⟨_, rfl, rfl, by decide +kernel⟩

theorem fair_after_resets : Fair .little (after_resets 0 1 2) := by
  obtain ⟨start, runs, round, test⟩ := two_resets_run
  intro thread
  refine Machine.lasso_fair runs round (.inr fun before state part here => ?_)
  have still : state = start := by
    rcases List.prefix_cons_iff.mp part with empty | ⟨rest, split, none⟩
    · subst empty
      exact (Option.some.inj here).symm
    · rw [split, List.prefix_nil.mp none] at here
      exact Option.some.inj (here.symm.trans round)
  rw [still]
  exact not_able_quiet test thread

theorem pauses_after_resets : Pauses .little (after_resets 0 1 2) := by
  intro id start again
  obtain ⟨later, operation, after, happens, _⟩ := again (start + (two_resets 0 1 2).length) (Nat.le_add_right ..)
  cases (after_resets_refuse later (by omega)).symm.trans happens

/-- Both streams get their tasks. -/
theorem streams_served_parked :
    (∃ state, (serving .little).Reaches (two_resets 0 1 2) state ∧ Outlives .little (two_resets 0 1 2) state) ∧
      ∃ later, 29 ≤ later ∧
        Outlives .little ((timely .little).happened (after_resets 0 1 2) later)
          ((timely .little).states (after_resets 0 1 2) later) ∧
          1 ∈ taken ((timely .little).happened (after_resets 0 1 2) later) 1 := by
  obtain ⟨outlives, served⟩ := streams_served .little
  refine ⟨?_, served _ fair_after_resets pauses_after_resets 29 1 1 (by decide +kernel)⟩
  obtain ⟨state, runs, _⟩ := two_resets_run
  exact ⟨state, runs.unrestricted, (outlives _ _ runs.unrestricted).mpr (timely_addressed runs)⟩

end RustAsyncAwait.Server
