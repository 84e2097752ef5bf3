import RustAsyncAwait.StatePattern

/-! A `StateFuture` keeps to the contract of its inner futures as long as none
of them has become ready before the last poll in its state. -/

namespace RustAsyncAwait.StatePattern
open Library

/-- The state in which each poll of the whole is made. -/
def poll_states (state : State) : List Call → List State
  | [] => []
  | .on :: calls => poll_states (state.transition .SwitchOn) calls
  | .off :: calls => poll_states (state.transition .SwitchOff) calls
  | .poll :: calls => state :: poll_states state calls

/-- Whether a future's poll returns `Ready` after this many polls of it. -/
def ready_after {F α : Type} (poll : F → PollResult α × F) (future : F) : Nat → Bool
  | 0 => is_ready (poll future).1
  | count + 1 => ready_after poll (poll future).2 count

namespace StateFuture
variable {F X α β : Type} (future : StateFuture F X α β)

/-- The same for the inner future that belongs to a state. -/
def ready_after (inner : State) (count : Nat) : Bool :=
  match inner with
  | .On => StatePattern.ready_after future.on_poll future.on_future count
  | .Off => StatePattern.ready_after future.off_poll future.off_future count

/-- A poll never finishes, wakes its own task, and polls the inner future of its state. -/
theorem poll_eq : future.poll.result = .pending ∧ future.poll.woken = true ∧ future.poll.future.state = future.state ∧
    future.poll.made = ⟨future.state, future.ready_after future.state 0⟩ := by
  unfold poll
  cases future.state <;> simp [ready_after, StatePattern.ready_after]

/-- A poll takes one poll from the inner future of its state, and none from the other one. -/
theorem poll_ready_after (inner : State) (count : Nat) :
    future.poll.future.ready_after inner count = future.ready_after inner (if inner = future.state then count + 1 else count) := by
  unfold poll
  cases same : future.state <;> cases inner <;> simp [ready_after, StatePattern.ready_after]

/-- What the contract of the inner futures asks of some inner polls: each is of
the inner future of its state, and of one that has not returned `Ready` before. -/
structure Respects (calls : List Call) (polls : List InnerPoll) : Prop where
  matches_state : polls.map InnerPoll.inner = poll_states future.state calls
  once : polls.Pairwise fun first second => first.ready = true → second.inner ≠ first.inner

theorem run_inner (calls : List Call) : (future.run calls).map InnerPoll.inner = poll_states future.state calls := by
  induction calls generalizing future with
  | nil => rfl
  | cons call calls ih =>
    cases call with
    | on => exact ih future.on
    | off => exact ih future.off
    | poll =>
      obtain ⟨_, _, kept, made⟩ := future.poll_eq
      rw [run, List.map_cons, ih, made, kept]
      rfl

theorem run_once (calls : List Call) :
    ((future.run calls).Pairwise fun first second => first.ready = true → second.inner ≠ first.inner) ↔
      ∀ inner count, future.ready_after inner count = true → (poll_states future.state calls).count inner ≤ count + 1 := by
  induction calls generalizing future with
  | nil => simp [run, poll_states]
  | cons call calls ih =>
    cases call with
    | on => exact ih future.on
    | off => exact ih future.off
    | poll =>
      obtain ⟨_, _, kept, made⟩ := future.poll_eq
      have none : (∀ later ∈ future.poll.future.run calls, later.inner ≠ future.state) ↔
          (poll_states future.state calls).count future.state = 0 := by
        rw [List.count_eq_zero, ← kept, ← run_inner]
        simp
      rw [run, List.pairwise_cons, ih, made, kept]
      constructor
      · intro respected inner count ready
        obtain ⟨first, rest⟩ := respected
        by_cases same : inner = future.state
        · subst same
          rw [poll_states, List.count_cons_self]
          cases count with
          | zero =>
            have last := none.mp fun later member => first later member ready
            omega
          | succ count =>
            have left := rest future.state count (by rw [poll_ready_after, if_pos rfl]; exact ready)
            omega
        · rw [poll_states, List.count_cons_of_ne (Ne.symm same)]
          exact rest inner count (by rw [poll_ready_after, if_neg same]; exact ready)
      · intro few
        refine ⟨?_, ?_⟩
        · intro later member ready
          have last := few future.state 0 ready
          rw [poll_states, List.count_cons_self] at last
          exact none.mpr (by omega) later member
        · intro inner count ready
          rw [poll_ready_after] at ready
          have left := few inner _ ready
          by_cases same : inner = future.state
          · subst same
            rw [poll_states, List.count_cons_self, if_pos rfl] at left
            omega
          · rwa [poll_states, List.count_cons_of_ne (Ne.symm same), if_neg same] at left

/-- The contract is kept if and only if each inner future gets no more polls
than it takes to become ready, if it ever does. -/
theorem run_respects (calls : List Call) :
    future.Respects calls (future.run calls) ↔
      ∀ inner count, future.ready_after inner count = true → (poll_states future.state calls).count inner ≤ count + 1 := by
  rw [← run_once]
  constructor
  · intro respects
    exact respects.once
  · intro once
    exact ⟨future.run_inner calls, once⟩

/-- An inner future that is ready at once, and two polls of the whole. -/
theorem not_run_respects :
    ¬ ∀ (future : StateFuture Unit Unit Unit Unit) (calls : List Call), future.Respects calls (future.run calls) := by
  intro always
  have respects := always ⟨.On, (), (), fun _ => (.ready (), ()), fun _ => (.ready (), ())⟩ [.poll, .poll]
  exact absurd respects.once (by decide)

end StateFuture

end RustAsyncAwait.StatePattern
