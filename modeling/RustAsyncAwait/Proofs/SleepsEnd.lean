import RustAsyncAwait.SleepCoroutine
import RustAsyncAwait.Library.Deadlines

/-! When the coroutines that sleep complete. None does so early, and none waits
for more polls of the others than there are of them. -/

namespace RustAsyncAwait.CoroutineExecutor
open Library

variable {sleeps : Nat → SleepCoroutine} {clock : Nat → Nat} {count turn name : Nat}

/-- The executor after so many polls of `main`. -/
def polled (sleeps : Nat → SleepCoroutine) (clock : Nat → Nat) (count : Nat) : Nat → Option State
  | 0 => start count
  | turn + 1 => (polled sleeps clock count turn).bind (poll sleeps (clock turn))

/-- A coroutine completes in this poll. -/
def Completes (sleeps : Nat → SleepCoroutine) (clock : Nat → Nat) (count turn name : Nat) : Prop :=
  ∃ before after, polled sleeps clock count turn = some before ∧ polled sleeps clock count (turn + 1) = some after ∧
    name ∈ before.coroutines ∧ name ∉ after.coroutines

/-- Whose sleep is over at a reading. -/
def rested (sleeps : Nat → SleepCoroutine) (clock : Nat → Nat) (turn name : Nat) : Bool :=
  (sleeps name).resume (clock turn) = .complete

theorem start_eq (count : Nat) : start count = some ⟨List.range count, count, none⟩ := by
  have adds (before more : Nat) : executor.runFrom ⟨List.range before, before, none⟩ (List.replicate more .add) =
      some ⟨List.range (before + more), before + more, none⟩ := by
    induction more generalizing before with
    | zero => rfl
    | succ more ih =>
      have added : executor.step ⟨List.range before, before, none⟩ .add =
          some ⟨List.range (before + 1), before + 1, none⟩ := by simp [executor, step, List.range_succ]
      rw [List.replicate_succ, Machine.runFrom_cons, added, Option.bind_some, ih, Nat.add_right_comm, Nat.add_assoc]
  simpa [start] using adds 0 count

/-- A poll asks the coroutine in front whether its sleep is over. -/
theorem poll_eq {queue : List Nat} {added : Nat} (more : queue ≠ []) :
    poll sleeps (clock turn) ⟨queue, added, none⟩ = some ⟨ask (rested sleeps clock turn) queue, added, none⟩ := by
  cases queue with
  | nil => exact absurd rfl more
  | cons first rest =>
    cases result : (sleeps first).resume (clock turn) <;> simp [poll, step, ask, rested, result]

theorem polled_eq (more : ∀ earlier, earlier < turn → asked (rested sleeps clock) (List.range count) earlier ≠ []) :
    polled sleeps clock count turn = some ⟨asked (rested sleeps clock) (List.range count) turn, count, none⟩ := by
  induction turn with
  | zero => exact start_eq count
  | succ turn ih =>
    have here := more turn (Nat.lt_succ_self turn)
    rw [polled, ih fun earlier before => more earlier (Nat.lt_succ_of_lt before), Option.bind_some, poll_eq here]
    rfl

theorem resume_mono {coroutine : SleepCoroutine} {now later : Nat} (after : now ≤ later)
    (complete : coroutine.resume now = .complete) : coroutine.resume later = .complete := by
  unfold SleepCoroutine.resume at complete ⊢
  split at complete
  next elapsed => rw [if_pos (Nat.le_trans elapsed (Nat.sub_le_sub_right after _))]
  next => cases complete

theorem asked_filled (here : name ∈ asked (rested sleeps clock) (List.range count) turn) :
    ∀ earlier, earlier ≤ turn → asked (rested sleeps clock) (List.range count) earlier ≠ [] :=
  fun _ before => List.ne_nil_of_mem (asked_subset before here)

section Loop
variable (sleeps clock count)

/-- What the loop has come to after some rounds. -/
def looped (turn : Nat) : Option (State × Nat) :=
  some (⟨asked (rested sleeps clock) (List.range count) turn, count, none⟩, turn)

theorem round_looped (turn : Nat) : round sleeps clock (looped sleeps clock count turn) =
    if asked (rested sleeps clock) (List.range count) turn = [] then none else some (looped sleeps clock count (turn + 1)) := by
  by_cases empty : asked (rested sleeps clock) (List.range count) turn = []
  · simp [round, looped, empty]
  · simp [round, looped, empty, poll_eq, asked]

theorem main_eq (fuel : Nat) : main sleeps clock count fuel =
    (loop (round sleeps clock) fuel (looped sleeps clock count 0)).map fun final => final.map Prod.snd := by
  rw [main, start_eq]
  rfl

/-- `main` does not panic. -/
theorem main_polls {fuel : Nat} {result : Option Nat} (ended : main sleeps clock count fuel = some result) :
    ∃ polls, result = some polls := by
  rw [main_eq, Option.map_eq_some_iff] at ended
  obtain ⟨final, ended, rfl⟩ := ended
  obtain ⟨turn, rfl⟩ := loop_invariant (fun state => ∃ turn, state = looped sleeps clock count turn) (by
    intro state next holds goes_on
    obtain ⟨turn, rfl⟩ := holds
    rw [round_looped] at goes_on
    split at goes_on <;> cases goes_on
    exact ⟨turn + 1, rfl⟩) ⟨0, rfl⟩ ended
  exact ⟨turn, rfl⟩

/-- The loop ends with an empty deque. -/
theorem looped_stops_iff : Stops (round sleeps clock) (looped sleeps clock count 0) ↔
    ∃ turn, asked (rested sleeps clock) (List.range count) turn = [] := by
  constructor
  · intro stops
    by_contra never
    simp only [not_exists] at never
    refine not_stops (fun state => ∃ turn, state = looped sleeps clock count turn) ?_ ⟨0, rfl⟩ stops
    intro state holds
    obtain ⟨turn, rfl⟩ := holds
    exact ⟨looped sleeps clock count (turn + 1), by rw [round_looped, if_neg (never turn)], turn + 1, rfl⟩
  · intro empties
    obtain ⟨last, empty⟩ := empties
    have stops (more turn : Nat) (reaches : turn + more = last) :
        Stops (round sleeps clock) (looped sleeps clock count turn) := by
      induction more generalizing turn with
      | zero =>
        have here : turn = last := reaches
        exact .here (by rw [round_looped, if_pos (here ▸ empty)])
      | succ more ih =>
        by_cases already : asked (rested sleeps clock) (List.range count) turn = []
        · exact .here (by rw [round_looped, if_pos already])
        · exact (stops_round_iff (by rw [round_looped, if_neg already])).mpr (ih (turn + 1) (by omega))
    exact stops last 0 (Nat.zero_add last)

end Loop

/-- A coroutine completes in a poll in which its sleep is over, and there are
fewer polls before that one than coroutines; `main` ends if every sleep does. -/
theorem sleeps_end (forward : ∀ turn, clock turn ≤ clock (turn + 1)) :
    (∀ fuel result, main sleeps clock count fuel = some result → ∃ polls, result = some polls) ∧
    ((∃ fuel polls, main sleeps clock count fuel = some (some polls)) ↔
      ∀ name < count, ∃ turn, (sleeps name).resume (clock turn) = .complete) ∧
    ∀ name < count, ∀ due, (sleeps name).resume (clock due) = .complete →
      (∀ earlier < due, (sleeps name).resume (clock earlier) = .yielded) →
      ∃ turn, due ≤ turn ∧ turn < due + count ∧ Completes sleeps clock count turn name := by
  have stays (turn name : Nat) (rested_now : rested sleeps clock turn name = true) : rested sleeps clock (turn + 1) name = true := by
    simp only [rested, decide_eq_true_eq] at rested_now ⊢
    exact resume_mono (forward turn) rested_now
  refine ⟨fun fuel result => main_polls sleeps clock count, ?_, ?_⟩
  · have ends : (∃ fuel polls, main sleeps clock count fuel = some (some polls)) ↔
        Stops (round sleeps clock) (looped sleeps clock count 0) := by
      constructor
      · intro ended
        obtain ⟨fuel, polls, ended⟩ := ended
        rw [main_eq, Option.map_eq_some_iff] at ended
        obtain ⟨final, ended, _⟩ := ended
        exact ⟨fuel, final, ended⟩
      · intro stops
        obtain ⟨fuel, final, ended⟩ := stops
        have result : main sleeps clock count fuel = some (final.map Prod.snd) := by rw [main_eq, ended, Option.map_some]
        obtain ⟨polls, same⟩ := main_polls sleeps clock count result
        exact ⟨fuel, polls, result.trans (congrArg some same)⟩
    rw [ends, looped_stops_iff, asked_empties List.nodup_range stays]
    simp [rested]
  · intro name inside due rested_now before
    have ends : Due (rested sleeps clock) name due := by
      refine ⟨by simp [rested, rested_now], fun earlier early => ?_⟩
      simp [rested, before earlier early]
    obtain ⟨turn, after, soon, here, gone⟩ := asked_leaves List.nodup_range stays (List.mem_range.mpr inside) ends
    rw [List.length_range] at soon
    have filled := asked_filled here
    refine ⟨turn, after, soon, _, _, polled_eq fun earlier early => filled earlier (Nat.le_of_lt early),
      polled_eq fun earlier early => filled earlier (Nat.le_of_lt_succ early), here, gone⟩

/-- Three sleeps of ten ticks, on a clock that ticks in every poll. -/
theorem sleeps_end_three :
    let sleeps : Nat → SleepCoroutine := fun _ => ⟨0, 10⟩
    main sleeps id 3 14 = some (some 13) ∧ ∃ turn, 10 ≤ turn ∧ turn < 13 ∧ Completes sleeps id 3 turn 2 :=
  ⟨by decide, (@sleeps_end (fun _ => ⟨0, 10⟩) id 3 Nat.le_succ).2.2 2 (by decide) 10 (by decide) (by decide)⟩

end RustAsyncAwait.CoroutineExecutor
