import Mathlib.Data.Nat.Init

/-! Loops that need not end. A loop is run with fuel, and ends if some fuel is
enough for it. -/

namespace RustAsyncAwait.Library

universe u
variable {σ : Type u} {body : σ → Option σ}

/-- `body` is `none` where the loop breaks. The result is `none` where the fuel
does not last until then. -/
def loop (body : σ → Option σ) : Nat → σ → Option σ
  | 0, _ => none
  | fuel + 1, state =>
    match body state with
    | none => some state
    | some next => loop body fuel next

/-- The loop breaks after finitely many rounds. -/
def Stops (body : σ → Option σ) (state : σ) : Prop := ∃ fuel final, loop body fuel state = some final

theorem Stops.here {state : σ} (breaks : body state = none) : Stops body state := ⟨1, state, by simp [loop, breaks]⟩

theorem stops_round_iff {state next : σ} (goes_on : body state = some next) : Stops body state ↔ Stops body next := by
  constructor
  · intro stops
    obtain ⟨fuel, final, ended⟩ := stops
    cases fuel with
    | zero => cases ended
    | succ fuel =>
      simp only [loop, goes_on] at ended
      exact ⟨fuel, final, ended⟩
  · intro stops
    obtain ⟨fuel, final, ended⟩ := stops
    exact ⟨fuel + 1, final, by simp only [loop, goes_on, ended]⟩

theorem loop_ended {fuel : Nat} {state final : σ} (ended : loop body fuel state = some final) : body final = none := by
  induction fuel generalizing state with
  | zero => cases ended
  | succ fuel ih =>
    simp only [loop] at ended
    split at ended
    · rename_i breaks
      cases ended
      exact breaks
    · exact ih ended

/-- What every round keeps holds when the loop has ended. -/
theorem loop_invariant (holds : σ → Prop) (kept : ∀ state next, holds state → body state = some next → holds next)
    {fuel : Nat} {state final : σ} (start : holds state) (ended : loop body fuel state = some final) : holds final := by
  induction fuel generalizing state with
  | zero => cases ended
  | succ fuel ih =>
    simp only [loop] at ended
    split at ended
    · cases ended
      exact start
    · rename_i next round
      exact ih (kept state next start round) ended

/-- A loop whose rounds all decrease a rank ends. -/
theorem stops_of_rank (holds : σ → Prop) (rank : σ → Nat)
    (falls : ∀ state next, holds state → body state = some next → holds next ∧ rank next < rank state) {state : σ}
    (start : holds state) : Stops body state := by
  induction size : rank state using Nat.strongRecOn generalizing state with
  | ind size ih =>
    cases ended : body state with
    | none => exact .here ended
    | some next =>
      obtain ⟨kept, smaller⟩ := falls state next start ended
      exact (stops_round_iff ended).mpr (ih (rank next) (size ▸ smaller) kept rfl)

/-- A loop that keeps an invariant under which it does not break goes on for ever. -/
theorem not_stops (holds : σ → Prop) (goes_on : ∀ state, holds state → ∃ next, body state = some next ∧ holds next)
    {state : σ} (start : holds state) : ¬ Stops body state := by
  intro stops
  obtain ⟨fuel, final, ended⟩ := stops
  induction fuel generalizing state with
  | zero => cases ended
  | succ fuel ih =>
    obtain ⟨next, round, kept⟩ := goes_on state start
    simp only [loop, round] at ended
    exact ih kept ended

end RustAsyncAwait.Library
