import RustAsyncAwait.CoroutineTest
import RustAsyncAwait.Library.Lists
import Mathlib.Algebra.Ring.Int.Defs

/-! How the shared counter follows the thresholds of the coroutines. -/

namespace RustAsyncAwait.CoroutineTest
open Library

/-- Whether the lock is held after some events, and how often this coroutine has
been resumed while it was free. -/
def observe (id : Nat) (seen : Bool × Nat) : Event → Bool × Nat
  | .resume other _ => (seen.1, if other = id ∧ seen.1 = false then seen.2 + 1 else seen.2)
  | .lock => (true, seen.2)
  | .unlock => (false, seen.2)

def freeResumes (id : Nat) (trace : List Event) : Nat := (trace.foldl (observe id) (false, 0)).2

def remaining (state : State) : List Nat := state.coroutines.map fun entry => entry.1.threshold.toNat

/-- What each event does. A `resume` finds the lock held, or takes one from the
threshold. -/
inductive Step (state : State) : Event → State → Prop
  | blocked {id : Nat} {coroutine : MutexCoroutine} (at_id : state.coroutines[id]? = some (coroutine, .yielded))
      (held : state.handle.locked = true) : Step state (.resume id .yielded) state
  | counts {id : Nat} {threshold : UInt8} {result : CoroutineState}
      (at_id : state.coroutines[id]? = some (⟨threshold⟩, .yielded)) (free : state.handle.locked = false)
      (returns : result = if threshold - 1 = 0 then .complete else .yielded) :
      Step state (.resume id result)
        ⟨{ state.handle with value := state.handle.value + 1 }, state.coroutines.set id (⟨threshold - 1⟩, result)⟩
  | lock (free : state.handle.locked = false) : Step state .lock { state with handle.locked := true }
  | unlock (held : state.handle.locked = true) : Step state .unlock { state with handle.locked := false }

theorem step_cases {state next : State} {event : Event} (stepped : step state event = some next) :
    Step state event next := by
  cases event with
  | resume id result =>
    simp only [step] at stepped
    split at stepped
    · rename_i coroutine at_id
      obtain ⟨threshold⟩ := coroutine
      cases held : state.handle.locked with
      | true =>
        simp only [MutexCoroutine.resume, held, if_true, Option.ite_none_right_eq_some, Option.some.injEq] at stepped
        obtain ⟨rfl, rfl⟩ := stepped
        have same : state.coroutines.set id (⟨threshold⟩, .yielded) = state.coroutines := by
          obtain ⟨inside, same⟩ := List.getElem?_eq_some_iff.mp at_id
          rw [← same, List.set_getElem_self]
        rw [same]
        exact .blocked at_id held
      | false =>
        simp only [MutexCoroutine.resume, held] at stepped
        by_cases last : threshold - 1 = 0
        · simp [last] at stepped
          obtain ⟨rfl, rfl⟩ := stepped
          have counted := @Step.counts state id threshold .complete at_id held (by rw [if_pos last])
          simpa [last, held] using counted
        · simp [last] at stepped
          obtain ⟨rfl, rfl⟩ := stepped
          have counted := @Step.counts state id threshold .yielded at_id held (by rw [if_neg last])
          simpa [held] using counted
    · cases stepped
  | lock =>
    simp only [step] at stepped
    split at stepped
    · cases stepped
    · rename_i free
      cases stepped
      exact .lock (by simpa using free)
  | unlock =>
    simp only [step] at stepped
    split at stepped
    · rename_i held
      cases stepped
      exact .unlock held
    · cases stepped

/-- Each coroutine has been counted down by its resumes, and the counter has
gone up by as much. -/
structure Counted (thresholds : List UInt8) (trace : List Event) (state : State) : Prop where
  length : state.coroutines.length = thresholds.length
  observed : ∀ id, (trace.foldl (observe id) (false, 0)).1 = state.handle.locked
  each : ∀ id threshold coroutine result, thresholds[id]? = some threshold →
    state.coroutines[id]? = some (coroutine, result) →
      coroutine.threshold.toNat + freeResumes id trace = threshold.toNat ∧
        (result = .complete ↔ coroutine.threshold = 0)
  total : state.handle.value.toNat + (remaining state).sum = (thresholds.map UInt8.toNat).sum

theorem observe_snoc (id : Nat) (trace : List Event) (event : Event) :
    (trace ++ [event]).foldl (observe id) (false, 0) = observe id (trace.foldl (observe id) (false, 0)) event := by
  rw [List.foldl_append, List.foldl_cons, List.foldl_nil]

theorem sub_one_toNat {threshold : UInt8} (left : threshold ≠ 0) : (threshold - 1).toNat + 1 = threshold.toNat := by
  have positive : threshold.toNat ≠ 0 := fun zero => left (UInt8.toNat_inj.mp zero)
  rw [UInt8.toNat_sub_of_le]
  · simp only [UInt8.toNat_one]
    omega
  · rw [UInt8.le_iff_toNat_le]
    simp only [UInt8.toNat_one]
    omega

namespace Counted
variable {thresholds : List UInt8} {trace : List Event} {state : State}

theorem initial (positive : ∀ threshold ∈ thresholds, 1 ≤ threshold) :
    Counted thresholds [] (coroutines thresholds).init := by
  refine ⟨by simp [coroutines], fun _ => rfl, ?_, ?_⟩
  · intro id threshold coroutine result at_id found
    simp only [coroutines, List.getElem?_map, at_id, Option.map_some, Option.some.injEq, Prod.mk.injEq] at found
    obtain ⟨rfl, rfl⟩ := found
    refine ⟨rfl, ?_⟩
    have above := positive threshold (List.mem_of_getElem? at_id)
    constructor
    · intro complete
      cases complete
    · intro zero
      rw [show threshold = 0 from zero] at above
      exact absurd above (by decide)
  · simp [remaining, coroutines, Function.comp_def]

/-- The threshold of a coroutine that is resumed is not zero, and the counter
has room for one more. -/
theorem room (counted : Counted thresholds trace state) (small : (thresholds.map UInt8.toNat).sum ≤ 255) {id : Nat}
    {threshold : UInt8} (at_id : state.coroutines[id]? = some (⟨threshold⟩, .yielded)) :
    threshold ≠ 0 ∧ state.handle.value.toNat < 255 := by
  have inside := (List.getElem?_eq_some_iff.mp at_id).1
  obtain ⟨start, at_start⟩ : ∃ start, thresholds[id]? = some start := by
    rw [counted.length] at inside
    exact ⟨_, List.getElem?_eq_getElem inside⟩
  have left : threshold ≠ 0 := by
    intro zero
    cases (counted.each id start _ _ at_start at_id).2.mpr zero
  have part := sum_set (remaining state) id 0 threshold.toNat (by rw [remaining, List.getElem?_map, at_id, Option.map_some])
  have positive := sub_one_toNat left
  have total := counted.total
  exact ⟨left, by omega⟩

theorem counts (counted : Counted thresholds trace state) (small : (thresholds.map UInt8.toNat).sum ≤ 255) {id : Nat}
    {threshold : UInt8} {result : CoroutineState} (at_id : state.coroutines[id]? = some (⟨threshold⟩, .yielded))
    (free : state.handle.locked = false) (returns : result = if threshold - 1 = 0 then .complete else .yielded) :
    Counted thresholds (trace ++ [.resume id result])
      ⟨{ state.handle with value := state.handle.value + 1 }, state.coroutines.set id (⟨threshold - 1⟩, result)⟩ := by
  obtain ⟨left, below⟩ := counted.room small at_id
  have down := sub_one_toNat left
  refine ⟨by simpa using counted.length, ?_, ?_, ?_⟩
  · intro other
    rw [observe_snoc]
    exact counted.observed other
  · intro other start coroutine last at_other found
    have before := counted.observed other
    unfold freeResumes
    rw [observe_snoc, observe, before, free]
    rw [getElem?_set_found at_id] at found
    by_cases same : id = other
    · subst same
      have here := counted.each id start _ _ at_other at_id
      rw [if_pos rfl, Option.some.injEq, Prod.mk.injEq] at found
      obtain ⟨rfl, rfl⟩ := found
      rw [if_pos ⟨rfl, rfl⟩]
      refine ⟨?_, ?_⟩
      · have whole := here.1
        unfold freeResumes at whole
        simp only at whole ⊢
        omega
      · subst returns
        by_cases last : threshold - 1 = 0
        · simp [last]
        · simp [last]
    · rw [if_neg same] at found
      rw [if_neg fun both => same both.1]
      exact counted.each other start coroutine last at_other found
  · have moved := sum_set (remaining state) id (threshold - 1).toNat threshold.toNat
      (by rw [remaining, List.getElem?_map, at_id, Option.map_some])
    have up : (state.handle.value + 1).toNat = state.handle.value.toNat + 1 := by
      rw [UInt8.toNat_add]
      simp only [UInt8.toNat_one]
      omega
    have total := counted.total
    simp only [remaining, List.map_set] at moved total ⊢
    rw [up]
    omega

end Counted

theorem reaches_counted {thresholds : List UInt8} {trace : List Event} {state : State}
    (positive : ∀ threshold ∈ thresholds, 1 ≤ threshold) (small : (thresholds.map UInt8.toNat).sum ≤ 255)
    (reaches : (coroutines thresholds).Reaches trace state) : Counted thresholds trace state := by
  refine reaches.trace_invariant (Counted thresholds) (.initial positive) ?_
  intro trace state event next _ counted stepped
  cases step_cases stepped with
  | blocked at_id held =>
    have same : ∀ other id, (trace ++ [Event.resume id .yielded]).foldl (observe other) (false, 0) =
        trace.foldl (observe other) (false, 0) := by
      intro other id
      have before := counted.observed other
      rw [held] at before
      rw [observe_snoc, observe, before, if_neg (by simp)]
      exact Prod.ext before.symm rfl
    refine ⟨counted.length, fun other => by rw [same]; exact counted.observed other, ?_, counted.total⟩
    intro other threshold coroutine result at_other found
    rw [freeResumes, same]
    exact counted.each other threshold coroutine result at_other found
  | counts at_id free returns => exact counted.counts small at_id free returns
  | lock free =>
    refine ⟨counted.length, fun other => by rw [observe_snoc]; rfl, ?_, counted.total⟩
    intro other threshold coroutine result at_other found
    rw [freeResumes, observe_snoc]
    exact counted.each other threshold coroutine result at_other found
  | unlock held =>
    refine ⟨counted.length, fun other => by rw [observe_snoc]; rfl, ?_, counted.total⟩
    intro other threshold coroutine result at_other found
    rw [freeResumes, observe_snoc]
    exact counted.each other threshold coroutine result at_other found

/-- How much has been taken from the thresholds, all together. -/
def taken (thresholds : List UInt8) (state : State) : Int :=
  ((thresholds.zip state.coroutines).map fun pair => (pair.1.toNat : Int) - pair.2.1.threshold.toNat).sum

theorem taken_eq (thresholds : List UInt8) (state : State) (same : state.coroutines.length = thresholds.length) :
    taken thresholds state = ((thresholds.map UInt8.toNat).sum : Int) - (remaining state).sum := by
  unfold taken remaining
  generalize state.coroutines = entries at same
  induction thresholds generalizing entries with
  | nil => simp [List.length_eq_zero_iff.mp same]
  | cons threshold thresholds ih =>
    cases entries with
    | nil => simp at same
    | cons entry entries =>
      have rest := ih entries (by simpa using same)
      simp only [List.zip_cons_cons, List.map_cons, List.sum_cons, rest, Int.natCast_add]
      omega

/-- The counter and every `resume` after a run. -/
structure CountingLaw (thresholds : List UInt8) (trace : List Event) (state : State) : Prop where
  counter : (state.handle.value.toNat : Int) = taken thresholds state
  blocked : state.handle.locked = true → ∀ id result next,
    step state (.resume id result) = some next → result = .yielded ∧ next = state
  completes : state.handle.locked = false → ∀ id threshold result next, thresholds[id]? = some threshold →
    step state (.resume id result) = some next → (result = .complete ↔ freeResumes id trace + 1 = threshold.toNat)
  finished : (∀ entry ∈ state.coroutines, entry.2 = .complete) →
    state.handle.value.toNat = (thresholds.map UInt8.toNat).sum

/-- The law holds in every run of resumes among other users of the lock. -/
theorem counting_law {thresholds : List UInt8} {trace : List Event} {state : State}
    (positive : ∀ threshold ∈ thresholds, 1 ≤ threshold) (small : (thresholds.map UInt8.toNat).sum ≤ 255)
    (reaches : (coroutines thresholds).Reaches trace state) : CountingLaw thresholds trace state := by
  have counted := reaches_counted positive small reaches
  refine ⟨?_, ?_, ?_, ?_⟩
  · have total := counted.total
    rw [taken_eq thresholds state counted.length]
    omega
  · intro held id result next stepped
    cases step_cases stepped with
    | blocked at_id _ => exact ⟨rfl, rfl⟩
    | counts at_id free _ =>
      rw [held] at free
      cases free
  · intro free id threshold result next at_id stepped
    cases step_cases stepped with
    | blocked _ held =>
      rw [free] at held
      cases held
    | @counts _ left _ at_state _ returns =>
      obtain ⟨positive, _⟩ := counted.room small at_state
      have down := sub_one_toNat positive
      obtain ⟨whole, _⟩ := counted.each id threshold _ _ at_id at_state
      have last : left - 1 = 0 ↔ (left - 1).toNat = 0 := UInt8.toNat_inj.symm
      subst returns
      by_cases zero : left - 1 = 0
      · have none := last.mp zero
        simp only [zero, if_true, true_iff]
        simp only at whole
        omega
      · have more : (left - 1).toNat ≠ 0 := fun none => zero (last.mpr none)
        simp only [zero, if_false, reduceCtorEq, false_iff]
        simp only at whole
        omega
  · intro all
    have total := counted.total
    have none : (remaining state).sum = 0 := by
      rw [List.sum_eq_zero_iff_forall_eq_nat]
      intro left member
      obtain ⟨entry, inside, rfl⟩ := List.mem_map.mp member
      obtain ⟨id, at_id⟩ := List.getElem?_of_mem inside
      have below := (List.getElem?_eq_some_iff.mp at_id).1
      rw [counted.length] at below
      have zero := (counted.each id _ entry.1 entry.2 (List.getElem?_eq_getElem below) at_id).2.mp (all entry inside)
      rw [zero]
      rfl
    omega

/-- Thresholds 2 and 1, with a resume of each while the lock is held. -/
theorem counting_law_two :
    let trace : List Event := [.resume 0 .yielded, .lock, .resume 0 .yielded, .resume 1 .yielded, .unlock,
      .resume 1 .complete, .resume 0 .complete]
    ∃ state, (coroutines [2, 1]).Reaches trace state ∧ CountingLaw [2, 1] trace state := by
  intro trace
  have positive : ∀ threshold ∈ [(2 : UInt8), 1], 1 ≤ threshold := by
    intro threshold member
    rcases List.mem_cons.mp member with rfl | member
    · decide
    · rw [List.mem_singleton.mp member]
      decide
  exact ⟨_, rfl, counting_law positive (by decide) rfl⟩

end RustAsyncAwait.CoroutineTest
