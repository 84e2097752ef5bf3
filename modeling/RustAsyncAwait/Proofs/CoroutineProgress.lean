import RustAsyncAwait.CoroutineOverflow
import RustAsyncAwait.Proofs.CoroutineCounts

/-! The coroutines make progress until the counter overflows. Its panic poisons
the mutex, and `try_lock` tells that to the others as if the lock were held. -/

namespace RustAsyncAwait.CoroutineOverflow
open Library
open CoroutineTest (MutexCoroutine sub_one_toNat)

/-- Whether the lock is held after some events, and how many of the counted
coroutines' resumes were made while it was free. -/
def observe (counted : Nat → Bool) (seen : Bool × Nat) : Event → Bool × Nat
  | .resume id _ => (seen.1, if counted id = true ∧ seen.1 = false then seen.2 + 1 else seen.2)
  | .lock => (true, seen.2)
  | .unlock => (false, seen.2)

def observed (counted : Nat → Bool) (trace : List Event) : Bool × Nat := trace.foldl (observe counted) (false, 0)

/-- The resumes that a coroutine has made while nobody held the lock. -/
def freeResumes (id : Nat) (trace : List Event) : Nat := (observed (· == id) trace).2

/-- The same for all coroutines together. -/
def allFreeResumes (trace : List Event) : Nat := (observed (fun _ => true) trace).2

theorem observed_snoc (counted : Nat → Bool) (trace : List Event) (event : Event) :
    observed counted (trace ++ [event]) = observe counted (observed counted trace) event := by
  rw [observed, List.foldl_append]
  rfl

/-- What a `resume` does at each outcome of `try_lock`. -/
theorem resume_eq (coroutine : MutexCoroutine) (handle : Mutex) : resume coroutine handle =
    if handle.locked = true ∨ handle.poisoned = true then (.yielded, coroutine, handle)
    else if handle.value = 255 then (.panicked, coroutine, { handle with poisoned := true })
    else if coroutine.threshold = 0 then (.panicked, coroutine, { handle with value := handle.value + 1 })
    else (if coroutine.threshold - 1 = 0 then .complete else .yielded, ⟨coroutine.threshold - 1⟩,
      { handle with value := handle.value + 1 }) := by
  by_cases failed : handle.locked = true ∨ handle.poisoned = true
  · have taken : handle.tried.locked = true := by simpa [Mutex.tried] using failed
    simp only [resume, MutexCoroutine.resume, if_pos taken, if_pos failed]
    rfl
  · have free : ¬ handle.tried.locked = true := by simpa [Mutex.tried] using failed
    by_cases last : coroutine.threshold - 1 = 0
    · simp only [resume, MutexCoroutine.resume, if_neg free, if_neg failed, if_pos last]
      rfl
    · simp only [resume, MutexCoroutine.resume, if_neg free, if_neg failed, if_neg last]
      rfl

inductive Step (state : State) : Event → State → Prop
  | blocked {id : Nat} {coroutine : MutexCoroutine} {last : Resumed} (at_id : state.coroutines[id]? = some (coroutine, last))
      (left : last ≠ .complete) (failed : state.handle.locked = true ∨ state.handle.poisoned = true) :
      Step state (.resume id .yielded) { state with coroutines := state.coroutines.set id (coroutine, .yielded) }
  | overflows {id : Nat} {coroutine : MutexCoroutine} {last : Resumed} (at_id : state.coroutines[id]? = some (coroutine, last))
      (left : last ≠ .complete) (free : state.handle.locked = false) (sound : state.handle.poisoned = false)
      (full : state.handle.value = 255) :
      Step state (.resume id .panicked)
        ⟨{ state.handle with poisoned := true }, state.coroutines.set id (coroutine, .panicked)⟩
  | underflows {id : Nat} {coroutine : MutexCoroutine} {last : Resumed} (at_id : state.coroutines[id]? = some (coroutine, last))
      (left : last ≠ .complete) (free : state.handle.locked = false) (sound : state.handle.poisoned = false)
      (zero : coroutine.threshold = 0) :
      Step state (.resume id .panicked)
        ⟨{ state.handle with value := state.handle.value + 1 }, state.coroutines.set id (coroutine, .panicked)⟩
  | counts {id : Nat} {threshold : UInt8} {last result : Resumed} (at_id : state.coroutines[id]? = some (⟨threshold⟩, last))
      (left : last ≠ .complete) (free : state.handle.locked = false) (sound : state.handle.poisoned = false)
      (room : state.handle.value ≠ 255) (positive : threshold ≠ 0)
      (returns : result = if threshold - 1 = 0 then .complete else .yielded) :
      Step state (.resume id result)
        ⟨{ state.handle with value := state.handle.value + 1 }, state.coroutines.set id (⟨threshold - 1⟩, result)⟩
  | lock (free : state.handle.locked = false) : Step state .lock { state with handle.locked := true }
  | unlock (held : state.handle.locked = true) : Step state .unlock { state with handle.locked := false }

theorem step_cases {state next : State} {event : Event} (stepped : step state event = some next) :
    Step state event next := by
  cases event with
  | resume id result =>
    simp only [step] at stepped
    split at stepped
    · rename_i coroutine last at_id
      obtain ⟨⟨left, returned⟩, made⟩ := Option.ite_none_right_eq_some.mp stepped
      cases made
      subst returned
      by_cases failed : state.handle.locked = true ∨ state.handle.poisoned = true
      · simpa only [resume_eq, if_pos failed] using Step.blocked at_id left failed
      · obtain ⟨free, sound⟩ := not_or.mp failed
        rw [Bool.not_eq_true] at free sound
        by_cases full : state.handle.value = 255
        · simpa only [resume_eq, if_neg failed, if_pos full] using Step.overflows at_id left free sound full
        · by_cases zero : coroutine.threshold = 0
          · simpa only [resume_eq, if_neg failed, if_neg full, if_pos zero] using Step.underflows at_id left free sound zero
          · by_cases last : coroutine.threshold - 1 = 0
            · have counted := Step.counts at_id left free sound full zero rfl
              simpa only [resume_eq, if_neg failed, if_neg full, if_neg zero, if_pos last] using counted
            · have counted := Step.counts at_id left free sound full zero rfl
              simpa only [resume_eq, if_neg failed, if_neg full, if_neg zero, if_neg last] using counted
    · cases stepped
  | lock =>
    simp only [step] at stepped
    split at stepped
    · cases stepped
    · rename_i free
      cases stepped
      exact .lock (by simpa using free)
  | unlock =>
    simp only [step] at stepped
    split at stepped
    · rename_i held
      cases stepped
      exact .unlock held
    · cases stepped

/-- Every free resume of every coroutine has been taken from its threshold, and
it is complete exactly when none is left. -/
def Progress (thresholds : List UInt8) (trace : List Event) (state : State) : Prop :=
  ∀ (id : Nat) threshold coroutine result, thresholds[id]? = some threshold →
    state.coroutines[id]? = some (coroutine, result) →
      coroutine.threshold.toNat + freeResumes id trace = threshold.toNat ∧
        (result = .complete ↔ coroutine.threshold = 0)

/-- The counter has kept up with the free resumes. -/
structure Sound (value : UInt8) (thresholds : List UInt8) (trace : List Event) (state : State) : Prop where
  counter : state.handle.value.toNat = value.toNat + allFreeResumes trace
  sound : state.handle.poisoned = false
  progress : Progress thresholds trace state

/-- The counter has overflowed. The coroutine that panicked has made a free
resume too many. -/
structure Lost (value : UInt8) (thresholds : List UInt8) (trace : List Event) (state : State) : Prop where
  overflowed : 255 < value.toNat + allFreeResumes trace
  poisoned : state.handle.poisoned = true
  behind : ∃ (id : Nat) (threshold : UInt8) (coroutine : MutexCoroutine) (result : Resumed), thresholds[id]? = some threshold ∧
    state.coroutines[id]? = some (coroutine, result) ∧ threshold.toNat < coroutine.threshold.toNat + freeResumes id trace

structure Counted (value : UInt8) (thresholds : List UInt8) (trace : List Event) (state : State) : Prop where
  length : state.coroutines.length = thresholds.length
  lock : ∀ counted, (observed counted trace).1 = state.handle.locked
  either : Sound value thresholds trace state ∨ Lost value thresholds trace state

theorem observed_mono (counted : Nat → Bool) (trace : List Event) (event : Event) :
    (observed counted trace).2 ≤ (observed counted (trace ++ [event])).2 := by
  rw [observed_snoc]
  cases event with
  | resume id result =>
    simp only [observe]
    split <;> omega
  | lock | unlock => exact Nat.le_refl _

variable {value : UInt8} {thresholds : List UInt8} {trace : List Event} {state next : State}

theorem Sound.same (sound : Sound value thresholds trace state) {event : Event}
    (seen : ∀ counted, (observed counted (trace ++ [event])).2 = (observed counted trace).2)
    (counter : next.handle.value = state.handle.value) (kept : next.handle.poisoned = state.handle.poisoned)
    (coroutines : ∀ (id : Nat) coroutine result, next.coroutines[id]? = some (coroutine, result) →
      ∃ last, state.coroutines[id]? = some (coroutine, last) ∧ (result = .complete ↔ last = .complete)) :
    Sound value thresholds (trace ++ [event]) next where
  counter := by rw [counter, allFreeResumes, seen]; exact sound.counter
  sound := kept.trans sound.sound
  progress := by
    intro id threshold coroutine result at_id found
    obtain ⟨last, before, both⟩ := coroutines id coroutine result found
    rw [freeResumes, seen, both]
    exact sound.progress id threshold coroutine last at_id before

theorem Sound.counts (sound : Sound value thresholds trace state) (lock : ∀ counted, (observed counted trace).1 = state.handle.locked)
    {id : Nat} {threshold : UInt8} {last result : Resumed} (at_id : state.coroutines[id]? = some (⟨threshold⟩, last))
    (free : state.handle.locked = false) (room : state.handle.value ≠ 255) (positive : threshold ≠ 0)
    (returns : result = if threshold - 1 = 0 then .complete else .yielded) :
    Sound value thresholds (trace ++ [.resume id result])
      ⟨{ state.handle with value := state.handle.value + 1 }, state.coroutines.set id (⟨threshold - 1⟩, result)⟩ where
  counter := by
    have up : (state.handle.value + 1).toNat = state.handle.value.toNat + 1 := by
      have below : state.handle.value.toNat ≠ 255 := fun full => room (UInt8.toNat_inj.mp full)
      have byte := state.handle.value.toNat_lt
      rw [UInt8.toNat_add]
      simp only [UInt8.toNat_one]
      omega
    rw [up, allFreeResumes, observed_snoc, observe, lock, free, if_pos ⟨rfl, rfl⟩, sound.counter]
    rfl
  sound := sound.sound
  progress := by
    intro other start coroutine found at_other at_next
    rw [freeResumes, observed_snoc, observe, lock, free]
    rw [getElem?_set_found at_id] at at_next
    by_cases same : id = other
    · subst same
      rw [if_pos rfl] at at_next
      cases at_next
      obtain ⟨whole, _⟩ := sound.progress id start _ _ at_other at_id
      have down := sub_one_toNat positive
      rw [if_pos ⟨beq_self_eq_true id, rfl⟩]
      refine ⟨?_, ?_⟩
      · unfold freeResumes at whole
        simp only at whole ⊢
        omega
      · subst returns
        by_cases last : threshold - 1 = 0
        · simp [last]
        · simp [last]
    · rw [if_neg same] at at_next
      rw [if_neg fun both => same (eq_of_beq both.1)]
      exact sound.progress other start coroutine found at_other at_next

/-- The resume that overflows is the one too many. -/
theorem Sound.overflows (sound : Sound value thresholds trace state) (lock : ∀ counted, (observed counted trace).1 = state.handle.locked)
    (length : state.coroutines.length = thresholds.length)
    {id : Nat} {coroutine : MutexCoroutine} {last : Resumed} (at_id : state.coroutines[id]? = some (coroutine, last))
    (free : state.handle.locked = false) (full : state.handle.value = 255) :
    Lost value thresholds (trace ++ [.resume id .panicked])
      ⟨{ state.handle with poisoned := true }, state.coroutines.set id (coroutine, .panicked)⟩ where
  overflowed := by
    have counter := sound.counter
    rw [full] at counter
    rw [allFreeResumes, observed_snoc, observe, lock, free, if_pos ⟨rfl, rfl⟩]
    unfold allFreeResumes at counter
    simp at counter
    omega
  poisoned := rfl
  behind := by
    have inside := (List.getElem?_eq_some_iff.mp at_id).1
    have at_start := List.getElem?_eq_getElem (length ▸ inside)
    obtain ⟨whole, _⟩ := sound.progress id _ _ _ at_start at_id
    refine ⟨id, _, coroutine, .panicked, at_start, List.getElem?_set_self inside, ?_⟩
    rw [freeResumes, observed_snoc, observe, lock, free, if_pos ⟨beq_self_eq_true id, rfl⟩]
    unfold freeResumes at whole
    simp only at whole ⊢
    omega

theorem Lost.keeps (lost : Lost value thresholds trace state) {event : Event} (poisoned : next.handle.poisoned = true)
    (coroutines : ∀ (id : Nat) coroutine result, state.coroutines[id]? = some (coroutine, result) →
      ∃ last, next.coroutines[id]? = some (coroutine, last)) :
    Lost value thresholds (trace ++ [event]) next where
  overflowed := Nat.lt_of_lt_of_le lost.overflowed (Nat.add_le_add_left (observed_mono _ trace event) _)
  poisoned := poisoned
  behind := by
    obtain ⟨id, threshold, coroutine, result, at_start, at_id, late⟩ := lost.behind
    obtain ⟨last, at_next⟩ := coroutines id coroutine result at_id
    have grown : freeResumes id trace ≤ freeResumes id (trace ++ [event]) := observed_mono _ trace event
    exact ⟨id, threshold, coroutine, last, at_start, at_next, by omega⟩

theorem set_same {id : Nat} {coroutine : MutexCoroutine} {last new : Resumed}
    (at_id : state.coroutines[id]? = some (coroutine, last)) :
    ∀ (other : Nat) found result, state.coroutines[other]? = some (found, result) →
      ∃ later, (state.coroutines.set id (coroutine, new))[other]? = some (found, later) := by
  intro other found result at_other
  rw [getElem?_set_found at_id]
  split
  · subst other
    cases at_id.symm.trans at_other
    exact ⟨new, rfl⟩
  · exact ⟨result, at_other⟩

theorem Counted.step (counted : Counted value thresholds trace state) {event : Event}
    (stepped : CoroutineOverflow.step state event = some next) : Counted value thresholds (trace ++ [event]) next := by
  obtain ⟨length, lock, either⟩ := counted
  cases step_cases stepped with
  | @blocked id coroutine last at_id left failed =>
    refine ⟨by simpa using length, fun counted => by rw [observed_snoc]; exact lock counted, ?_⟩
    rcases either with sound | lost
    · left
      rw [sound.sound] at failed
      have held := failed.resolve_right Bool.false_ne_true
      refine sound.same (fun counted => by rw [observed_snoc, observe, lock, held, if_neg (by simp)]) rfl rfl ?_
      intro other found result at_other
      rw [getElem?_set_found at_id] at at_other
      split at at_other
      · subst other
        cases at_other
        exact ⟨last, at_id, by simpa using left⟩
      · exact ⟨result, at_other, Iff.rfl⟩
    · exact .inr (lost.keeps lost.poisoned (set_same at_id))
  | overflows at_id left free sound full =>
    refine ⟨by simpa using length, fun counted => by rw [observed_snoc]; exact lock counted, .inr ?_⟩
    rcases either with kept | lost
    · exact kept.overflows lock length at_id free full
    · exact absurd (sound.symm.trans lost.poisoned) Bool.false_ne_true
  | underflows at_id left free sound zero =>
    rcases either with kept | lost
    · have inside := (List.getElem?_eq_some_iff.mp at_id).1
      have at_start := List.getElem?_eq_getElem (length ▸ inside)
      exact absurd ((kept.progress _ _ _ _ at_start at_id).2.mpr zero) left
    · exact absurd (sound.symm.trans lost.poisoned) Bool.false_ne_true
  | counts at_id left free sound room positive returns =>
    refine ⟨by simpa using length, fun counted => by rw [observed_snoc]; exact lock counted, ?_⟩
    rcases either with kept | lost
    · exact .inl (kept.counts lock at_id free room positive returns)
    · exact absurd (sound.symm.trans lost.poisoned) Bool.false_ne_true
  | lock | unlock =>
    refine ⟨length, fun counted => by rw [observed_snoc]; rfl, either.imp ?_ ?_⟩
    · intro sound
      exact sound.same (fun counted => by rw [observed_snoc]; rfl) rfl rfl
        (fun id coroutine result found => ⟨result, found, Iff.rfl⟩)
    · intro lost
      exact lost.keeps lost.poisoned (fun id coroutine result found => ⟨result, found⟩)

theorem reaches_counted (positive : ∀ threshold ∈ thresholds, 1 ≤ threshold)
    (reaches : (coroutines value thresholds).Reaches trace state) : Counted value thresholds trace state := by
  refine reaches.trace_invariant (Counted value thresholds) ⟨by simp [coroutines], fun _ => rfl, .inl ⟨rfl, rfl, ?_⟩⟩ ?_
  · intro id threshold coroutine result at_id found
    simp only [coroutines, List.getElem?_map, at_id, Option.map_some, Option.some.injEq, Prod.mk.injEq] at found
    obtain ⟨rfl, rfl⟩ := found
    have above := positive threshold (List.mem_of_getElem? at_id)
    refine ⟨rfl, ?_⟩
    constructor
    · intro complete
      cases complete
    · intro zero
      rw [show threshold = 0 from zero] at above
      exact absurd above (by decide)
  · intro trace state event next _ counted stepped
    exact counted.step stepped

theorem poisoned_step (poisoned : state.handle.poisoned = true) {event : Event} (stepped : step state event = some next) :
    next.handle.poisoned = true ∧ next.coroutines.map Prod.fst = state.coroutines.map Prod.fst ∧
      ∀ id result, event = .resume id result → result = .yielded := by
  cases step_cases stepped with
  | @blocked id coroutine last at_id left failed =>
    refine ⟨poisoned, ?_, fun _ _ same => (Event.resume.inj same).2.symm⟩
    exact map_set_found at_id Prod.fst rfl
  | overflows at_id left free sound full | underflows at_id left free sound zero =>
    exact absurd (sound.symm.trans poisoned) Bool.false_ne_true
  | counts at_id left free sound => exact absurd (sound.symm.trans poisoned) Bool.false_ne_true
  | lock | unlock => exact ⟨poisoned, rfl, fun _ _ same => nomatch same⟩

/-- Once the mutex is poisoned, every resume yields, and the thresholds stay as they are. -/
theorem poisoned_yields (poisoned : state.handle.poisoned = true)
    (runs : (coroutines value thresholds).runFrom state trace = some next) :
    next.handle.poisoned = true ∧ next.coroutines.map Prod.fst = state.coroutines.map Prod.fst ∧
      ∀ id result, .resume id result ∈ trace → result = .yielded := by
  induction trace generalizing state with
  | nil =>
    cases runs
    exact ⟨poisoned, rfl, fun id result member => nomatch member⟩
  | cons event rest ih =>
    obtain ⟨middle, stepped, runs⟩ := Option.bind_eq_some_iff.mp runs
    obtain ⟨still, kept, first⟩ := poisoned_step poisoned stepped
    obtain ⟨last, same, later⟩ := ih still runs
    refine ⟨last, same.trans kept, ?_⟩
    intro id result member
    rcases List.mem_cons.mp member with here | there
    · exact first id result here.symm
    · exact later id result there

/-- Every free resume counts, and each coroutine completes after as many as its
threshold, if and only if the counter has room for all of them. -/
theorem progress_iff (positive : ∀ threshold ∈ thresholds, 1 ≤ threshold)
    (reaches : (coroutines value thresholds).Reaches trace state) :
    Progress thresholds trace state ↔ value.toNat + allFreeResumes trace ≤ 255 := by
  have counted := reaches_counted positive reaches
  rcases counted.either with sound | lost
  · have byte := state.handle.value.toNat_lt
    have counter := sound.counter
    exact ⟨fun _ => by omega, fun _ => sound.progress⟩
  · obtain ⟨id, threshold, coroutine, result, at_start, at_id, late⟩ := lost.behind
    have overflowed := lost.overflowed
    constructor
    · intro progress
      have whole := (progress id threshold coroutine result at_start at_id).1
      omega
    · intro room
      omega

/-- Two coroutines of thresholds 2 and 1. -/
theorem progress_iff_two :
    let trace : List Event := [.resume 0 .yielded, .lock, .resume 1 .yielded, .unlock, .resume 1 .complete, .resume 0 .complete]
    ∃ state, (coroutines 0 [2, 1]).Reaches trace state ∧
      (Progress [2, 1] trace state ↔ (0 : UInt8).toNat + allFreeResumes trace ≤ 255) := by
  intro trace
  have positive : ∀ threshold ∈ [(2 : UInt8), 1], 1 ≤ threshold := by simp
  exact ⟨_, rfl, progress_iff positive rfl⟩

/-- The 256th increment, of the second of three coroutines, after which the third one yields with the lock free. -/
theorem not_progress :
    ¬ ∀ (thresholds : List UInt8) (trace : List Event) (state : State), (∀ threshold ∈ thresholds, 1 ≤ threshold) →
      (coroutines 0 thresholds).Reaches trace state → Progress thresholds trace state := by
  intro always
  have reaches : (coroutines 0 [255, 2, 1]).Reaches
      (List.replicate 254 (.resume 0 .yielded) ++ [.resume 0 .complete, .resume 1 .panicked, .resume 2 .yielded])
      ⟨⟨255, false, true⟩, [(⟨0⟩, .complete), (⟨2⟩, .panicked), (⟨1⟩, .yielded)]⟩ := by
    unfold Machine.Reaches
    decide +kernel
  have progress := always _ _ _ (by simp) reaches
  have whole := (progress 2 1 ⟨1⟩ .yielded rfl rfl).1
  exact absurd whole (by decide +kernel)

end RustAsyncAwait.CoroutineOverflow
