import RustAsyncAwait.DataRace
import RustAsyncAwait.Library.Lists
import Mathlib.Tactic.Common

/-! The counter of `test_data_race`. It is short of the stores from the first
store on that another store has come in front of. -/

namespace RustAsyncAwait.DataRace
open Library

variable {state next : State} {event : Event} {trace : List Event} {total : Nat}

/-- All that one step can do. -/
inductive Step (state : State) : Event → State → Prop
  | load {task : Nat} (here : state.tasks[task]? = some .spawned) :
      Step state (.load task) { state with tasks := state.tasks.set task (.loaded state.counter) }
  | store {task value : Nat} (here : state.tasks[task]? = some (.loaded value)) (fits : value + 1 < usizeSize) :
      Step state (.store task) { counter := value + 1, tasks := state.tasks.set task .finished }
  | overflow {task value : Nat} (here : state.tasks[task]? = some (.loaded value)) (fits : ¬ value + 1 < usizeSize) :
      Step state (.store task) { state with tasks := state.tasks.set task .panicked }

theorem step_cases (stepped : step state event = some next) : Step state event next := by
  cases event with
  | load task =>
    simp only [step] at stepped
    split at stepped
    · rename_i here
      cases stepped
      exact .load here
    · cases stepped
  | store task =>
    simp only [step] at stepped
    split at stepped
    · rename_i value here
      split at stepped
      · rename_i fits
        cases stepped
        exact .store here fits
      · rename_i fits
        cases stepped
        exact .overflow here fits
    · cases stepped

def stores (trace : List Event) : Nat := trace.countP fun | .store _ => true | .load _ => false

/-- Another task has stored between the load and the store of one. -/
def Overtaken (trace : List Event) : Prop :=
  ∃ first second, first ≠ second ∧ [.load first, .store second, .store first].Sublist trace

theorem overtaken_snoc_load {task : Nat} : Overtaken (trace ++ [.load task]) ↔ Overtaken trace := by
  simp only [Overtaken, between_snoc]
  simp

theorem overtaken_snoc_store {task : Nat} (new : .store task ∉ trace) :
    Overtaken (trace ++ [.store task]) ↔ Overtaken trace ∨ ∃ other, [.load task, .store other].Sublist trace := by
  simp only [Overtaken, between_snoc]
  constructor
  · intro overtaken
    obtain ⟨first, second, apart, already | ⟨between, last⟩⟩ := overtaken
    · exact .inl ⟨first, second, apart, already⟩
    · cases last
      exact .inr ⟨second, between⟩
  · intro either
    rcases either with ⟨first, second, apart, already⟩ | ⟨other, between⟩
    · exact ⟨first, second, apart, .inl already⟩
    · refine ⟨task, other, ?_, .inr ⟨between, rfl⟩⟩
      rintro rfl
      exact new (between.subset (by simp))

/-- The counter against the stores so far. -/
structure Counts (total : Nat) (trace : List Event) (state : State) : Prop where
  length : state.tasks.length = total
  sound : .panicked ∉ state.tasks
  stored : stores trace = state.tasks.countP (· = .finished)
  loads : ∀ task, .load task ∈ trace → state.tasks[task]? ≠ some .spawned
  done : ∀ task, .store task ∈ trace → state.tasks[task]? = some .finished
  le : state.counter ≤ stores trace
  pos : 0 < stores trace → 0 < state.counter
  exact : state.counter = stores trace ↔ ¬ Overtaken trace
  loaded : ∀ task value, state.tasks[task]? = some (.loaded value) → .load task ∈ trace ∧
    ((∃ other, [.load task, .store other].Sublist trace) ∧ value < stores trace ∨
      (¬ ∃ other, [.load task, .store other].Sublist trace) ∧ value = state.counter)

namespace Counts

theorem init : Counts total [] (test_data_race total).init := by
  have spawned {task : Nat} {found : Task} (here : (test_data_race total).init.tasks[task]? = some found) : found = .spawned :=
    (List.mem_replicate.mp (List.mem_of_getElem? here)).2
  refine ⟨by simp [test_data_race], ?_, ?_, by simp, by simp, Nat.zero_le _, by simp [stores], ?_, ?_⟩
  · intro member
    cases (List.mem_replicate.mp member).2
  · simp [test_data_race, stores, List.countP_replicate]
  · simp [Overtaken, test_data_race, stores]
  · intro task value here
    cases spawned here

/-- The store of this task, which is loaded, has not happened. -/
theorem unstored (counts : Counts total trace state) {task value : Nat} (here : state.tasks[task]? = some (.loaded value)) :
    .store task ∉ trace := by
  intro member
  cases here.symm.trans (counts.done task member)

/-- A loaded value is at most the number of stores. -/
theorem value_le (counts : Counts total trace state) {task value : Nat} (here : state.tasks[task]? = some (.loaded value)) :
    value ≤ stores trace := by
  rcases (counts.loaded task value here).2 with ⟨_, less⟩ | ⟨_, same⟩
  · exact Nat.le_of_lt less
  · rw [same]
    exact counts.le

/-- There are at most as many stores as tasks, and fewer while one of them has not stored. -/
theorem stores_lt (counts : Counts total trace state) {task : Nat} {found : Task} (here : state.tasks[task]? = some found)
    (unfinished : found ≠ .finished) : stores trace < total := by
  rw [counts.stored, ← counts.length]
  refine Nat.lt_of_le_of_ne List.countP_le_length fun all => ?_
  have finished := List.countP_eq_length.mp all found (List.mem_of_getElem? here)
  exact unfinished (of_decide_eq_true finished)

theorem load (counts : Counts total trace state) {task : Nat} (here : state.tasks[task]? = some .spawned) :
    Counts total (trace ++ [.load task]) { state with tasks := state.tasks.set task (.loaded state.counter) } := by
  have new : .load task ∉ trace := fun member => counts.loads task member here
  have same : stores (trace ++ [.load task]) = stores trace := by simp [stores]
  have stale (index : Nat) : (∃ other, [.load index, .store other].Sublist (trace ++ [.load task])) ↔
      ∃ other, [.load index, .store other].Sublist trace := by
    simp [before_snoc]
  refine ⟨by rw [List.length_set, counts.length], ?_, ?_, ?_, ?_, by rw [same]; exact counts.le,
    by rw [same]; exact counts.pos, ?_, ?_⟩
  · intro member
    rcases List.mem_or_eq_of_mem_set member with old | new
    · exact counts.sound old
    · cases new
  · have moved := countP_set (· = .finished) state.tasks task (.loaded state.counter) _ here
    rw [same, counts.stored]
    simpa using moved.symm
  · intro index member
    rw [getElem?_set_found here]
    split
    · simp
    · rename_i different
      refine counts.loads index ?_
      simpa [Ne.symm different] using member
  · intro index member
    rw [getElem?_set_found here]
    have stored := counts.done index (by simpa using member)
    split
    · rename_i same
      cases (same ▸ here).symm.trans stored
    · exact stored
  · rw [same, overtaken_snoc_load]
    exact counts.exact
  · intro index value at_index
    rw [same, stale]
    rw [getElem?_set_found here] at at_index
    split at at_index
    · rename_i own
      cases at_index
      subst own
      refine ⟨List.mem_append_right _ (List.mem_singleton_self _), .inr ⟨fun overtaken => ?_, rfl⟩⟩
      obtain ⟨other, between⟩ := overtaken
      exact new (between.subset (by simp))
    · obtain ⟨began, held⟩ := counts.loaded index value at_index
      exact ⟨List.mem_append_left _ began, held⟩

theorem store (counts : Counts total trace state) {task value : Nat} (here : state.tasks[task]? = some (.loaded value)) :
    Counts total (trace ++ [.store task]) { counter := value + 1, tasks := state.tasks.set task .finished } := by
  have more : stores (trace ++ [.store task]) = stores trace + 1 := by simp [stores]
  have at_most := counts.value_le here
  refine ⟨by rw [List.length_set, counts.length], ?_, ?_, ?_, ?_, by rw [more]; exact Nat.succ_le_succ at_most,
    fun _ => Nat.succ_pos value, ?_, ?_⟩
  · intro member
    rcases List.mem_or_eq_of_mem_set member with old | new
    · exact counts.sound old
    · cases new
  · have moved := countP_set (· = .finished) state.tasks task .finished _ here
    rw [more, counts.stored]
    simpa using moved.symm
  · intro index member
    rw [getElem?_set_found here]
    split
    · simp
    · exact counts.loads index (by simpa using member)
  · intro index member
    rw [getElem?_set_found here]
    split
    · rfl
    · rename_i different
      refine counts.done index ?_
      simpa [Ne.symm different] using member
  · rw [more, overtaken_snoc_store (counts.unstored here), not_or, ← counts.exact]
    rcases (counts.loaded task value here).2 with ⟨overtaken, less⟩ | ⟨fresh, same⟩
    · simp only [overtaken, not_true, and_false, iff_false]
      omega
    · simp only [fresh, not_false_eq_true, and_true]
      omega
  · intro index value at_index
    rw [getElem?_set_found here] at at_index
    split at at_index
    · cases at_index
    · obtain ⟨began, _⟩ := counts.loaded index value at_index
      have at_most := counts.value_le at_index
      refine ⟨List.mem_append_left _ began, .inl ⟨⟨task, ?_⟩, by rw [more]; omega⟩⟩
      exact before_snoc.mpr (.inr ⟨began, rfl⟩)

end Counts

theorem counts_run (few : total < usizeSize) (reaches : (test_data_race total).Reaches trace state) : Counts total trace state := by
  refine reaches.trace_invariant (Counts total) .init ?_
  intro trace state event next _ counts stepped
  cases step_cases stepped with
  | load here => exact counts.load here
  | store here => exact counts.store here
  | overflow here large =>
    have at_most := counts.value_le here
    have less := counts.stores_lt here (by simp)
    omega

/-- The test passes just in the runs in which no task stores between the load and
the store of another. -/
theorem passes_iff (few : total < usizeSize) (reaches : (test_data_race total).Reaches trace state) (joined : state.joined) :
    state.counter = total ↔ ¬ Overtaken trace := by
  have counts := counts_run few reaches
  have all : stores trace = total := by
    rw [counts.stored, ← counts.length]
    exact List.countP_eq_length.mpr fun task member => decide_eq_true (joined task member)
  rw [← counts.exact, all]

/-- Two of three tasks load before the first store. -/
theorem passes_iff_three :
    let trace : List Event := [.load 0, .load 1, .store 0, .load 2, .store 2, .store 1]
    ∃ state, (test_data_race 3).Reaches trace state ∧ (state.counter = 3 ↔ ¬ Overtaken trace) := by
  intro trace
  have runs : (test_data_race 3).Reaches trace ⟨1, [.finished, .finished, .finished]⟩ := rfl
  exact ⟨_, runs, passes_iff (by decide) runs (by simp [State.joined])⟩

section Range
variable {threads spawned counter : Nat} {front rest : List Task}

def Task.loading : Task → Bool
  | .loaded _ => true
  | .spawned | .finished | .panicked => false

/-- A task keeps its thread from its load to its store. -/
def State.has_thread (threads : Nat) (state : State) : Event → Bool
  | .load _ => state.tasks.countP Task.loading < threads
  | .store _ => true

/-- The runs on so many worker threads. -/
def on_threads (threads total : Nat) : Machine State Event :=
  (test_data_race total).restrict fun state event => state.has_thread threads event = true

theorem getElem?_behind (next : Task) : (front ++ next :: rest)[front.length]? = some next := by
  rw [List.getElem?_append_right (Nat.le_refl _), Nat.sub_self, List.getElem?_cons_zero]

theorem set_behind (next new : Task) : (front ++ next :: rest).set front.length new = front ++ new :: rest := by
  rw [List.set_append_right _ _ (Nat.le_refl _), Nat.sub_self, List.set_cons_zero]

theorem load_next (free : (front ++ .spawned :: rest).countP Task.loading < threads) :
    (on_threads threads total).step ⟨counter, front ++ .spawned :: rest⟩ (.load front.length) =
      some ⟨counter, front ++ .loaded counter :: rest⟩ :=
  Machine.restrict_step.mpr ⟨decide_eq_true free, by simp only [test_data_race, step, getElem?_behind, set_behind]⟩

theorem store_next {value : Nat} (fits : value + 1 < usizeSize) :
    (on_threads threads total).step ⟨counter, front ++ .loaded value :: rest⟩ (.store front.length) =
      some ⟨value + 1, front ++ .finished :: rest⟩ :=
  Machine.restrict_step.mpr ⟨rfl, by simp only [test_data_race, step, getElem?_behind, set_behind, if_pos fits]⟩

/-- Each task loads and stores before the next one, while the others hold their threads. -/
theorem alone_run (free : front.countP Task.loading + rest.countP Task.loading < threads) (fits : counter + spawned < usizeSize) :
    (on_threads threads total).runFrom ⟨counter, front ++ (.replicate spawned .spawned ++ rest)⟩
      ((List.range' front.length spawned).flatMap fun task => [.load task, .store task]) =
        some ⟨counter + spawned, front ++ (.replicate spawned .finished ++ rest)⟩ := by
  induction spawned generalizing front counter with
  | zero => rfl
  | succ spawned ih =>
    have idle : (List.replicate spawned Task.spawned).countP Task.loading = 0 := by simp [Task.loading]
    have loaded := @load_next total threads counter front (.replicate spawned .spawned ++ rest) (by
      rw [List.countP_append, List.countP_cons_of_neg (by simp [Task.loading]), List.countP_append, idle, Nat.zero_add]
      exact free)
    have stored := @store_next total threads counter front (.replicate spawned .spawned ++ rest) counter (by omega)
    have next := @ih (counter + 1) (front ++ [.finished]) (by simpa [List.countP_append, Task.loading] using free) (by omega)
    rw [List.length_append, List.length_singleton, List.append_assoc, List.singleton_append] at next
    rw [List.range'_succ, List.flatMap_cons, List.replicate_succ, List.cons_append, Machine.runFrom_append, Machine.runFrom_cons,
      loaded, Option.bind_some, Machine.runFrom_cons, stored, Option.bind_some, Machine.runFrom_nil, Option.bind_some, next,
      List.append_assoc, List.singleton_append, Nat.add_right_comm, Nat.add_assoc, List.replicate_succ, List.cons_append]

/-- One task loads the 0 and keeps it while `stale` others run. Then it stores its 1,
and the last ones run. -/
theorem overtaken_run (two : 2 ≤ threads) (stale last : Nat) (few : stale + (last + 1) < usizeSize) :
    ∃ trace state, (on_threads threads (stale + (last + 1))).Reaches trace state ∧ state.joined ∧ state.counter = last + 1 := by
  let machine := on_threads threads (stale + (last + 1))
  let ended : List Task := .finished :: .replicate stale .finished
  have quiet (count : Nat) (task : Task) (rests : task.loading = false) :
      (List.replicate count task).countP Task.loading = 0 := by
    simp [rests]
  have loaded : machine.step ⟨0, .spawned :: (.replicate stale .spawned ++ .replicate last .spawned)⟩ (.load 0) =
      some ⟨0, .loaded 0 :: (.replicate stale .spawned ++ .replicate last .spawned)⟩ := by
    refine @load_next _ threads 0 [] _ ?_
    rw [List.nil_append, List.countP_cons_of_neg (by simp [Task.loading]), List.countP_append, quiet _ _ rfl, quiet _ _ rfl]
    exact Nat.lt_of_lt_of_le Nat.zero_lt_two two
  have others := @alone_run (stale + (last + 1)) threads stale 0 [.loaded 0] (.replicate last .spawned)
    (by rw [quiet _ _ rfl]; exact two) (by omega)
  have stored : machine.step ⟨0 + stale, .loaded 0 :: (.replicate stale .finished ++ .replicate last .spawned)⟩ (.store 0) =
      some ⟨1, ended ++ (.replicate last .spawned ++ [])⟩ :=
    (@store_next _ threads _ [] _ 0 (by decide)).trans (by simp [ended])
  have lasts := @alone_run (stale + (last + 1)) threads last 1 ended [] (by
    rw [List.countP_cons_of_neg (by simp [Task.loading]), quiet _ _ rfl]
    exact Nat.lt_of_lt_of_le Nat.zero_lt_two two) (by omega)
  have first : machine.init = ⟨0, .spawned :: (.replicate stale .spawned ++ .replicate last .spawned)⟩ := by
    show (⟨0, .replicate (stale + (last + 1)) .spawned⟩ : State) = _
    rw [← List.replicate_add, ← List.replicate_succ, Nat.add_assoc]
  refine ⟨.load 0 :: (((List.range' 1 stale).flatMap fun task => [.load task, .store task]) ++
    .store 0 :: ((List.range' ended.length last).flatMap fun task => [.load task, .store task])),
    ⟨1 + last, ended ++ (.replicate last .finished ++ [])⟩, ?_, ?_, ?_⟩
  · show machine.runFrom machine.init _ = _
    rw [first, Machine.runFrom_cons, loaded, Option.bind_some]
    refine (Machine.runFrom_append_some _).mpr ⟨_, others, ?_⟩
    exact Option.bind_eq_some_iff.mpr ⟨_, stored, lasts⟩
  · intro task member
    simp only [ended, List.append_nil, List.cons_append, List.mem_cons, List.mem_append, List.mem_replicate] at member
    rcases member with same | same | same
    · exact same
    · exact same.2
    · exact same.2
  · exact Nat.add_comm 1 last

/-- The counters that the test may find are those from 1 to `total`, and two worker
threads are enough for each of them. -/
theorem counter_range (few : total < usizeSize) (some_ : 0 < total) (counter : Nat) :
    ((∃ trace state, (test_data_race total).Reaches trace state ∧ state.joined ∧ state.counter = counter) ↔
      1 ≤ counter ∧ counter ≤ total) ∧
    ∀ threads, 2 ≤ threads →
      ((∃ trace state, (on_threads threads total).Reaches trace state ∧ state.joined ∧ state.counter = counter) ↔
        1 ≤ counter ∧ counter ≤ total) := by
  have within (found : ∃ trace state, (test_data_race total).Reaches trace state ∧ state.joined ∧ state.counter = counter) :
      1 ≤ counter ∧ counter ≤ total := by
    obtain ⟨trace, state, reaches, joined, rfl⟩ := found
    have counts := counts_run few reaches
    have all : stores trace = total := by
      rw [counts.stored, ← counts.length]
      exact List.countP_eq_length.mpr fun task member => decide_eq_true (joined task member)
    exact ⟨counts.pos (all ▸ some_), all ▸ counts.le⟩
  have freed {threads : Nat}
      (found : ∃ trace state, (on_threads threads total).Reaches trace state ∧ state.joined ∧ state.counter = counter) :
      ∃ trace state, (test_data_race total).Reaches trace state ∧ state.joined ∧ state.counter = counter := by
    obtain ⟨trace, state, reaches, rest⟩ := found
    exact ⟨trace, state, reaches.unrestricted, rest⟩
  have reached {threads : Nat} (two : 2 ≤ threads) (range : 1 ≤ counter ∧ counter ≤ total) :
      ∃ trace state, (on_threads threads total).Reaches trace state ∧ state.joined ∧ state.counter = counter := by
    obtain ⟨last, rfl⟩ := Nat.exists_eq_add_of_le' range.1
    obtain ⟨stale, rfl⟩ := Nat.exists_eq_add_of_le' range.2
    exact overtaken_run two stale last few
  constructor
  · exact ⟨within, fun range => freed (reached (Nat.le_refl 2) range)⟩
  · intro threads two
    exact ⟨fun found => within (freed found), reached two⟩

theorem counter_range_three :
    ((∃ trace state, (test_data_race 3).Reaches trace state ∧ state.joined ∧ state.counter = 2) ↔ 1 ≤ 2 ∧ 2 ≤ 3) ∧
      ((∃ trace state, (on_threads 2 3).Reaches trace state ∧ state.joined ∧ state.counter = 2) ↔ 1 ≤ 2 ∧ 2 ≤ 3) := by
  have range := @counter_range 3 (by decide) (by decide) 2
  exact ⟨range.1, range.2 2 (Nat.le_refl 2)⟩

end Range

end RustAsyncAwait.DataRace
