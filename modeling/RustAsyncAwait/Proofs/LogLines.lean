import RustAsyncAwait.Logging
import RustAsyncAwait.Library.Lists

/-! What the log holds. An entry whose `write_all` fails has no line of its own,
although its future is ready with `Ok(true)`. -/

namespace RustAsyncAwait.Logging
open Library

/-- The entry of a task that has returned `Ok(true)`. -/
def AsyncWriteFuture.returned : AsyncWriteFuture → List String
  | ⟨entry, some (.ok true)⟩ => [entry]
  | _ => []

def State.returned (state : State) : List String := state.tasks.flatMap AsyncWriteFuture.returned

/-- The entries of the tasks that have returned `Ok(true)` stand in the file,
each as one line and in some order, and nothing else follows the earlier lines. -/
def Logged (earlier : List String) (state : State) : Prop :=
  ∃ lines, lines.Perm state.returned ∧ state.file = (earlier ++ lines).flatMap lined_entry

def State.entries (state : State) : List String := state.tasks.map AsyncWriteFuture.entry

/-- Each `write_all` of the run has been successful. -/
def Succeeds (trace : List Event) (state : State) : Prop :=
  ∀ task outcomes entry, .write_all task outcomes ∈ trace → state.entries[task]? = some entry →
    (write_all (lined_entry entry) outcomes).2 = .ok ()

def OneLine (entry : String) : Prop := newline ∉ as_bytes entry

theorem count_lines {lines : List String} (clear : ∀ entry ∈ lines, OneLine entry) :
    (lines.flatMap lined_entry).count newline = lines.length := by
  induction lines with
  | nil => rfl
  | cons entry lines ih =>
    have inside := List.count_eq_zero.mpr (clear entry (List.mem_cons_self ..))
    have rest := ih fun other member => clear other (List.mem_cons_of_mem _ member)
    simp only [List.flatMap_cons, List.count_append, lined_entry, inside, rest, List.count_singleton_self,
      List.length_cons]
    omega

/-- A `write_all` that fails leaves out the newline, which comes last. -/
theorem failed_count {entry : String} {outcomes : List WriteResult} {err : WriteError} (clear : OneLine entry)
    (failed : (write_all (lined_entry entry) outcomes).2 = .error err) :
    (write_all (lined_entry entry) outcomes).1.count newline = 0 := by
  obtain ⟨rest, more, split⟩ := write_all_error failed
  obtain ⟨front, last, rfl⟩ := List.eq_nil_or_concat rest |>.resolve_left more
  rw [lined_entry, List.concat_eq_append, ← List.append_assoc] at split
  obtain ⟨body, _⟩ := List.append_inj' split rfl
  rw [List.count_eq_zero]
  intro member
  apply clear
  rw [← body]
  exact List.mem_append_left _ member

/-- What each event does. -/
inductive Step (state : State) : Event → State → Prop
  | write_log (entry : String) : Step state (.write_log entry) { state with tasks := state.tasks ++ [{ entry }] }
  | lock {task : Nat} {entry : String} (at_task : state.tasks[task]? = some ⟨entry, none⟩) (free : state.guard = none) :
      Step state (.try_lock task) { state with guard := some task }
  | contended (task : Nat) : Step state (.try_lock task) state
  | write_all {task : Nat} {found : AsyncWriteFuture} (outcomes : List WriteResult) (held : state.guard = some task)
      (at_task : state.tasks[task]? = some found) :
      Step state (.write_all task outcomes)
        { file := state.file ++ (Library.write_all (lined_entry found.entry) outcomes).1
          guard := none
          tasks := state.tasks.set task { found with result := some (.ok true) } }

theorem step_cases {state next : State} {event : Event} (stepped : step state event = some next) :
    Step state event next := by
  cases event with
  | write_log entry =>
    cases stepped
    exact .write_log entry
  | try_lock task =>
    simp only [step] at stepped
    split at stepped
    · rename_i entry at_task
      split at stepped
      · cases stepped
        exact .lock at_task (by assumption)
      · split at stepped
        · cases stepped
        · cases stepped
          exact .contended task
    · cases stepped
  | write_all task outcomes =>
    simp only [step] at stepped
    split at stepped
    · rename_i held
      obtain ⟨found, at_task, rfl⟩ := Option.map_eq_some_iff.mp stepped
      exact .write_all outcomes held at_task
    · cases stepped

/-- What is known of a run. Once a `write_all` has failed, the file has fewer
lines than tasks have returned. -/
structure Traces (earlier : List String) (trace : List Event) (state : State) : Prop where
  pending : ∀ task, state.guard = some task → ∃ entry, state.tasks[task]? = some ⟨entry, none⟩
  clear : ∀ entry ∈ state.entries, OneLine entry
  known : ∀ task outcomes, .write_all task outcomes ∈ trace → task < state.entries.length
  lines : Succeeds trace state ∧ Logged earlier state ∨
    ¬ Succeeds trace state ∧
      state.file.count newline < (earlier.flatMap lined_entry).count newline + state.returned.length

namespace Traces
variable {earlier : List String} {trace : List Event} {state : State}

theorem returned_clear (clear : ∀ entry ∈ state.entries, OneLine entry) : ∀ entry ∈ state.returned, OneLine entry := by
  intro entry member
  obtain ⟨found, task, inside⟩ := List.mem_flatMap.mp member
  apply clear
  rw [State.entries, List.mem_map]
  refine ⟨found, task, ?_⟩
  unfold AsyncWriteFuture.returned at inside
  split at inside
  · exact (List.mem_singleton.mp inside).symm
  · cases inside

theorem logged_count (clear : ∀ entry ∈ state.entries, OneLine entry) (logged : Logged earlier state) :
    state.file.count newline = (earlier.flatMap lined_entry).count newline + state.returned.length := by
  obtain ⟨lines, same, file⟩ := logged
  have alone : ∀ entry ∈ lines, OneLine entry := fun entry member => returned_clear clear entry (same.mem_iff.mp member)
  rw [file, List.flatMap_append, List.count_append, count_lines alone, same.length_eq]

/-- A step that changes no entry, no result and not the file. -/
theorem quiet (traces : Traces earlier trace state) {next : State} {event : Event}
    (silent : ∀ task outcomes, event ≠ .write_all task outcomes) (file : next.file = state.file)
    (returned : next.returned = state.returned)
    (entries : ∃ more, next.entries = state.entries ++ more ∧ ∀ entry ∈ more, OneLine entry)
    (pending : ∀ task, next.guard = some task → ∃ entry, next.tasks[task]? = some ⟨entry, none⟩) :
    Traces earlier (trace ++ [event]) next := by
  obtain ⟨more, longer, clear⟩ := entries
  have known : ∀ task outcomes, .write_all task outcomes ∈ trace ++ [event] → .write_all task outcomes ∈ trace := by
    intro task outcomes member
    rcases List.mem_append.mp member with old | new
    · exact old
    · exact absurd (List.mem_singleton.mp new).symm (silent task outcomes)
  have same : Succeeds (trace ++ [event]) next ↔ Succeeds trace state := by
    constructor
    · intro succeeds task outcomes entry member at_task
      refine succeeds task outcomes entry (List.mem_append_left _ member) ?_
      rw [longer, List.getElem?_append_left (traces.known task outcomes member), at_task]
    · intro succeeds task outcomes entry member at_task
      have member := known task outcomes member
      rw [longer, List.getElem?_append_left (traces.known task outcomes member)] at at_task
      exact succeeds task outcomes entry member at_task
  refine ⟨pending, ?_, ?_, ?_⟩
  · intro entry member
    rw [longer] at member
    rcases List.mem_append.mp member with old | new
    · exact traces.clear entry old
    · exact clear entry new
  · intro task outcomes member
    have below := traces.known task outcomes (known task outcomes member)
    rw [longer, List.length_append]
    omega
  · rw [same, file, returned]
    simpa only [Logged, file, returned] using traces.lines

theorem writes (traces : Traces earlier trace state) {task : Nat} {found : AsyncWriteFuture} (outcomes : List WriteResult)
    (held : state.guard = some task) (at_task : state.tasks[task]? = some found) :
    Traces earlier (trace ++ [.write_all task outcomes])
      { file := state.file ++ (write_all (lined_entry found.entry) outcomes).1
        guard := none
        tasks := state.tasks.set task { found with result := some (.ok true) } } := by
  let next : State :=
    { file := state.file ++ (write_all (lined_entry found.entry) outcomes).1
      guard := none
      tasks := state.tasks.set task { found with result := some (.ok true) } }
  have entry : state.entries[task]? = some found.entry := by
    rw [State.entries, List.getElem?_map, at_task, Option.map_some]
  have entries : next.entries = state.entries := by
    obtain ⟨inside, same⟩ := List.getElem?_eq_some_iff.mp entry
    have set : next.entries = state.entries.set task found.entry := List.map_set
    rw [set, ← same, List.set_getElem_self]
  have returned : next.returned.Perm (state.returned ++ [found.entry]) := by
    obtain ⟨line, pending⟩ := traces.pending task held
    rw [at_task, Option.some.injEq] at pending
    subst pending
    have moved := perm_flatMap_set state.tasks AsyncWriteFuture.returned task ⟨line, some (.ok true)⟩ _ at_task
    simpa [State.returned, AsyncWriteFuture.returned, next] using moved
  have same : Succeeds (trace ++ [.write_all task outcomes]) next ↔
      Succeeds trace state ∧ (write_all (lined_entry found.entry) outcomes).2 = .ok () := by
    constructor
    · intro succeeds
      refine ⟨fun other results line member at_other => ?_, ?_⟩
      · exact succeeds other results line (List.mem_append_left _ member) (by rw [entries, at_other])
      · exact succeeds task outcomes found.entry (by simp) (by rw [entries, entry])
    · intro both other results line member at_other
      rw [entries] at at_other
      rcases List.mem_append.mp member with old | new
      · exact both.1 other results line old at_other
      · cases List.mem_singleton.mp new
        rw [entry, Option.some.injEq] at at_other
        rw [← at_other]
        exact both.2
  have clear : OneLine found.entry := traces.clear found.entry (List.mem_of_getElem? entry)
  refine ⟨fun _ taken => (by cases taken), ?_, ?_, ?_⟩
  · intro line member
    exact traces.clear line (entries ▸ member)
  · intro other results member
    rw [entries]
    rcases List.mem_append.mp member with old | new
    · exact traces.known other results old
    · cases List.mem_singleton.mp new
      exact (List.getElem?_eq_some_iff.mp entry).1
  · rw [same, returned.length_eq, List.length_append, List.length_singleton]
    cases ended : (write_all (lined_entry found.entry) outcomes).2 with
    | ok =>
      have whole := write_all_ok ended
      rcases traces.lines with ⟨succeeds, lines, same, file⟩ | ⟨failed, fewer⟩
      · refine .inl ⟨⟨succeeds, rfl⟩, lines ++ [found.entry], (same.append_right _).trans returned.symm, ?_⟩
        rw [whole, file]
        simp
      · refine .inr ⟨fun both => failed both.1, ?_⟩
        rw [whole, List.count_append, lined_entry, List.count_append, List.count_eq_zero.mpr clear,
          List.count_singleton_self]
        omega
    | error err =>
      refine .inr ⟨fun both => (by cases both.2), ?_⟩
      rw [List.count_append, failed_count clear ended]
      rcases traces.lines with ⟨_, logged⟩ | ⟨_, fewer⟩
      · have count := logged_count traces.clear logged
        omega
      · omega

end Traces

theorem reaches_traces {earlier : List String} {trace : List Event} {state : State}
    (reaches : (logger earlier).Reaches trace state) (clear : ∀ entry, .write_log entry ∈ trace → OneLine entry) :
    Traces earlier trace state := by
  refine reaches.trace_invariant
    (fun trace state => (∀ entry, .write_log entry ∈ trace → OneLine entry) → Traces earlier trace state) ?_ ?_ clear
  · intro _
    refine ⟨fun _ taken => (by cases taken), fun _ member => (by cases member), fun _ _ member => (by cases member), ?_⟩
    exact .inl ⟨fun _ _ _ member => (by cases member), [], .refl _, by simp [logger]⟩
  · intro trace state event next _ ih stepped clear
    have traces := ih fun entry member => clear entry (List.mem_append_left _ member)
    cases step_cases stepped with
    | write_log entry =>
      refine traces.quiet (fun _ _ other => (by cases other)) rfl ?_ ⟨[entry], by simp [State.entries], ?_⟩ ?_
      · simp [State.returned, AsyncWriteFuture.returned]
      · intro line member
        rw [List.mem_singleton.mp member]
        exact clear entry (by simp)
      · intro task held
        obtain ⟨line, at_task⟩ := traces.pending task held
        exact ⟨line, by rw [List.getElem?_append_left (List.getElem?_eq_some_iff.mp at_task).1, at_task]⟩
    | lock at_task free =>
      refine traces.quiet (fun _ _ other => (by cases other)) rfl rfl ⟨[], by simp [State.entries], by simp⟩ ?_
      intro task held
      cases held
      exact ⟨_, at_task⟩
    | contended task =>
      exact traces.quiet (fun _ _ other => (by cases other)) rfl rfl ⟨[], by simp, by simp⟩ traces.pending
    | write_all outcomes held at_task => exact traces.writes outcomes held at_task

/-- The log is right exactly in the runs in which no `write_all` has failed. -/
theorem logged_iff {earlier : List String} {trace : List Event} {state : State}
    (reaches : (logger earlier).Reaches trace state) (clear : ∀ entry, .write_log entry ∈ trace → OneLine entry) :
    Logged earlier state ↔ Succeeds trace state := by
  have traces := reaches_traces reaches clear
  rcases traces.lines with ⟨succeeds, logged⟩ | ⟨failed, fewer⟩
  · exact iff_of_true logged succeeds
  · refine iff_of_false (fun logged => ?_) failed
    have count := Traces.logged_count traces.clear logged
    omega

/-- Task 1 is polled while task 0 holds the lock, whose line takes two writes. -/
theorem logged_iff_contended :
    let trace : List Event := [.write_log "one", .write_log "two", .try_lock 0, .try_lock 1,
      .write_all 0 [.interrupted, .ok 1, .ok 3], .try_lock 1, .write_all 1 [.ok 4]]
    ∃ state, (logger ["zero"]).Reaches trace state ∧ (Logged ["zero"] state ↔ Succeeds trace state) := by
  intro trace
  refine ⟨_, rfl, logged_iff rfl ?_⟩
  intro entry member
  simp only [trace, List.mem_cons, Event.write_log.injEq, reduceCtorEq, List.not_mem_nil, or_false] at member
  unfold OneLine
  rcases member with rfl | rfl
  · decide
  · decide

/-- The first write takes one byte of the line, and the next one fails. -/
theorem entry_torn :
    ¬ ∀ earlier trace state, (logger earlier).Reaches trace state →
      (∀ entry, .write_log entry ∈ trace → OneLine entry) → Logged earlier state := by
  intro always
  let trace : List Event := [.write_log "one", .try_lock 0, .write_all 0 [.ok 1, .failed]]
  obtain ⟨lines, same, file⟩ := always [] trace _ rfl (by
    intro entry member
    simp only [trace, List.mem_cons, Event.write_log.injEq, reduceCtorEq, List.not_mem_nil, or_false] at member
    subst member
    unfold OneLine
    decide)
  have only : lines = ["one"] := List.perm_singleton.mp same
  subst only
  revert file
  decide

end RustAsyncAwait.Logging
