import RustAsyncAwait.LogFile

/-! A file that only grows. A write extends the file if it is made at its end,
which a handle from `File::create` knows nothing of. -/

namespace RustAsyncAwait.LogFile
open Library

/-- The bytes that a step puts into the file. -/
def Event.written : Event → List UInt8
  | .write_all _ bytes outcomes => (Library.write_all bytes outcomes).1
  | _ => []

def written (trace : List Event) : List UInt8 := trace.flatMap Event.written

/-- `File::create` finds no bytes to truncate, and a handle from it that writes
something has the end of the file for its offset. -/
def State.at_end (state : State) : Event → Prop
  | .create => state.content = []
  | .write_all index bytes outcomes =>
    ∀ position, state.handles[index]? = some (.create position) → (write_all bytes outcomes).1 ≠ [] →
      position = state.content.length
  | _ => True

theorem write_at_eq_append (content : List UInt8) (position : Nat) (bytes : List UInt8) :
    write_at content position bytes = content ++ bytes ↔ (bytes ≠ [] → position = content.length) := by
  by_cases none : bytes = []
  · simp [write_at, none]
  · rw [write_at, if_neg none]
    constructor
    · intro same _
      have lengths := congrArg List.length same
      have positive := List.length_pos_iff.mpr none
      simp only [List.length_append, List.length_take, List.length_replicate, List.length_drop] at lengths
      omega
    · intro at_end
      rw [at_end none]
      simp

/-- A step appends what it writes if and only if it meets the condition. -/
theorem step_appends {state next : State} {event : Event} (stepped : state.step event = some next) :
    next.content = state.content ++ event.written ↔ state.at_end event := by
  cases event with
  | open_append =>
    obtain ⟨content, exists_, rfl⟩ := Option.map_eq_some_iff.mp stepped
    simp [Event.written, State.at_end, State.content]
  | open_failed =>
    cases stepped
    simp [Event.written, State.at_end, State.content]
  | create =>
    obtain ⟨_, stepped⟩ := Option.ite_none_right_eq_some.mp stepped
    cases stepped
    simp only [Event.written, List.append_nil, State.at_end]
    exact eq_comm
  | write_all index bytes outcomes =>
    obtain ⟨handle, at_index, rfl⟩ := Option.map_eq_some_iff.mp stepped
    cases handle with
    | append => simp [State.write, Event.written, State.at_end, State.content, at_index]
    | create position =>
      simp only [State.at_end, at_index, Option.some.injEq, Handle.create.injEq, forall_eq']
      exact write_at_eq_append state.content position (Library.write_all bytes outcomes).1

/-- Every step of a run meets the condition. -/
def AtEnd (file : Option (List UInt8)) (trace : List Event) : Prop :=
  ∀ before event after state, trace = before ++ event :: after → (log_file file).Reaches before state → state.at_end event

/-- At every moment of a run the file is what it was at first with all written bytes behind it, in their order. -/
def Appends (file : Option (List UInt8)) (trace : List Event) : Prop :=
  ∀ before after state, trace = before ++ after → (log_file file).Reaches before state →
    state.content = file.getD [] ++ written before

theorem written_snoc (trace : List Event) (event : Event) : written (trace ++ [event]) = written trace ++ event.written := by
  simp [written]

/-- Nothing is overwritten or truncated if and only if every step meets the condition. -/
theorem appends_iff {file : Option (List UInt8)} {trace : List Event} {state : State}
    (reaches : (log_file file).Reaches trace state) : Appends file trace ↔ AtEnd file trace := by
  constructor
  · intro appends before event after earlier split at_before
    obtain ⟨next, stepped, at_next⟩ := Machine.Reaches.step_at (split ▸ reaches) at_before
    have grown := appends (before ++ [event]) after next (by simp [split]) at_next
    have here := appends before (event :: after) earlier split at_before
    rw [written_snoc, ← List.append_assoc, ← here] at grown
    exact (step_appends stepped).mp grown
  · intro at_end before
    induction before using List.reverseRecOn with
    | nil =>
      intro after earlier _ at_before
      cases at_before
      exact (List.append_nil _).symm
    | append_singleton before event ih =>
      intro after next split at_next
      obtain ⟨earlier, at_before, stepped⟩ := Machine.reaches_snoc.mp at_next
      have cons : trace = before ++ event :: after := by simp [split]
      have met := at_end before event after earlier cons at_before
      rw [(step_appends stepped).mpr met, ih _ earlier cons at_before, written_snoc, List.append_assoc]

/-- A handle from `File::create` that writes alone, and then one that appends. -/
theorem appends_iff_one :
    let trace : List Event := [.open_failed, .create, .write_all 0 [97, 10] [.ok 2], .open_append, .write_all 1 [98, 10] [.ok 2]]
    ∃ state, (log_file none).Reaches trace state ∧ (Appends none trace ↔ AtEnd none trace) := by
  intro trace
  exact ⟨_, rfl, appends_iff rfl⟩

/-- The handle that was created writes after the one that appends. -/
theorem not_appends :
    ¬ ∀ (file : Option (List UInt8)) (trace : List Event) (state : State), (log_file file).Reaches trace state →
      Appends file trace := by
  intro always
  have appends := always none [.open_failed, .create, .open_append, .write_all 1 [98, 10] [.ok 2], .write_all 0 [97, 10] [.ok 2]]
    _ rfl _ [] _ (List.append_nil _).symm rfl
  exact absurd appends (by decide)

end RustAsyncAwait.LogFile
