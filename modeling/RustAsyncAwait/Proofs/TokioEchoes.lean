import RustAsyncAwait.TokioEchoServer

/-! What the tokio server has echoed when its task waits for a line. The end of
a line stays in the buffer unless it leaves by raw writes past the buffer. -/

namespace RustAsyncAwait.TokioEchoServer
open Library

/-- How many bytes of the last line its raw writes have left, and whether none
of them, nor the line itself, left a rest that goes into the buffer. -/
def observe (seen : Nat × Bool) : Event → Nat × Bool
  | .line line => (line.length, capacity ≤ line.length)
  | .write count => (seen.1 - count, seen.2 && (seen.1 - count = 0 || capacity ≤ seen.1 - count))
  | .closed | .error | .flush _ | .fail => seen

def observed (trace : List Event) : Nat × Bool := trace.foldl observe (0, true)

/-- There has been no line, or the last one has at least 8192 bytes and its raw
writes never left a non-empty rest below 8192. -/
def Direct (trace : List Event) : Prop := (observed trace).2 = true

theorem observed_snoc (trace : List Event) (event : Event) : observed (trace ++ [event]) = observe (observed trace) event := by
  simp [observed]

def Place.rest : Place → List UInt8
  | .flush_buf rest | .write rest => rest
  | .read_line | .returned | .panicked => []

/-- What each place says about the buffer, and about the raw writes of the last line. -/
inductive Holds (buf : List UInt8) : Place → Nat × Bool → Prop
  | read_line {left : Nat} {direct : Bool} (empty : buf = [] ↔ direct = true) : Holds buf .read_line (left, direct)
  | returned {left : Nat} {direct : Bool} (empty : buf = [] ↔ direct = true) : Holds buf .returned (left, direct)
  | flush_buf {rest : List UInt8} {direct : Bool} (some : rest ≠ []) (large : direct = true ↔ capacity ≤ rest.length) :
      Holds buf (.flush_buf rest) (rest.length, direct)
  | write {rest : List UInt8} (empty : buf = []) : Holds buf (.write rest) (rest.length, true)

structure Kept (seen : Nat × Bool) (state : State) : Prop where
  bytes : state.socket ++ state.buf ++ state.place.rest = state.lines.flatten
  place : Holds state.buf state.place seen

section
variable {state : State} {rest : List UInt8} {direct : Bool}

theorem kept_put (bytes : state.socket ++ state.buf ++ rest = state.lines.flatten) (some : rest ≠ [])
    (large : direct = true ↔ capacity ≤ rest.length) (empty : capacity ≤ rest.length → state.buf = []) :
    Kept (rest.length, direct) (state.put rest) := by
  unfold State.put
  split
  · rename_i long
    rw [large.mpr long]
    exact ⟨bytes, .write (empty long)⟩
  · rename_i short
    refine ⟨by simpa [Place.rest] using bytes, .read_line ?_⟩
    simp [large, short, some]

theorem kept_write_all (bytes : state.socket ++ state.buf ++ rest = state.lines.flatten)
    (large : rest ≠ [] → (direct = true ↔ capacity ≤ rest.length))
    (done : rest = [] → state.buf = [] ∧ direct = true) : Kept (rest.length, direct) (state.write_all rest) := by
  unfold State.write_all
  by_cases none : rest = []
  · obtain ⟨empty, all⟩ := done none
    subst none
    simp only [if_true]
    exact ⟨bytes, .read_line (by simp [empty, all])⟩
  · simp only [none, if_false]
    split
    · exact ⟨bytes, .flush_buf none (large none)⟩
    · rename_i fits
      apply kept_put bytes none (large none)
      intro long
      apply Classical.byContradiction
      intro held
      have some : 0 < state.buf.length := List.length_pos_iff.mpr held
      exact fits ⟨by omega, held⟩

end

theorem step_running {state next : State} {event : Event} (stepped : state.step event = some next) :
    state.place ≠ .panicked := by
  intro panicked
  cases event <;> simp [State.step, panicked] at stepped

theorem Kept.step {seen : Nat × Bool} {state next : State} {event : Event} (kept : Kept seen state)
    (stepped : state.step event = some next) (running : next.place ≠ .panicked) : Kept (observe seen event) next := by
  obtain ⟨bytes, holds⟩ := kept
  cases event with
  | line line =>
    obtain ⟨⟨waits, some⟩, stepped⟩ := Option.ite_none_right_eq_some.mp stepped
    cases stepped
    rw [waits] at bytes
    apply kept_write_all
    · have longer := congrArg (· ++ line) bytes
      simpa [Place.rest] using longer
    · simp
    · intro none
      exact absurd none some
  | closed | error =>
    obtain ⟨waits, stepped⟩ := Option.ite_none_right_eq_some.mp stepped
    cases stepped
    rw [waits] at bytes holds
    cases holds with
    | read_line empty => exact ⟨bytes, .returned empty⟩
  | flush count =>
    simp only [State.step] at stepped
    split at stepped
    · rename_i rest flushes
      obtain ⟨_, stepped⟩ := Option.ite_none_right_eq_some.mp stepped
      cases stepped
      rw [flushes] at bytes holds
      cases holds with
      | flush_buf some large =>
        have same : state.socket ++ state.buf.take count ++ state.buf.drop count ++ rest = state.lines.flatten := by
          rw [List.append_assoc state.socket, List.take_append_drop]
          exact bytes
        split
        · rename_i empty
          exact kept_put same some large fun _ => empty
        · rw [show observe _ (.flush count) = _ from rfl]
          refine ⟨by simpa [flushes, Place.rest] using same, ?_⟩
          simp only [flushes]
          exact .flush_buf some large
    · cases stepped
  | write count =>
    simp only [State.step] at stepped
    split at stepped
    · rename_i rest writes
      obtain ⟨_, stepped⟩ := Option.ite_none_right_eq_some.mp stepped
      cases stepped
      rw [writes] at bytes holds
      cases holds with
      | write empty =>
        have count_left : (rest.drop count).length = rest.length - count := List.length_drop
        simp only [observe, ← count_left]
        apply kept_write_all
        · simpa [empty, Place.rest] using bytes
        · intro some
          have more : (rest.drop count).length ≠ 0 := fun none => some (List.length_eq_zero_iff.mp none)
          simp only [Bool.true_and, Bool.or_eq_true, decide_eq_true_eq, more, false_or]
        · intro none
          exact ⟨empty, by simp [none]⟩
    · cases stepped
  | fail =>
    simp only [State.step] at stepped
    split at stepped
    · cases stepped
      exact absurd rfl running
    · cases stepped
      exact absurd rfl running
    · cases stepped

theorem reaches_kept {trace : List Event} {state : State} (reaches : connection.Reaches trace state)
    (running : state.place ≠ .panicked) : Kept (observed trace) state := by
  revert running
  apply reaches.trace_invariant (fun trace state => state.place ≠ .panicked → Kept (observed trace) state)
  · intro _
    exact ⟨rfl, .read_line (by simp [connection])⟩
  · intro trace state event next _ kept stepped running
    rw [observed_snoc]
    exact (kept (step_running stepped)).step stepped running

/-- Where the task waits for a line, or has returned, the lines it has read are
on the socket exactly if no part of the last one went into the buffer. -/
theorem echoed_iff_direct {trace : List Event} {state : State} (reaches : connection.Reaches trace state)
    (waits : state.place = .read_line ∨ state.place = .returned) : state.socket = state.lines.flatten ↔ Direct trace := by
  have running : state.place ≠ .panicked := by
    rcases waits with place | place <;> simp [place]
  obtain ⟨bytes, holds⟩ := reaches_kept reaches running
  have empty : state.buf = [] ↔ Direct trace := by
    unfold Direct
    generalize observed trace = seen at holds ⊢
    rcases waits with place | place
    · rw [place] at holds
      cases holds with
      | read_line empty => exact empty
    · rw [place] at holds
      cases holds with
      | returned empty => exact empty
  have rest : state.place.rest = [] := by
    rcases waits with place | place <;> simp [place, Place.rest]
  rw [← empty, ← bytes, rest]
  simp

/-- Two lines wait in the buffer; the socket has nothing yet. -/
theorem echoed_iff_direct_waiting : ∃ state, connection.Reaches [.line [104, 105, 10], .line [10]] state ∧
    (state.socket = state.lines.flatten ↔ Direct [.line [104, 105, 10], .line [10]]) := by
  obtain ⟨state, reaches, waits⟩ : ∃ state, connection.Reaches [.line [104, 105, 10], .line [10]] state ∧
    state.place = .read_line := ⟨_, rfl, rfl⟩
  exact ⟨state, reaches, echoed_iff_direct reaches (.inl waits)⟩

/-- A client sends one line and closes its side: the line is never written. -/
theorem loses_line :
    ¬ ∀ trace state, connection.Reaches trace state → state.place = .read_line ∨ state.place = .returned →
      state.socket = state.lines.flatten := by
  intro echoed
  obtain ⟨state, reaches, waits, nothing, lines⟩ : ∃ state, connection.Reaches [.line [104, 105, 10], .closed] state ∧
    state.place = .returned ∧ state.socket = [] ∧ state.lines = [[104, 105, 10]] := ⟨_, rfl, rfl, rfl, rfl⟩
  have same := echoed _ state reaches (.inr waits)
  rw [nothing, lines] at same
  cases same

end RustAsyncAwait.TokioEchoServer
