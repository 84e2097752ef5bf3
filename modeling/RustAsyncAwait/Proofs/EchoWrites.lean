import RustAsyncAwait.EchoWriter

/-! Which lines the connection tasks write whole. A line below the buffer's
capacity is flushed by a loop that panics where the socket has no room; for a
longer one there is a single raw write, whose count is ignored. -/

namespace RustAsyncAwait.EchoWriter
open Library

/-- The socket has room for the line as it is going to be written: over as many
raw writes as that takes, or in the first one where the line goes past the buffer. -/
def Taken (buf : List UInt8) (outcomes : List WriteResult) : Prop :=
  buf.length ≤ if buf.length < capacity then room outcomes else first_room outcomes

instance (buf : List UInt8) (outcomes : List WriteResult) : Decidable (Taken buf outcomes) := by
  unfold Taken
  infer_instance

section handle_line
variable {writer next : BufWriter} {buf : List UInt8} {outcomes rest : List WriteResult}

theorem handle_line_small (empty : writer.buf = []) (small : buf.length < capacity) :
    handle_line writer buf outcomes = ({ writer with buf } : BufWriter).flush_buf outcomes := by
  simp only [handle_line, BufWriter.write_small outcomes empty small, BufWriter.flush]

theorem handle_line_large (empty : writer.buf = []) (large : capacity ≤ buf.length) :
    handle_line writer buf outcomes =
      match writer.raw_write buf outcomes with
      | (writer, .error err, outcomes) => (writer, .error err, outcomes)
      | (writer, .ok _, outcomes) => writer.flush_buf outcomes := by
  unfold handle_line
  rw [BufWriter.write_large outcomes empty large]
  rfl

/-- A line that does not make the task panic leaves the buffer empty, and is
written from its start, to its end exactly if the socket has room for it. -/
theorem handle_line_ok (empty : writer.buf = []) (handled : handle_line writer buf outcomes = (next, .ok (), rest)) :
    next.buf = [] ∧ ∃ count, count ≤ buf.length ∧ next.inner = writer.inner ++ buf.take count ∧
      (count = buf.length ↔ Taken buf outcomes) := by
  by_cases small : buf.length < capacity
  · rw [handle_line_small empty small] at handled
    have done : (({ writer with buf } : BufWriter).flush_buf outcomes).2.1 = .ok () := by rw [handled]
    have flushed := BufWriter.flush_buf_done done
    have bytes := BufWriter.flush_buf_bytes ({ writer with buf } : BufWriter) outcomes
    rw [flushed, List.append_nil, handled] at bytes
    rw [handled] at flushed
    refine ⟨flushed, buf.length, Nat.le_refl _, by rw [List.take_length]; exact bytes, ?_⟩
    simpa [Taken, small] using BufWriter.flush_buf_ok.mp done
  · rw [handle_line_large empty (Nat.not_lt.mp small)] at handled
    cases outcomes with
    | nil => cases handled
    | cons outcome outcomes =>
      cases outcome with
      | ok count =>
        simp only [BufWriter.raw_write] at handled
        cases handled.symm.trans (BufWriter.flush_buf_empty empty)
        refine ⟨empty, min count buf.length, Nat.min_le_right _ _, by simp, ?_⟩
        simp only [Taken, small, if_false, first_room]
        omega
      | wouldBlock | interrupted | failed => cases handled

theorem handle_line_error {err : StreamError} (empty : writer.buf = [])
    (failed : handle_line writer buf outcomes = (next, .error err, rest)) : ¬ Taken buf outcomes := by
  by_cases small : buf.length < capacity
  · rw [handle_line_small empty small] at failed
    intro taken
    have done : (({ writer with buf } : BufWriter).flush_buf outcomes).2.1 = .ok () := by
      apply BufWriter.flush_buf_ok.mpr
      simpa [Taken, small] using taken
    rw [failed] at done
    cases done
  · rw [handle_line_large empty (Nat.not_lt.mp small)] at failed
    have long : 0 < buf.length := Nat.lt_of_lt_of_le (by decide) (Nat.not_lt.mp small)
    cases outcomes with
    | nil => simp only [Taken, small, if_false, first_room]; omega
    | cons outcome outcomes =>
      cases outcome with
      | ok count =>
        simp only [BufWriter.raw_write] at failed
        cases failed.symm.trans (BufWriter.flush_buf_empty empty)
      | wouldBlock | interrupted | failed => simp only [Taken, small, if_false, first_room]; omega

end handle_line

inductive Step (state : State) : Event → State → Prop
  | line {id : Nat} {buf : List UInt8} {outcomes rest : List WriteResult} {writer : BufWriter}
      (handled : handle_line (state.connections id).writer buf outcomes = (writer, .ok (), rest)) :
      Step state (.line id buf outcomes)
        { state with
          connections := Function.update state.connections id
            { state.connections id with lines := (state.connections id).lines ++ [buf], writer } }
  | panic {id : Nat} {buf : List UInt8} {outcomes rest : List WriteResult} {writer : BufWriter} {err : StreamError}
      {connections : Nat → Connection}
      (failed : handle_line (state.connections id).writer buf outcomes = (writer, .error err, rest)) :
      Step state (.line id buf outcomes) ⟨connections, true⟩
  | close {id : Nat} {outcomes : List WriteResult} :
      Step state (.close id outcomes)
        { state with
          connections := Function.update state.connections id
            { state.connections id with writer := (state.connections id).writer.drop outcomes, closed := true } }

theorem step_cases {state next : State} {event : Event} (stepped : state.step event = some next) :
    state.panicked = false ∧ Step state event next := by
  cases event with
  | line id buf outcomes =>
    obtain ⟨⟨running, _, _⟩, stepped⟩ := Option.ite_none_right_eq_some.mp stepped
    refine ⟨running, ?_⟩
    split at stepped
    · rename_i handled
      cases stepped
      exact .line handled
    · rename_i failed
      cases stepped
      exact .panic failed
  | close id outcomes =>
    obtain ⟨⟨running, _⟩, stepped⟩ := Option.ite_none_right_eq_some.mp stepped
    cases stepped
    exact ⟨running, .close⟩

/-- The socket has had room for each line of the run. -/
def AllTaken (trace : List Event) : Prop := ∀ id buf outcomes, .line id buf outcomes ∈ trace → Taken buf outcomes

theorem allTaken_line {trace : List Event} {id : Nat} {buf : List UInt8} {outcomes : List WriteResult} :
    AllTaken (trace ++ [.line id buf outcomes]) ↔ AllTaken trace ∧ Taken buf outcomes := by
  simp only [AllTaken, List.mem_append, List.mem_singleton, Event.line.injEq]
  constructor
  · intro all
    exact ⟨fun other buf outcomes member => all other buf outcomes (.inl member), all id buf outcomes (.inr ⟨rfl, rfl, rfl⟩)⟩
  · intro all other line results member
    rcases member with earlier | same
    · exact all.1 other line results earlier
    · obtain ⟨rfl, rfl, rfl⟩ := same
      exact all.2

theorem allTaken_close {trace : List Event} {id : Nat} {outcomes : List WriteResult} :
    AllTaken (trace ++ [.close id outcomes]) ↔ AllTaken trace := by simp [AllTaken]

/-- What has been read on the connection is on its socket, or at least no more than that. -/
structure Connection.Kept (all : Prop) (connection : Connection) : Prop where
  empty : connection.writer.buf = []
  bound : connection.writer.inner.length ≤ connection.lines.flatten.length
  whole : all → connection.writer.inner = connection.lines.flatten

/-- Bytes that are missing on some socket stay missing. -/
structure Kept (trace : List Event) (state : State) : Prop where
  unwound : state.panicked = true → ¬ AllTaken trace
  running : state.panicked = false → ∀ id, (state.connections id).Kept (AllTaken trace)
  counted : state.panicked = false → ¬ AllTaken trace →
    ∃ id, (state.connections id).writer.inner.length < (state.connections id).lines.flatten.length

theorem Connection.Kept.line {all : Prop} {connection : Connection} {buf : List UInt8} {outcomes rest : List WriteResult}
    {writer : BufWriter} (kept : connection.Kept all)
    (handled : handle_line connection.writer buf outcomes = (writer, .ok (), rest)) :
    ({ connection with lines := connection.lines ++ [buf], writer } : Connection).Kept (all ∧ Taken buf outcomes) := by
  obtain ⟨empty, count, short, written, taken⟩ := handle_line_ok kept.empty handled
  have bound := kept.bound
  refine ⟨empty, ?_, ?_⟩
  · simp only [written, List.length_append, List.length_take, List.flatten_append, List.flatten_singleton]
    omega
  · intro all
    simp only [written, kept.whole all.1, taken.mpr all.2, List.take_length, List.flatten_append, List.flatten_singleton]

theorem Kept.step {trace : List Event} {state next : State} {event : Event} (kept : Kept trace state)
    (stepped : state.step event = some next) : Kept (trace ++ [event]) next := by
  obtain ⟨running, step⟩ := step_cases stepped
  cases step with
  | @line id buf outcomes rest writer handled =>
    have each := kept.running running
    refine ⟨fun panicked => by simp [running] at panicked, ?_, ?_⟩
    · intro _ other
      rw [allTaken_line]
      by_cases same : other = id
      · subst same
        simpa using (each other).line handled
      · simp only [Function.update_of_ne same]
        exact ⟨(each other).empty, (each other).bound, fun all => (each other).whole all.1⟩
    · intro _ missing
      rw [allTaken_line] at missing
      obtain ⟨_, count, short, written, taken⟩ := handle_line_ok (each id).empty handled
      by_cases all : AllTaken trace
      · refine ⟨id, ?_⟩
        have less : count ≠ buf.length := fun whole => missing ⟨all, taken.mp whole⟩
        simp only [Function.update_self, written, (each id).whole all, List.length_append, List.length_take,
          List.flatten_append, List.flatten_singleton]
        omega
      · obtain ⟨other, lacks⟩ := kept.counted running all
        refine ⟨other, ?_⟩
        by_cases same : other = id
        · subst same
          simp only [Function.update_self, written, List.length_append, List.length_take, List.flatten_append,
            List.flatten_singleton]
          omega
        · simpa only [Function.update_of_ne same] using lacks
  | panic failed =>
    refine ⟨fun _ => ?_, fun running => by simp at running, fun running => by simp at running⟩
    rw [allTaken_line]
    exact fun all => handle_line_error (kept.running running _).empty failed all.2
  | @close id outcomes =>
    have each := kept.running running
    have same : (state.connections id).writer.drop outcomes = (state.connections id).writer := by
      unfold BufWriter.drop
      rw [BufWriter.flush_buf_empty (each id).empty]
    have unchanged (other : Nat) :
        (Function.update state.connections id { state.connections id with closed := true } other).writer =
            (state.connections other).writer ∧
          (Function.update state.connections id { state.connections id with closed := true } other).lines =
            (state.connections other).lines := by
      by_cases own : other = id
      · subst own
        simp
      · simp [own]
    simp only [same]
    refine ⟨fun panicked => by simp [running] at panicked, ?_, ?_⟩
    · intro _ other
      obtain ⟨writer, lines⟩ := unchanged other
      rw [allTaken_close]
      refine ⟨by rw [writer]; exact (each other).empty, ?_, ?_⟩
      · rw [writer, lines]
        exact (each other).bound
      · rw [writer, lines]
        exact (each other).whole
    · intro _ missing
      rw [allTaken_close] at missing
      obtain ⟨other, lacks⟩ := kept.counted running missing
      obtain ⟨writer, lines⟩ := unchanged other
      refine ⟨other, ?_⟩
      rw [writer, lines]
      exact lacks

theorem reaches_kept {trace : List Event} {state : State} (reaches : server.Reaches trace state) : Kept trace state := by
  apply reaches.trace_invariant Kept
  · refine ⟨?_, fun _ _ => ⟨rfl, Nat.le_refl _, fun _ => rfl⟩, ?_⟩
    · intro panicked
      cases panicked
    · intro _ missing
      exact absurd (fun _ _ _ member => absurd member List.not_mem_nil) missing
  · intro trace state event next _ kept stepped
    exact kept.step stepped

/-- Every connection has been sent the lines read on it, and the executor's
thread is alive, exactly when the socket has had room for each of them. -/
theorem echoes_iff_taken {trace : List Event} {state : State} (reaches : server.Reaches trace state) :
    (state.panicked = false ∧ ∀ id, (state.connections id).writer.inner = (state.connections id).lines.flatten) ↔
      ∀ id buf outcomes, .line id buf outcomes ∈ trace → Taken buf outcomes := by
  have kept := reaches_kept reaches
  constructor
  · intro echoed
    obtain ⟨running, whole⟩ := echoed
    apply Classical.byContradiction
    intro missing
    obtain ⟨id, lacks⟩ := kept.counted running missing
    rw [whole id] at lacks
    exact Nat.lt_irrefl _ lacks
  · intro all
    have running : state.panicked = false := Bool.eq_false_iff.mpr fun panicked => kept.unwound panicked all
    exact ⟨running, fun id => (kept.running running id).whole all⟩

/-- Two connections, of which one has its line taken in two writes. -/
theorem echoes_iff_taken_twice : ∃ state,
    server.Reaches [.line 0 [104, 105, 10] [.ok 2, .ok 1], .line 1 [10] [.ok 1]] state ∧
      (state.panicked = false ∧ ∀ id, (state.connections id).writer.inner = (state.connections id).lines.flatten) := by
  obtain ⟨state, reaches⟩ : ∃ state,
    server.Reaches [.line 0 [104, 105, 10] [.ok 2, .ok 1], .line 1 [10] [.ok 1]] state := ⟨_, rfl⟩
  refine ⟨state, reaches, (echoes_iff_taken reaches).mpr ?_⟩
  intro id buf outcomes member
  simp only [List.mem_cons, Event.line.injEq, List.not_mem_nil, or_false] at member
  rcases member with ⟨_, rfl, rfl⟩ | ⟨_, rfl, rfl⟩
  · decide
  · decide

/-- A client that stops reading after the first byte of its line: the flush
fails, and the panic takes the executor with it. -/
theorem panics_full_socket :
    ¬ ∀ trace state, server.Reaches trace state →
      state.panicked = false ∧ ∀ id, (state.connections id).writer.inner = (state.connections id).lines.flatten := by
  intro echoes
  obtain ⟨state, reaches, panicked⟩ : ∃ state,
    server.Reaches [.line 0 [104, 105, 10] [.ok 1, .wouldBlock]] state ∧ state.panicked = true := ⟨_, rfl, rfl⟩
  have running := (echoes _ state reaches).1
  rw [panicked] at running
  cases running

end RustAsyncAwait.EchoWriter
