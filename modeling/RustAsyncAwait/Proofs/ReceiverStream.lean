import RustAsyncAwait.Receiver

/-! What a `TcpReceiver` returns: the bytes it has read, in order, whatever the
chunks they came in and however often its polls met a held mutex or no data. -/

namespace RustAsyncAwait.Receiver
open Library

variable {ε : Type}

/-- A poll that meets a held mutex, no data, or a chunk of the stream. -/
def Attempt.waits : Attempt ε → Bool
  | .contended | .read (.error .wouldBlock) => true
  | .read (.ok chunk) => !chunk.bytes.isEmpty
  | .refused _ | .read (.error (.other _)) => false

def Attempt.bytes : Attempt ε → List UInt8
  | .read (.ok chunk) => chunk.bytes
  | .contended | .refused _ | .read (.error _) => []

/-- The error of a `set_nonblocking` or a read that fails other than for want of data. -/
def Attempt.error : Attempt ε → Option (IoError ε)
  | .refused err => some err
  | .read (.error (.other err)) => some (.other err)
  | .contended | .read (.ok _) | .read (.error .wouldBlock) => none

/-- Only what was read is copied out of `local_buf`. -/
theorem Chunk.local_buf_take (chunk : Chunk) : chunk.local_buf.take chunk.bytes.length = chunk.bytes := by
  unfold local_buf
  exact List.take_left

/-- A poll that cannot finish appends what it has read, and calls the waker. -/
theorem poll_waits (receiver : TcpReceiver) {attempt : Attempt ε} (waits : attempt.waits = true) :
    receiver.poll attempt = ⟨⟨receiver.buffer ++ attempt.bytes⟩, 1, .pending⟩ := by
  cases attempt with
  | contended => simp [TcpReceiver.poll, Attempt.bytes]
  | refused err => cases waits
  | read result =>
    cases result with
    | ok chunk =>
      have some : chunk.bytes.length ≠ 0 := by simpa [Attempt.waits] using waits
      simp [TcpReceiver.poll, Attempt.bytes, some, chunk.local_buf_take]
    | error err =>
      cases err with
      | wouldBlock => simp [TcpReceiver.poll, Attempt.bytes]
      | other err => cases waits

theorem poll_error (receiver : TcpReceiver) {attempt : Attempt ε} {err : IoError ε} (failed : attempt.error = some err) :
    (receiver.poll attempt).result = .ready (.error err) := by
  cases attempt with
  | contended => cases failed
  | refused other => cases failed; rfl
  | read result =>
    cases result with
    | ok chunk => cases failed
    | error other => cases other <;> cases failed; rfl

/-- The polls before the last one. -/
theorem polls_append (receiver : TcpReceiver) {attempts : List (Attempt ε)} (rest : List (Attempt ε))
    (waiting : ∀ attempt ∈ attempts, attempt.waits = true) :
    ∃ earlier, receiver.polls (attempts ++ rest) =
        earlier ++ TcpReceiver.polls ⟨receiver.buffer ++ attempts.flatMap Attempt.bytes⟩ rest ∧
      earlier.length = attempts.length ∧ ∀ polled ∈ earlier, polled.result = .pending ∧ polled.wakes = 1 := by
  induction attempts generalizing receiver with
  | nil => exact ⟨[], by simp, rfl, by simp⟩
  | cons attempt attempts ih =>
    obtain ⟨first, waiting⟩ := List.forall_mem_cons.mp waiting
    have polled := poll_waits receiver first
    obtain ⟨earlier, polls, count, pending⟩ := ih ⟨receiver.buffer ++ attempt.bytes⟩ waiting
    refine ⟨receiver.poll attempt :: earlier, ?_, by simp [count], ?_⟩
    · simp only [List.cons_append, TcpReceiver.polls, polled, polls, List.flatMap_cons, List.append_assoc]
    · exact List.forall_mem_cons.mpr ⟨by simp [polled], pending⟩

/-- The polls of a receiver whose last attempt is the first to be `Ready`. -/
theorem polls_last (receiver : TcpReceiver) {attempts : List (Attempt ε)} {last : Attempt ε}
    {output : Except (IoError ε) (List UInt8)} (waiting : ∀ attempt ∈ attempts, attempt.waits = true)
    (ready : (TcpReceiver.poll ⟨receiver.buffer ++ attempts.flatMap Attempt.bytes⟩ last).result = .ready output) :
    ∃ earlier polled, receiver.polls (attempts ++ [last]) = earlier ++ [polled] ∧ earlier.length = attempts.length ∧
      (∀ polled ∈ earlier, polled.result = .pending ∧ polled.wakes = 1) ∧ polled.result = .ready output := by
  obtain ⟨earlier, polls, count, pending⟩ := polls_append receiver [last] waiting
  refine ⟨earlier, _, ?_, count, pending, ready⟩
  rw [polls]
  simp [TcpReceiver.polls, ready]

theorem output_last (receiver : TcpReceiver) {attempts : List (Attempt ε)} {last : Attempt ε}
    {output : Except (IoError ε) (List UInt8)} (waiting : ∀ attempt ∈ attempts, attempt.waits = true)
    (ready : (TcpReceiver.poll ⟨receiver.buffer ++ attempts.flatMap Attempt.bytes⟩ last).result = .ready output) :
    receiver.output (attempts ++ [last]) = some (.ready output) := by
  obtain ⟨earlier, polled, polls, _, _, ready⟩ := polls_last receiver waiting ready
  simp [TcpReceiver.output, polls, ready]

/-- A receiver is `Pending`, with a wake, until the stream ends, and then
returns its buffer and all that was read after it, however that was cut; at a
failure it returns the error. -/
theorem receives_stream (receiver : TcpReceiver) {attempts : List (Attempt ε)}
    (waiting : ∀ attempt ∈ attempts, attempt.waits = true) :
    (∃ earlier last, receiver.polls (attempts ++ [.read (.ok .eof)]) = earlier ++ [last] ∧
      earlier.length = attempts.length ∧ (∀ polled ∈ earlier, polled.result = .pending ∧ polled.wakes = 1) ∧
      last.result = .ready (.ok (receiver.buffer ++ attempts.flatMap Attempt.bytes))) ∧
    (∀ others : List (Attempt ε), (∀ attempt ∈ others, attempt.waits = true) →
      others.flatMap Attempt.bytes = attempts.flatMap Attempt.bytes →
      receiver.output (others ++ [.read (.ok .eof)]) = receiver.output (attempts ++ [.read (.ok .eof)])) ∧
    ∀ (last : Attempt ε) (err : IoError ε), last.error = some err →
      ∃ earlier polled, receiver.polls (attempts ++ [last]) = earlier ++ [polled] ∧ earlier.length = attempts.length ∧
        (∀ polled ∈ earlier, polled.result = .pending ∧ polled.wakes = 1) ∧ polled.result = .ready (.error err) := by
  refine ⟨polls_last receiver waiting rfl, ?_, ?_⟩
  · intro others also same
    have whole : receiver.output (others ++ [.read (.ok .eof)]) = _ := output_last receiver also rfl
    rw [same] at whole
    exact whole.trans (output_last receiver waiting rfl).symm
  · intro last err failed
    exact polls_last receiver waiting (poll_error _ failed)

/-- One byte was there before; two more come after a held mutex and a poll without data. -/
theorem receives_stream_contended :
    ∃ earlier last, (⟨[1]⟩ : TcpReceiver).polls (ε := String)
        ([.contended, .read (.ok ⟨[2, 3], by decide⟩), .read (.error .wouldBlock)] ++ [.read (.ok .eof)]) =
        earlier ++ [last] ∧ earlier.length = 3 ∧
      (∀ polled ∈ earlier, polled.result = .pending ∧ polled.wakes = 1) ∧ last.result = .ready (.ok [1, 2, 3]) :=
  (receives_stream ⟨[1]⟩ (by simp [Attempt.waits])).1

end RustAsyncAwait.Receiver
