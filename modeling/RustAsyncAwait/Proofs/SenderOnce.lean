import RustAsyncAwait.Sender

/-! What a `TcpSender` puts on the stream. Each poll writes the buffer from its
first byte, so it is sent exactly once only if no earlier poll has written any. -/

namespace RustAsyncAwait.Sender
open Library

/-- A poll that leaves without having written a byte. -/
def Attempt.idle : Attempt → Bool
  | .contended => true
  | .refused => false
  | .writes outcomes => blocked_at_once outcomes

theorem poll_pending {sender next : TcpSender} {attempt : Attempt} (polled : sender.poll attempt = (next, .pending)) :
    next.buffer = sender.buffer ∧
      ∃ written, next.stream = sender.stream ++ written ∧ (written = [] ↔ attempt.idle = true) := by
  cases attempt with
  | contended =>
    cases polled
    exact ⟨rfl, [], by simp, by simp [Attempt.idle]⟩
  | refused => cases polled
  | writes outcomes =>
    unfold TcpSender.poll at polled
    cases whole : write_all sender.buffer outcomes with
    | mk written result =>
      simp only [whole] at polled
      split at polled
      · cases polled
      · cases polled
        have blocked := write_all_blocked (show (write_all sender.buffer outcomes).2 = _ by rw [whole])
        rw [whole] at blocked
        exact ⟨rfl, written, rfl, blocked⟩
      · cases polled

theorem poll_ready {sender sent : TcpSender} {attempt : Attempt} (polled : sender.poll attempt = (sent, .ready (.ok ()))) :
    sent.stream = sender.stream ++ sender.buffer := by
  cases attempt with
  | contended => cases polled
  | refused => cases polled
  | writes outcomes =>
    unfold TcpSender.poll at polled
    cases whole : write_all sender.buffer outcomes with
    | mk written result =>
      simp only [whole] at polled
      split at polled
      · cases polled
        have done := write_all_ok (show (write_all sender.buffer outcomes).2 = _ by rw [whole])
        rw [whole] at done
        rw [show written = sender.buffer from done]
      · cases polled
      · cases polled

theorem polled_writes {sender waiting : TcpSender} {attempts : List Attempt} (polled : sender.polled attempts = some waiting) :
    waiting.buffer = sender.buffer ∧ ∃ written, waiting.stream = sender.stream ++ written ∧
      (written = [] ↔ ∀ attempt ∈ attempts, attempt.idle = true) := by
  induction attempts generalizing sender with
  | nil =>
    cases polled
    exact ⟨rfl, [], by simp, by simp⟩
  | cons attempt attempts ih =>
    unfold TcpSender.polled at polled
    split at polled
    · rename_i next stepped
      obtain ⟨kept, first, put, alone⟩ := poll_pending stepped
      obtain ⟨same, rest, more, others⟩ := ih polled
      refine ⟨same.trans kept, first ++ rest, by rw [more, put, List.append_assoc], ?_⟩
      rw [List.append_eq_nil_iff, List.forall_mem_cons, alone, others]
    · cases polled

/-- When the sender is ready, its polls together have put exactly the buffer on
the stream if and only if each of the earlier ones left without a byte written. -/
theorem sends_once {sender waiting sent : TcpSender} {attempts : List Attempt} {last : Attempt}
    (polled : sender.polled attempts = some waiting) (ready : waiting.poll last = (sent, .ready (.ok ()))) :
    sent.stream = sender.stream ++ sender.buffer ↔ ∀ attempt ∈ attempts, attempt.idle = true := by
  obtain ⟨kept, written, put, idle⟩ := polled_writes polled
  rw [poll_ready ready, put, kept, List.append_assoc, List.append_cancel_left_eq, List.append_left_eq_self, idle]

/-- A contended poll, one without room, then one that takes the buffer in two writes. -/
theorem sends_once_contended :
    (⟨[1, 2], [1, 2]⟩ : TcpSender).stream = ([] : List UInt8) ++ [1, 2] ↔
      ∀ attempt ∈ [Attempt.contended, .writes [.interrupted, .wouldBlock]], attempt.idle = true :=
  sends_once (show (⟨[], [1, 2]⟩ : TcpSender).polled _ = some ⟨[], [1, 2]⟩ by decide)
    (show TcpSender.poll ⟨[], [1, 2]⟩ (.writes [.ok 1, .ok 1]) = _ by decide)

/-- The first poll writes one byte and finds the stream full; the next one
sends that byte again. -/
theorem sends_twice :
    ¬ ∀ (sender waiting sent : TcpSender) (attempts : List Attempt) (last : Attempt),
      sender.polled attempts = some waiting → waiting.poll last = (sent, .ready (.ok ())) →
        sent.stream = sender.stream ++ sender.buffer := by
  intro once
  have same := once ⟨[], [1, 2]⟩ ⟨[1], [1, 2]⟩ ⟨[1, 1, 2], [1, 2]⟩ [.writes [.ok 1, .wouldBlock]] (.writes [.ok 2])
    (by decide) (by decide)
  revert same
  decide

end RustAsyncAwait.Sender
