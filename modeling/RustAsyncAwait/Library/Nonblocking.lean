import Mathlib.Data.List.Basic

/-! Streams in non-blocking mode: the outcomes of their successive reads and
writes, and writing a whole buffer. -/

namespace RustAsyncAwait.Library

inductive PollResult (α : Type)
  | pending
  | ready (value : α)
  deriving Repr, DecidableEq

/-- `ok []` says that the other end has been closed. -/
inductive ReadResult
  | ok (bytes : List UInt8)
  | wouldBlock
  | failed
  deriving Repr, DecidableEq

def ReadResult.bytes : ReadResult → List UInt8
  | .ok bytes => bytes
  | .wouldBlock | .failed => []

/-- The bytes that a sequence of reads brings in. -/
def received (results : List ReadResult) : List UInt8 := results.flatMap ReadResult.bytes

@[simp] theorem received_nil : received [] = [] := rfl

@[simp] theorem received_cons (result : ReadResult) (results : List ReadResult) :
    received (result :: results) = result.bytes ++ received results := rfl

theorem received_append (first second : List ReadResult) :
    received (first ++ second) = received first ++ received second := by simp [received]

/-- The network brings some bytes, in non-empty chunks of at most `limit` bytes
with any number of `WouldBlock` results anywhere among them. -/
structure Delivers (limit : Nat) (bytes : List UInt8) (results : List ReadResult) : Prop where
  chunks : ∀ result ∈ results, result = .wouldBlock ∨ ∃ chunk, result = .ok chunk ∧ 0 < chunk.length ∧ chunk.length ≤ limit
  whole : received results = bytes

theorem Delivers.rest {limit : Nat} {bytes : List UInt8} {results : List ReadResult} (chunks : List ReadResult)
    (delivers : Delivers limit bytes (chunks ++ results)) : Delivers limit (received results) results :=
  ⟨fun result member => delivers.chunks result (List.mem_append_right _ member), rfl⟩

/-- At every `WouldBlock`, `gap` holds between what has come and what is still to come. -/
def Gaps (gap : List UInt8 → List UInt8 → Prop) (results : List ReadResult) : Prop :=
  ∀ before after, results = before ++ .wouldBlock :: after → gap (received before) (received after)

section Gaps
variable {gap : List UInt8 → List UInt8 → Prop} {results : List ReadResult}

theorem gaps_nil : Gaps gap [] := by
  intro before after split
  simp at split

theorem gaps_wouldBlock : Gaps gap (.wouldBlock :: results) ↔ gap [] (received results) ∧ Gaps gap results := by
  constructor
  · intro gaps
    exact ⟨gaps [] results rfl, fun before after split => gaps (.wouldBlock :: before) after (by rw [split]; rfl)⟩
  · intro gaps before after split
    cases before with
    | nil =>
      cases split
      exact gaps.1
    | cons result before =>
      obtain ⟨rfl, rest⟩ := List.cons.inj split
      exact gaps.2 before after rest

theorem gaps_cons {result : ReadResult} (read : result ≠ .wouldBlock) :
    Gaps gap (result :: results) ↔ Gaps (fun before after => gap (result.bytes ++ before) after) results := by
  constructor
  · intro gaps before after split
    exact gaps (result :: before) after (by rw [split]; rfl)
  · intro gaps before after split
    cases before with
    | nil =>
      obtain ⟨same, _⟩ := List.cons.inj split
      exact absurd same read
    | cons first before =>
      obtain ⟨rfl, rest⟩ := List.cons.inj split
      exact gaps before after rest

theorem gaps_append {chunks : List ReadResult} (read : .wouldBlock ∉ chunks) :
    Gaps gap (chunks ++ results) ↔ Gaps (fun before after => gap (received chunks ++ before) after) results := by
  induction chunks generalizing gap with
  | nil => rfl
  | cons result chunks ih =>
    simp only [List.mem_cons, not_or] at read
    rw [List.cons_append, gaps_cons (Ne.symm read.1), ih read.2]
    simp only [received_cons, List.append_assoc]

end Gaps

inductive WriteResult
  | ok (count : Nat)
  | wouldBlock
  | interrupted
  | failed
  deriving Repr, DecidableEq

inductive WriteError
  | wouldBlock
  | writeZero
  | failed
  deriving Repr, DecidableEq

/-- `Write::write_all`: the bytes it puts on the stream, and its result. After
the listed outcomes the stream takes nothing more. -/
def write_all : List UInt8 → List WriteResult → List UInt8 × Except WriteError Unit
  | [], _ => ([], .ok ())
  | _ :: _, [] => ([], .error .wouldBlock)
  | byte :: rest, .ok count :: outcomes =>
    if count = 0 then
      ([], .error .writeZero)
    else
      let (written, result) := write_all ((byte :: rest).drop count) outcomes
      ((byte :: rest).take count ++ written, result)
  | _ :: _, .wouldBlock :: _ => ([], .error .wouldBlock)
  | byte :: rest, .interrupted :: outcomes => write_all (byte :: rest) outcomes
  | _ :: _, .failed :: _ => ([], .error .failed)

/-- The stream has no room for a single byte. -/
def blocked_at_once : List WriteResult → Bool
  | [] | .wouldBlock :: _ => true
  | .interrupted :: outcomes => blocked_at_once outcomes
  | .ok _ :: _ | .failed :: _ => false

theorem write_all_ok {buffer : List UInt8} {outcomes : List WriteResult}
    (done : (write_all buffer outcomes).2 = .ok ()) : (write_all buffer outcomes).1 = buffer := by
  fun_induction write_all buffer outcomes with
  | case1 => rfl
  | case2 => cases done
  | case3 => cases done
  | case4 byte rest count outcomes taken written result whole ih =>
    have sent := ih (by rw [whole]; exact done)
    rw [whole] at sent
    show _ ++ written = _
    rw [show written = _ from sent, List.take_append_drop]
  | case5 => cases done
  | case6 byte rest outcomes ih => exact ih done
  | case7 => cases done

/-- An attempt that fails has put a proper prefix of the buffer on the stream. -/
theorem write_all_error {buffer : List UInt8} {outcomes : List WriteResult} {err : WriteError}
    (failed : (write_all buffer outcomes).2 = .error err) :
    ∃ rest ≠ [], (write_all buffer outcomes).1 ++ rest = buffer := by
  fun_induction write_all buffer outcomes with
  | case1 => cases failed
  | case2 byte rest => exact ⟨byte :: rest, by simp, rfl⟩
  | case3 byte rest => exact ⟨byte :: rest, by simp, rfl⟩
  | case4 byte rest count outcomes taken written result whole ih =>
    obtain ⟨left, more, split⟩ := ih (by rw [whole]; exact failed)
    rw [whole] at split
    refine ⟨left, more, ?_⟩
    rw [List.append_assoc, split, List.take_append_drop]
  | case5 byte rest => exact ⟨byte :: rest, by simp, rfl⟩
  | case6 byte rest outcomes ih => exact ih failed
  | case7 byte rest => exact ⟨byte :: rest, by simp, rfl⟩

/-- An attempt that ends in `WouldBlock` has put nothing on the stream exactly
when the stream had no room from the start. -/
theorem write_all_blocked {buffer : List UInt8} {outcomes : List WriteResult}
    (blocked : (write_all buffer outcomes).2 = .error .wouldBlock) :
    (write_all buffer outcomes).1 = [] ↔ blocked_at_once outcomes = true := by
  fun_induction write_all buffer outcomes with
  | case1 => cases blocked
  | case2 => simp [blocked_at_once]
  | case3 => cases blocked
  | case4 byte rest count outcomes taken written result whole ih =>
    simp [blocked_at_once, taken]
  | case5 => simp [blocked_at_once]
  | case6 byte rest outcomes ih => simpa [blocked_at_once] using ih blocked
  | case7 => cases blocked

end RustAsyncAwait.Library
