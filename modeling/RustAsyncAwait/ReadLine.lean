import RustAsyncAwait.Library.Bytes
import RustAsyncAwait.Library.Nonblocking
import Mathlib.Data.List.TakeWhile

/-! The future by which a connection task of kohno_book_chap5/io_multiplexing.rs
reads a line, over a `BufReader` whose stream is in non-blocking mode. -/

namespace RustAsyncAwait.ReadLine
open Library

def newline : UInt8 := 10

/-- `buffered` has been read from the stream and not been consumed yet. Past
the last of its results the stream is closed. -/
structure BufReader where
  buffered : List UInt8
  results : List ReadResult
  deriving Repr, DecidableEq

inductive ReadError
  | wouldBlock
  | other
  deriving Repr, DecidableEq

/-- `BufRead::read_until`: the bytes it appends and consumes, also where it
ends in an error, and the reader it leaves. -/
def read_until (buffered : List UInt8) (results : List ReadResult) : List UInt8 × Except ReadError Unit × BufReader :=
  match buffered.dropWhile (· != newline) with
  | _ :: rest => (buffered.takeWhile (· != newline) ++ [newline], .ok (), ⟨rest, results⟩)
  | [] =>
    match results with
    | [] => (buffered, .ok (), ⟨[], []⟩)
    | .ok chunk :: results =>
      if chunk.length = 0 then
        (buffered, .ok (), ⟨[], results⟩)
      else
        let (bytes, outcome, reader) := read_until chunk results
        (buffered ++ bytes, outcome, reader)
    | .wouldBlock :: results => (buffered, .error .wouldBlock, ⟨[], results⟩)
    | .failed :: results => (buffered, .error .other, ⟨[], results⟩)

/-- `BufRead::read_line` into an empty string. The bytes of a line that is not
UTF-8 are consumed and not appended. -/
def BufReader.read_line (reader : BufReader) : Except ReadError String × BufReader :=
  match read_until reader.buffered reader.results with
  | (bytes, .ok (), reader) =>
    match from_utf8 bytes with
    | some line => (.ok line, reader)
    | none => (.error .other, reader)
  -- the string with what has been appended is dropped with the poll
  | (_, .error err, reader) => (.error err, reader)

/-- `ReadLine::poll`: the string is a new one in every poll. -/
def BufReader.poll (reader : BufReader) : PollResult (Option String) × BufReader :=
  match reader.read_line with
  | (.ok line, reader) => if (as_bytes line).length = 0 then (.ready none, reader) else (.ready (some line), reader)
  | (.error .wouldBlock, reader) => (.pending, reader)
  | (.error .other, reader) => (.ready none, reader)

/-- What is still to be consumed, and the results still to come. -/
def BufReader.size (reader : BufReader) : Nat :=
  reader.buffered.length + (received reader.results).length + reader.results.length

theorem found_newline {bytes rest : List UInt8} {byte : UInt8} (found : bytes.dropWhile (· != newline) = byte :: rest) :
    bytes = bytes.takeWhile (· != newline) ++ [newline] ++ rest ∧ newline ∉ bytes.takeWhile (· != newline) := by
  have whole := @List.takeWhile_append_dropWhile _ (· != newline) bytes
  have first := List.head?_dropWhile_not (· != newline) bytes
  rw [found] at whole first
  have same : byte = newline := by simpa using first
  rw [same] at whole
  refine ⟨by simpa using whole.symm, fun member => ?_⟩
  simpa using List.mem_takeWhile_imp member

theorem no_newline {bytes : List UInt8} (absent : bytes.dropWhile (· != newline) = []) : newline ∉ bytes := by
  intro member
  simpa using List.dropWhile_eq_nil_iff.mp absent newline member

/-- What a `read_until` has read: the results `chunks`, up to the newline, the
end of the stream or the error that ended it. -/
theorem read_until_reads (buffered : List UInt8) (results : List ReadResult) :
    ∃ chunks, (read_until buffered results).1 ++ (read_until buffered results).2.2.buffered = buffered ++ received chunks ∧
      .wouldBlock ∉ chunks ∧
      match read_until buffered results with
      | (bytes, .ok (), reader) => results = chunks ++ reader.results ∧
          ((∃ body, bytes = body ++ [newline] ∧ newline ∉ body) ∨
            newline ∉ bytes ∧ reader.buffered = [] ∧ (reader.results = [] ∨ .ok [] ∈ chunks))
      | (bytes, .error .wouldBlock, reader) =>
          results = chunks ++ .wouldBlock :: reader.results ∧ newline ∉ bytes ∧ reader.buffered = []
      | (_, .error .other, reader) => results = chunks ++ .failed :: reader.results := by
  fun_induction read_until buffered results with
  | case1 buffered results byte rest found =>
    obtain ⟨split, clear⟩ := found_newline found
    exact ⟨[], by simpa using split.symm, by simp, rfl, .inl ⟨_, rfl, clear⟩⟩
  | case2 buffered absent => exact ⟨[], by simp, by simp, rfl, .inr ⟨no_newline absent, rfl, .inl rfl⟩⟩
  | case3 buffered absent chunk results closed =>
    have none := List.length_eq_zero_iff.mp closed
    subst none
    exact ⟨[.ok []], by simp [ReadResult.bytes], by simp, rfl, .inr ⟨no_newline absent, rfl, .inr (by simp)⟩⟩
  | case4 buffered absent chunk results filled bytes outcome reader ended ih =>
    obtain ⟨chunks, read, unblocked, ends⟩ := ih
    rw [ended] at read ends
    refine ⟨.ok chunk :: chunks, ?_, by simpa using unblocked, ?_⟩
    · show buffered ++ bytes ++ reader.buffered = buffered ++ (chunk ++ received chunks)
      rw [List.append_assoc, read]
    · match outcome, ends with
      | .ok (), ⟨rest, last⟩ =>
        refine ⟨by rw [rest]; rfl, ?_⟩
        rcases last with ⟨body, line, clear⟩ | ⟨clear, taken, closed⟩
        · refine .inl ⟨buffered ++ body, by rw [line, List.append_assoc], ?_⟩
          simp [no_newline absent, clear]
        · exact .inr ⟨by simp [no_newline absent, clear], taken, closed.imp_right (List.mem_cons_of_mem _)⟩
      | .error .wouldBlock, ⟨rest, clear, taken⟩ =>
        exact ⟨by rw [rest]; rfl, by simp [no_newline absent, clear], taken⟩
      | .error .other, rest => exact by rw [rest]; rfl
  | case5 buffered absent results => exact ⟨[], by simp, by simp, rfl, no_newline absent, rfl⟩
  | case6 buffered absent results => exact ⟨[], by simp, by simp, rfl⟩

/-- The result of a poll, by how its `read_until` has ended. -/
theorem poll_cases (reader : BufReader) :
    match read_until reader.buffered reader.results with
    | (bytes, .ok (), next) =>
        (∃ line, as_bytes line = bytes ∧ bytes ≠ [] ∧ reader.poll = (.ready (some line), next)) ∨
          (bytes = [] ∨ ∀ line, bytes ≠ as_bytes line) ∧ reader.poll = (.ready none, next)
    | (_, .error .wouldBlock, next) => reader.poll = (.pending, next)
    | (_, .error .other, next) => reader.poll = (.ready none, next) := by
  unfold BufReader.poll BufReader.read_line
  match ended : read_until reader.buffered reader.results with
  | (bytes, .ok (), next) =>
    cases decoded : from_utf8 bytes with
    | some line =>
      have same := from_utf8_eq_some.mp decoded
      subst same
      by_cases empty : as_bytes line = []
      · refine .inr ⟨.inl empty, ?_⟩
        simp only [decoded]
        simp [empty]
      · exact .inl ⟨line, rfl, empty, by simp [decoded, empty]⟩
    | none =>
      refine .inr ⟨.inr fun line same => ?_, by simp [decoded]⟩
      rw [from_utf8_eq_some.mpr same] at decoded
      cases decoded
  | (_, .error .wouldBlock, next) => rfl
  | (_, .error .other, next) => rfl

/-- What a poll takes out of the reader, unless it is the last one. -/
theorem poll_takes {reader next : BufReader} {result : PollResult (Option String)}
    (polled : reader.poll = (result, next)) (more : result ≠ .ready none) :
    ∃ bytes : List UInt8, bytes.length + next.buffered.length + (received next.results).length =
        reader.buffered.length + (received reader.results).length ∧
      (result = .pending ∧ next.results.length < reader.results.length ∨
        ∃ line, result = .ready (some line) ∧ as_bytes line = bytes ∧ bytes ≠ [] ∧
          next.results.length ≤ reader.results.length) := by
  obtain ⟨chunks, read, _, ends⟩ := read_until_reads reader.buffered reader.results
  have cases := poll_cases reader
  have total := congrArg List.length read
  match ended : read_until reader.buffered reader.results with
  | (bytes, .ok (), after) =>
    rw [ended] at cases ends total
    rw [polled] at cases
    rcases cases with ⟨line, same, filled, answer⟩ | ⟨_, answer⟩
    · cases answer
      refine ⟨bytes, ?_, .inr ⟨line, rfl, same, filled, by simp [ends.1]⟩⟩
      rw [ends.1, received_append]
      simp only [List.length_append] at total ⊢
      omega
    · cases answer
      exact absurd rfl more
  | (bytes, .error .wouldBlock, after) =>
    rw [ended] at cases ends total
    rw [polled] at cases
    cases cases
    rw [ends.1, received_append, received_cons]
    simp only [List.length_append, List.length_cons, ReadResult.bytes, List.length_nil] at total ⊢
    exact ⟨bytes, by omega, .inl ⟨trivial, by omega⟩⟩
  | (bytes, .error .other, after) =>
    rw [ended, polled] at cases
    cases cases
    exact absurd rfl more

theorem poll_size {reader next : BufReader} {result : PollResult (Option String)}
    (polled : reader.poll = (result, next)) (more : result ≠ .ready none) : next.size < reader.size := by
  obtain ⟨bytes, total, how⟩ := poll_takes polled more
  unfold BufReader.size
  rcases how with ⟨_, fewer⟩ | ⟨line, _, _, filled, fewer⟩
  · omega
  · have some := List.length_pos_iff.mpr filled
    omega

/-- The strings that successive `reader.read_line().await` give, up to the
first `None`. A pending one is polled again. -/
def BufReader.read_lines (reader : BufReader) : List String :=
  match _polled : reader.poll with
  | (.pending, next) => next.read_lines
  | (.ready none, _) => []
  | (.ready (some line), next) => line :: next.read_lines
termination_by reader.size
decreasing_by
  · exact poll_size _polled (by simp)
  · exact poll_size _polled (by simp)

end RustAsyncAwait.ReadLine
