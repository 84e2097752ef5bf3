import RustAsyncAwait.ReadLine
import Mathlib.Data.List.Induction

/-! What a connection task reads. A poll that ends in `WouldBlock` drops the
part of a line it has taken out of the `BufReader`. -/

namespace RustAsyncAwait.ReadLine
open Library

def IsLine (line : String) : Prop := ∃ body, as_bytes line = body ++ [newline] ∧ newline ∉ body

/-- Nothing has been read of the line that comes next. -/
def AtLineStart (bytes : List UInt8) : Prop := bytes = [] ∨ ∃ body, bytes = body ++ [newline]

/-- No `WouldBlock` inside a line. -/
def Unbroken (reader : BufReader) : Prop :=
  Gaps (fun before _ => AtLineStart (reader.buffered ++ before)) reader.results

private theorem atLineStart_append (body bytes : List UInt8) :
    AtLineStart (body ++ [newline] ++ bytes) ↔ AtLineStart bytes := by
  constructor
  · intro start
    rcases start with empty | ⟨whole, split⟩
    · simp at empty
    · cases bytes using List.reverseRecOn with
      | nil => exact .inl rfl
      | append_singleton bytes byte =>
        rw [← List.append_assoc] at split
        obtain ⟨_, rfl⟩ := List.append_singleton_inj.mp split
        exact .inr ⟨bytes, rfl⟩
  · intro start
    rcases start with rfl | ⟨more, rfl⟩
    · exact .inr ⟨body, by simp⟩
    · exact .inr ⟨body ++ [newline] ++ more, by simp⟩

private theorem atLineStart_clear {bytes : List UInt8} (clear : newline ∉ bytes) : AtLineStart bytes ↔ bytes = [] := by
  constructor
  · intro start
    rcases start with empty | ⟨body, rfl⟩
    · exact empty
    · simp at clear
  · exact .inl

/-- Two ways to cut at the first newline are one. -/
private theorem first_newline {one other rest more : List UInt8} (clear : newline ∉ one) (also : newline ∉ other)
    (same : one ++ newline :: rest = other ++ newline :: more) : one = other ∧ rest = more := by
  induction one generalizing other with
  | nil =>
    cases other with
    | nil => exact ⟨rfl, List.cons.inj same |>.2⟩
    | cons byte other =>
      obtain ⟨rfl, _⟩ := List.cons.inj same
      simp at also
  | cons byte one ih =>
    cases other with
    | nil =>
      obtain ⟨rfl, _⟩ := List.cons.inj same
      simp at clear
    | cons first other =>
      obtain ⟨rfl, tail⟩ := List.cons.inj same
      simp only [List.mem_cons, not_or] at clear also
      obtain ⟨rfl, rest⟩ := ih clear.2 also.2 tail
      exact ⟨rfl, rest⟩

/-- The bytes up to the first newline are the first line. -/
private theorem first_line {lines : List String} {body rest : List UInt8} (all : ∀ line ∈ lines, IsLine line)
    (clear : newline ∉ body) (stream : body ++ [newline] ++ rest = lines.flatMap as_bytes) :
    ∃ line later, lines = line :: later ∧ as_bytes line = body ++ [newline] ∧ rest = later.flatMap as_bytes := by
  cases lines with
  | nil => simp at stream
  | cons line later =>
    obtain ⟨content, shape, inside⟩ := all line (List.mem_cons_self ..)
    rw [List.flatMap_cons, shape] at stream
    obtain ⟨rfl, same⟩ := first_newline clear inside (by simpa using stream)
    exact ⟨line, later, rfl, shape, same⟩

private theorem no_line {lines : List String} (all : ∀ line ∈ lines, IsLine line)
    (clear : newline ∉ lines.flatMap as_bytes) : lines = [] := by
  cases lines with
  | nil => rfl
  | cons line later =>
    obtain ⟨body, shape, _⟩ := all line (List.mem_cons_self ..)
    simp [shape] at clear

/-- The reader has still to give these lines, and the first of them from its start. -/
structure Holds (limit : Nat) (reader : BufReader) (lines : List String) : Prop where
  delivers : Delivers limit (received reader.results) reader.results
  all : ∀ line ∈ lines, IsLine line
  stream : reader.buffered ++ received reader.results = lines.flatMap as_bytes

private theorem Holds.unclosed {limit : Nat} {reader : BufReader} {lines : List String} (holds : Holds limit reader lines)
    {result : ReadResult} (member : result ∈ reader.results) : result ≠ .failed ∧ result ≠ .ok [] := by
  rcases holds.delivers.chunks result member with rfl | ⟨chunk, rfl, filled, _⟩
  · simp
  · exact ⟨by simp, fun same => by cases same; simp at filled⟩

/-- What a poll does to the lines that are still to be given. -/
theorem Holds.poll {limit : Nat} {reader : BufReader} {lines : List String} (holds : Holds limit reader lines) :
    (∃ line later next, lines = line :: later ∧ reader.poll = (.ready (some line), next) ∧ Holds limit next later ∧
      (Unbroken reader ↔ Unbroken next)) ∨
    (∃ next, lines = [] ∧ reader.poll = (.ready none, next) ∧ Unbroken reader) ∨
    (∃ lost next, reader.poll = (.pending, next) ∧ lost ++ next.buffered ++ received next.results = lines.flatMap as_bytes ∧
      Delivers limit (received next.results) next.results ∧ (Unbroken reader ↔ lost = [] ∧ Unbroken next)) := by
  obtain ⟨chunks, read, unblocked, ends⟩ := read_until_reads reader.buffered reader.results
  have polled := poll_cases reader
  have delivers := holds.delivers
  have stream := holds.stream
  unfold Unbroken
  match ended : read_until reader.buffered reader.results with
  | (bytes, .ok (), next) =>
    rw [ended] at polled ends read
    obtain ⟨split, last⟩ := ends
    rw [split] at delivers stream
    rw [received_append, ← List.append_assoc, ← read, List.append_assoc] at stream
    rcases last with ⟨body, rfl, clear⟩ | ⟨clear, taken, closed⟩
    · obtain ⟨line, later, rfl, shape, rest⟩ := first_line holds.all clear stream
      refine .inl ⟨line, later, next, rfl, ?_, ⟨delivers.rest chunks, fun other member =>
        holds.all other (List.mem_cons_of_mem _ member), rest⟩, ?_⟩
      · rcases polled with ⟨other, same, _, answer⟩ | ⟨bad, _⟩
        · rw [answer, as_bytes_inj (same.trans shape.symm)]
        · rcases bad with empty | foreign
          · simp at empty
          · exact absurd shape.symm (foreign line)
      · rw [split, gaps_append unblocked]
        have same : ∀ before, reader.buffered ++ (received chunks ++ before) = body ++ [newline] ++ (next.buffered ++ before) := by
          intro before
          rw [← List.append_assoc, ← read, List.append_assoc]
        simp only [same, atLineStart_append]
    · have drained : next.results = [] := by
        rcases closed with none | closed
        · exact none
        · exact absurd rfl (holds.unclosed (by rw [split]; exact List.mem_append_left _ closed)).2
      rw [drained, taken] at stream
      simp only [received_nil, List.append_nil] at stream
      have none := no_line holds.all (stream ▸ clear)
      subst none
      refine .inr (.inl ⟨next, rfl, ?_, ?_⟩)
      · rcases polled with ⟨_, _, filled, _⟩ | ⟨_, answer⟩
        · exact absurd stream filled
        · exact answer
      · rw [split, drained, gaps_append unblocked]
        exact gaps_nil
  | (bytes, .error .wouldBlock, next) =>
    rw [ended] at polled ends read
    obtain ⟨split, clear, taken⟩ := ends
    rw [taken, List.append_nil] at read
    rw [split] at delivers stream
    refine .inr (.inr ⟨bytes, next, polled, ?_, ?_, ?_⟩)
    · rw [← stream, taken, received_append, ← List.append_assoc, ← read]
      simp [ReadResult.bytes]
    · rw [List.append_cons] at delivers
      exact delivers.rest _
    · rw [split, gaps_append unblocked, gaps_wouldBlock, List.append_nil, ← read, atLineStart_clear clear, taken]
      apply and_congr_right
      intro empty
      simp only [← List.append_assoc, ← read, empty]
  | (bytes, .error .other, next) =>
    rw [ended] at ends
    exact absurd rfl (holds.unclosed (show ReadResult.failed ∈ reader.results by rw [ends]; simp)).1

/-- The strings that are given are no longer than what is still to be read. -/
theorem read_lines_length (reader : BufReader) :
    (reader.read_lines.flatMap as_bytes).length ≤ reader.buffered.length + (received reader.results).length := by
  fun_induction BufReader.read_lines reader with
  | case1 reader next polled ih =>
    obtain ⟨bytes, total, _⟩ := poll_takes polled (by simp)
    omega
  | case2 => simp
  | case3 reader line next polled ih =>
    obtain ⟨bytes, total, how⟩ := poll_takes polled (by simp)
    rcases how with ⟨other, _⟩ | ⟨other, same, encoded, _⟩
    · cases other
    · cases same
      rw [List.flatMap_cons, List.length_append, encoded]
      omega

theorem Holds.read_lines {limit : Nat} {reader : BufReader} {lines : List String} (holds : Holds limit reader lines) :
    reader.read_lines = lines ↔ Unbroken reader := by
  fun_induction BufReader.read_lines reader generalizing lines with
  | case1 reader next polled ih =>
    rcases holds.poll with ⟨_, _, _, _, other, _⟩ | ⟨_, _, other, _⟩ | ⟨lost, after, same, stream, delivers, unbroken⟩
    · rw [polled] at other
      cases other
    · rw [polled] at other
      cases other
    · rw [polled] at same
      cases same
      rw [unbroken]
      by_cases nothing : lost = []
      · subst nothing
        simp only [true_and]
        exact ih ⟨delivers, holds.all, by simpa using stream⟩
      · simp only [nothing, false_and, iff_false]
        -- fewer bytes are left than the lines have
        intro given
        have short := read_lines_length next
        have long := congrArg List.length stream
        have some := List.length_pos_iff.mpr nothing
        rw [given, ← long] at short
        simp only [List.length_append] at short
        omega
  | case2 reader next polled =>
    rcases holds.poll with ⟨_, _, _, _, other, _⟩ | ⟨_, rfl, _, unbroken⟩ | ⟨_, _, other, _⟩
    · rw [polled] at other
      cases other
    · exact iff_of_true rfl unbroken
    · rw [polled] at other
      cases other
  | case3 reader line next polled ih =>
    rcases holds.poll with ⟨first, later, after, rfl, same, rest, unbroken⟩ | ⟨_, _, other, _⟩ | ⟨_, _, other, _⟩
    · rw [polled] at same
      cases same
      rw [unbroken, ← ih rest]
      simp
    · rw [polled] at other
      cases other
    · rw [polled] at other
      cases other

/-- A stream of lines that is then closed is read as these lines exactly when
no `WouldBlock` falls inside a line. -/
theorem read_lines_whole {limit : Nat} {lines : List String} {results : List ReadResult}
    (all : ∀ line ∈ lines, IsLine line) (delivers : Delivers limit (lines.flatMap as_bytes) results) :
    (BufReader.mk [] results).read_lines = lines ↔
      Gaps (fun before _ => before = [] ∨ ∃ body, before = body ++ [newline]) results := by
  have holds : Holds limit ⟨[], results⟩ lines :=
    ⟨⟨delivers.chunks, rfl⟩, all, by simpa using delivers.whole⟩
  exact holds.read_lines

/-- Two lines, cut inside each of them, with gaps at their ends. -/
theorem read_lines_whole_two :
    (BufReader.mk [] [.wouldBlock, .ok [97], .ok [10], .wouldBlock, .ok [98, 99], .ok [10]]).read_lines = ["a\n", "bc\n"] ↔
      Gaps (fun before _ => before = [] ∨ ∃ body, before = body ++ [newline])
        [.wouldBlock, .ok [97], .ok [10], .wouldBlock, .ok [98, 99], .ok [10]] :=
  @read_lines_whole 2 _ _ (by
    intro line member
    simp only [List.mem_cons, List.not_mem_nil, or_false] at member
    rcases member with rfl | rfl
    · exact ⟨[97], by decide, by decide⟩
    · exact ⟨[98, 99], by decide, by decide⟩) ⟨by
      intro result member
      simp only [List.mem_cons, List.not_mem_nil, or_false] at member
      rcases member with rfl | rfl | rfl | rfl | rfl | rfl <;> simp, by decide⟩

/-- The poll that meets `WouldBlock` behind "ab" loses these two bytes. -/
theorem line_cut :
    ¬ ∀ (limit : Nat) (lines : List String) (results : List ReadResult), (∀ line ∈ lines, IsLine line) →
      Delivers limit (lines.flatMap as_bytes) results → (BufReader.mk [] results).read_lines = lines := by
  intro whole
  have all : ∀ line ∈ ["abc\n"], IsLine line := by
    intro line member
    rw [List.mem_singleton.mp member]
    exact ⟨[97, 98, 99], by decide, by decide⟩
  have delivers : Delivers 2 (["abc\n"].flatMap as_bytes) [.ok [97, 98], .wouldBlock, .ok [99, 10]] := ⟨by
    intro result member
    simp only [List.mem_cons, List.not_mem_nil, or_false] at member
    rcases member with rfl | rfl | rfl <;> simp, by decide⟩
  have holds : Holds 2 ⟨[], [.ok [97, 98], .wouldBlock, .ok [99, 10]]⟩ ["abc\n"] := ⟨⟨delivers.chunks, rfl⟩, all, by decide⟩
  have unbroken := holds.read_lines.mp (whole 2 _ _ all delivers)
  rcases unbroken [.ok [97, 98]] [.ok [99, 10]] rfl with empty | ⟨body, split⟩
  · cases empty
  · have last := congrArg List.getLast? split
    simp [received, ReadResult.bytes, newline] at last

end RustAsyncAwait.ReadLine
