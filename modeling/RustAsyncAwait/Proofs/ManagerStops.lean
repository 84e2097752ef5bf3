import RustAsyncAwait.ManagerFiles
import RustAsyncAwait.Proofs.NumberFiles

/-! When the loop of the manager ends. What is still to be read loses a line in
every round, and gets a new one if the reader's file is also the writer's. -/

namespace RustAsyncAwait.ManagerFiles
open Library
open ReadLine (newline)
open CoroutineManager (CoroutineState ReadCoroutine WriteCoroutine.resume carriage_return uncarriaged resumed resume_newline resume_last
  read_until_newline read_until_last text_cases display_clear)

section reader
variable {reader : BufReader} {file : List UInt8}

theorem fill_buf_empty (empty : (reader.fill_buf file).buffered = []) : reader.unread file = [] := by
  unfold BufReader.fill_buf at empty
  split at empty
  · rename_i consumed
    have whole : (file.drop reader.offset).take capacity = [] := empty
    have none : file.drop reader.offset = [] := (List.take_eq_nil_iff.mp whole).resolve_left (by decide)
    rw [BufReader.unread, consumed, none]
    rfl
  · rename_i left
    exact absurd empty left

/-- Bytes before the end of a line belong to the line. -/
theorem read_until_append {front more : List UInt8} (clear : newline ∉ front) {bytes rest : List UInt8}
    (read : ReadLine.read_until more [] = (bytes, .ok (), ⟨rest, []⟩)) :
    ReadLine.read_until (front ++ more) [] = (front ++ bytes, .ok (), ⟨rest, []⟩) := by
  rcases text_cases more with last | ⟨body, after, split, plain⟩
  · cases (read_until_last last).symm.trans read
    exact read_until_last (by simp [clear, last])
  · subst split
    cases (read_until_newline plain).symm.trans read
    rw [← List.append_assoc, read_until_newline (by simp [clear, plain]), List.append_assoc]

/-- The buffer does not show: a line is read as if all of the file had been there. -/
theorem read_until_unread (reader : BufReader) (file : List UInt8) :
    ReadLine.read_until (reader.unread file) [] =
      ((read_until reader file).1, .ok (), ⟨(read_until reader file).2.unread file, []⟩) := by
  fun_induction read_until reader file with
  | case1 reader byte rest found =>
    obtain ⟨whole, clear⟩ := ReadLine.found_newline found
    have line : reader.unread file =
        (reader.fill_buf file).buffered.takeWhile (· != newline) ++ newline :: (rest ++ file.drop (reader.fill_buf file).offset) := by
      rw [← reader.fill_buf_unread file, BufReader.unread]
      conv_lhs => rw [whole]
      simp
    rw [line, read_until_newline clear]
    rfl
  | case2 reader absent filled bytes after read ih =>
    rw [read] at ih
    rw [← reader.fill_buf_unread file]
    exact read_until_append (ReadLine.no_newline absent) ih
  | case3 reader absent empty =>
    have nothing := fill_buf_empty (not_not.mp empty)
    rw [reader.fill_buf_unread file, nothing]
    exact read_until_last List.not_mem_nil

theorem read_until_inside (inside : reader.offset ≤ file.length) : (read_until reader file).2.offset ≤ file.length := by
  have filled (reader : BufReader) (inside : reader.offset ≤ file.length) : (reader.fill_buf file).offset ≤ file.length := by
    unfold BufReader.fill_buf
    split
    · simp only [List.length_take, List.length_drop]
      omega
    · exact inside
  fun_induction read_until reader file with
  | case1 reader byte rest found => exact filled reader inside
  | case2 reader absent some_ bytes after read ih =>
    rw [read] at ih
    exact ih (filled reader inside)
  | case3 reader absent empty => exact filled reader inside

/-- A `resume` is one of a `ReadCoroutine` that has all of the file. -/
theorem resume_unread (reader : BufReader) (file : List UInt8) :
    ReadCoroutine.resume ⟨reader.unread file⟩ = ((reader.resume file).1, ⟨(reader.resume file).2.unread file⟩) := by
  unfold ReadCoroutine.resume ReadCoroutine.next ReadLine.BufReader.read_line BufReader.resume BufReader.next
  simp only [read_until_unread]
  cases decoded : from_utf8 (read_until reader file).1 with
  | none => rfl
  | some line =>
    by_cases empty : (as_bytes line).length = 0
    · simp [empty]
    · simp only [empty, if_false]
      cases parse (CoroutineManager.trim (as_bytes line)) <;> rfl

theorem resume_inside (inside : reader.offset ≤ file.length) : (reader.resume file).2.offset ≤ file.length := by
  have same : (reader.resume file).2 = (read_until reader file).2 := by
    unfold BufReader.resume BufReader.next
    cases decoded : from_utf8 (read_until reader file).1 with
    | none => simp [decoded]
    | some line =>
      by_cases empty : (as_bytes line).length = 0
      · simp [decoded, empty]
      · simp only [decoded, empty, if_false]
        cases parse (CoroutineManager.trim (as_bytes line)) <;> rfl
  rw [same]
  exact read_until_inside inside

theorem unread_append (inside : reader.offset ≤ file.length) (more : List UInt8) :
    reader.unread (file ++ more) = reader.unread file ++ more := by
  rw [BufReader.unread, List.drop_append_of_le_length inside, ← List.append_assoc]
  rfl

end reader

namespace Manager
variable {manager next : Manager}

/-- The bytes that the reader has not taken yet. -/
def unread (manager : Manager) : List UInt8 := manager.reader.unread (manager.disk manager.read_file)

def Inside (manager : Manager) : Prop := manager.reader.offset ≤ (manager.disk manager.read_file).length

/-- What a round appends to the reader's own file. -/
def echoed (manager : Manager) (number : Int32) : List UInt8 :=
  if manager.read_file = manager.write_file then display number ++ [newline] else []

theorem run_round_resumed {line rest : List UInt8} (inside : manager.Inside)
    (taken : ReadCoroutine.resume ⟨manager.unread⟩ = resumed line rest) :
    match parse line with
    | some number => ∃ next, manager.run_round = some next ∧ next.Inside ∧ next.unread = rest ++ manager.echoed number ∧
        next.read_file = manager.read_file ∧ next.write_file = manager.write_file
    | none => manager.run_round = none := by
  have same := taken.symm.trans (resume_unread manager.reader (manager.disk manager.read_file))
  have kept := resume_inside inside
  generalize outcome : manager.reader.resume (manager.disk manager.read_file) = result at same kept
  obtain ⟨state, reader⟩ := result
  unfold resumed at same
  unfold run_round
  cases parsed : parse line with
  | none =>
    simp only [parsed, Prod.mk.injEq] at same
    obtain ⟨rfl, _⟩ := same
    simp only [outcome]
  | some number =>
    simp only [parsed, Prod.mk.injEq, ReadCoroutine.mk.injEq] at same
    obtain ⟨rfl, left⟩ := same
    simp only [outcome]
    refine ⟨_, rfl, ?_, ?_, rfl, rfl⟩
    · unfold Inside
      by_cases shared : manager.read_file = manager.write_file
      · simp only [shared, Function.update_self, WriteCoroutine.resume, List.length_append] at kept ⊢
        omega
      · simpa only [Function.update_of_ne shared] using kept
    · unfold unread echoed
      by_cases shared : manager.read_file = manager.write_file
      · rw [left, if_pos shared]
        simp only [shared, Function.update_self, WriteCoroutine.resume, List.append_assoc]
        exact unread_append (shared ▸ kept) _
      · rw [left, if_neg shared, List.append_nil]
        simp only [Function.update_of_ne shared]

end Manager

/-- The lines of a text that end at a newline. -/
def complete_lines (text : List UInt8) : List (List UInt8) := (text.splitOn newline).dropLast.map uncarriaged

/-- What a text has behind its last newline. -/
def last_piece (text : List UInt8) : List UInt8 := (text.splitOn newline).getLast?.getD []

section lines
variable {body : List UInt8}

theorem complete_lines_newline (clear : newline ∉ body) (rest : List UInt8) :
    complete_lines (body ++ newline :: rest) = uncarriaged body :: complete_lines rest := by
  have some_ := List.splitOn_ne_nil newline rest
  unfold complete_lines
  rw [List.splitOn_append_cons_self_of_not_mem clear rest, List.dropLast_cons_of_ne_nil some_]
  rfl

theorem last_piece_newline (clear : newline ∉ body) (rest : List UInt8) :
    last_piece (body ++ newline :: rest) = last_piece rest := by
  have some_ := List.splitOn_ne_nil newline rest
  unfold last_piece
  rw [List.splitOn_append_cons_self_of_not_mem clear rest, List.getLast?_cons_of_ne_nil some_]

theorem complete_lines_last (clear : newline ∉ body) : complete_lines body = [] := by
  rw [complete_lines, List.splitOn_eq_singleton clear]
  rfl

theorem last_piece_last (clear : newline ∉ body) : last_piece body = body := by
  rw [last_piece, List.splitOn_eq_singleton clear]
  rfl

/-- A line at the end of a text takes its last piece with it. -/
theorem append_line (text : List UInt8) (clear : newline ∉ body) :
    complete_lines (text ++ (body ++ [newline])) = complete_lines text ++ [uncarriaged (last_piece text ++ body)] ∧
      last_piece (text ++ (body ++ [newline])) = [] := by
  induction length : text.length using Nat.strongRecOn generalizing text with
  | ind size ih =>
    rcases text_cases text with last | ⟨first, rest, split, plain⟩
    · have joined : newline ∉ text ++ body := by simp [last, clear]
      have none : newline ∉ ([] : List UInt8) := List.not_mem_nil
      rw [← List.append_assoc, complete_lines_newline joined, last_piece_newline joined, complete_lines_last none,
        last_piece_last none, complete_lines_last last, last_piece_last last]
      exact ⟨rfl, rfl⟩
    · subst split
      obtain ⟨lines, piece⟩ := ih rest.length (by simp at length; omega) rest rfl
      rw [List.append_assoc, List.cons_append, complete_lines_newline plain, last_piece_newline plain,
        complete_lines_newline plain, last_piece_newline plain, lines, piece]
      exact ⟨rfl, rfl⟩

theorem display_line (number : Int32) : newline ∉ display number := display_clear (by decide) (by decide) number

/-- Digits are no carriage return. -/
theorem uncarriaged_display (piece : List UInt8) (number : Int32) :
    uncarriaged (piece ++ display number) = piece ++ display number := by
  have some_ : display number ≠ [] := by
    intro empty
    have parsed := parse_display number
    rw [empty] at parsed
    cases parsed
  unfold uncarriaged
  rw [if_neg]
  intro last
  rw [List.getLast?_append_of_ne_nil _ some_] at last
  exact display_clear (show carriage_return ≠ minus by decide) (by decide) number (List.mem_of_getLast? last)

end lines

namespace Manager
variable {manager : Manager}

/-- A round over a text with a first line. -/
theorem run_round_line {body rest : List UInt8} (inside : manager.Inside) (shared : manager.read_file = manager.write_file)
    (split : manager.unread = body ++ newline :: rest) (clear : newline ∉ body) {number : Int32}
    (parsed : parse (uncarriaged body) = some number) :
    ∃ next, manager.run_round = some next ∧ next.Inside ∧ next.read_file = next.write_file ∧
      complete_lines next.unread = complete_lines rest ++ [last_piece rest ++ display number] ∧ last_piece next.unread = [] := by
  have taken := run_round_resumed inside (split ▸ resume_newline clear)
  simp only [parsed] at taken
  obtain ⟨next, round, inside, unread, read, write⟩ := taken
  obtain ⟨lines, piece⟩ := append_line rest (display_line number)
  rw [echoed, if_pos shared] at unread
  rw [uncarriaged_display] at lines
  exact ⟨next, round, inside, by rw [read, write, shared], by rw [unread, lines], by rw [unread, piece]⟩

theorem stops_last {rest : List UInt8} (inside : manager.Inside) {line : List UInt8}
    (taken : ReadCoroutine.resume ⟨manager.unread⟩ = resumed line rest) (unparsed : parse line = none) :
    Stops run_round manager := by
  have ended := run_round_resumed inside taken
  simp only [unparsed] at ended
  exact .here ended

/-- A complete line that is no number comes nearer with every round. -/
theorem stops_of_line (inside : manager.Inside) (shared : manager.read_file = manager.write_file) {index : Nat}
    {line : List UInt8} (at_index : (complete_lines manager.unread)[index]? = some line) (unparsed : parse line = none) :
    Stops run_round manager := by
  induction index generalizing manager with
  | zero =>
    rcases text_cases manager.unread with last | ⟨body, rest, split, clear⟩
    · rw [complete_lines_last last] at at_index
      cases at_index
    · rw [split, complete_lines_newline clear] at at_index
      cases at_index
      exact stops_last inside (split ▸ resume_newline clear) unparsed
  | succ index ih =>
    rcases text_cases manager.unread with last | ⟨body, rest, split, clear⟩
    · rw [complete_lines_last last] at at_index
      cases at_index
    · rw [split, complete_lines_newline clear, List.getElem?_cons_succ] at at_index
      cases parsed : parse (uncarriaged body) with
      | none => exact stops_last inside (split ▸ resume_newline clear) parsed
      | some number =>
        obtain ⟨next, round, inside, shared, lines, _⟩ := run_round_line inside shared split clear parsed
        refine (stops_round_iff round).mpr (ih inside shared ?_)
        rw [lines, List.getElem?_append_left (List.getElem?_eq_some_iff.mp at_index).1]
        exact at_index

/-- All that is left are numbers, each on a line of its own. -/
structure Numbers (manager : Manager) : Prop where
  inside : manager.Inside
  shared : manager.read_file = manager.write_file
  parsed : ∀ line ∈ complete_lines manager.unread, parse line ≠ none
  ends : last_piece manager.unread = []
  left : complete_lines manager.unread ≠ []

/-- Every line read is replaced by a line written. -/
theorem Numbers.round (numbers : manager.Numbers) : ∃ next, manager.run_round = some next ∧ next.Numbers := by
  obtain ⟨inside, shared, parsed, ends, left⟩ := numbers
  rcases text_cases manager.unread with last | ⟨body, rest, split, clear⟩
  · exact absurd (complete_lines_last last) left
  · rw [split, complete_lines_newline clear] at parsed
    rw [split, last_piece_newline clear] at ends
    obtain ⟨first, others⟩ := List.forall_mem_cons.mp parsed
    obtain ⟨number, read⟩ := Option.ne_none_iff_exists'.mp first
    obtain ⟨next, round, inside, shared, lines, piece⟩ := run_round_line inside shared split clear read
    refine ⟨next, round, inside, shared, ?_, piece, by simp [lines]⟩
    intro line member
    rw [lines, ends, List.nil_append] at member
    rcases List.mem_append.mp member with older | new
    · exact others line older
    · rw [List.mem_singleton.mp new, parse_display]
      exact Option.some_ne_none _

theorem Numbers.not_stops (numbers : manager.Numbers) : ¬ Stops run_round manager :=
  Library.not_stops Numbers (fun _ numbers => numbers.round) numbers

/-- After a round over one file only complete lines are left. -/
theorem stops_iff_line (inside : manager.Inside) (shared : manager.read_file = manager.write_file)
    (ends : last_piece manager.unread = []) (left : complete_lines manager.unread ≠ []) :
    Stops run_round manager ↔ ∃ line ∈ complete_lines manager.unread, parse line = none := by
  constructor
  · intro stops
    by_cases bad : ∃ line ∈ complete_lines manager.unread, parse line = none
    · exact bad
    · have parsed : ∀ line ∈ complete_lines manager.unread, parse line ≠ none :=
        fun line member none => bad ⟨line, member, none⟩
      exact absurd stops (Numbers.not_stops ⟨inside, shared, parsed, ends, left⟩)
  · intro bad
    obtain ⟨line, member, unparsed⟩ := bad
    obtain ⟨index, at_index⟩ := List.getElem?_of_mem member
    exact stops_of_line inside shared at_index unparsed

/-- Of two files, the one that is read gets shorter. -/
theorem stops_apart (inside : manager.Inside) (apart : manager.read_file ≠ manager.write_file) : Stops run_round manager := by
  refine stops_of_rank (fun manager => manager.Inside ∧ manager.read_file ≠ manager.write_file)
    (fun manager => manager.unread.length) ?_ ⟨inside, apart⟩
  intro manager next held round
  obtain ⟨inside, apart⟩ := held
  have shorter {line rest : List UInt8} (taken : ReadCoroutine.resume ⟨manager.unread⟩ = resumed line rest)
      (less : parse line ≠ none → rest.length < manager.unread.length) :
      (next.Inside ∧ next.read_file ≠ next.write_file) ∧ next.unread.length < manager.unread.length := by
    have moved := run_round_resumed inside taken
    cases parsed : parse line with
    | none =>
      simp only [parsed] at moved
      rw [round] at moved
      cases moved
    | some number =>
      simp only [parsed] at moved
      obtain ⟨after, same, inside, unread, read, write⟩ := moved
      cases round.symm.trans same
      rw [echoed, if_neg apart, List.append_nil] at unread
      exact ⟨⟨inside, by rw [read, write]; exact apart⟩, by rw [unread]; exact less (by simp [parsed])⟩
  rcases text_cases manager.unread with last | ⟨body, rest, split, clear⟩
  · apply shorter (resume_last last)
    intro parsed
    refine List.length_pos_iff.mpr fun empty => parsed ?_
    rw [empty]
    rfl
  · apply shorter (split ▸ resume_newline clear)
    intro _
    rw [split, List.length_append, List.length_cons]
    omega

end Manager

/-- What the first round writes if it has read a complete line. -/
def first_written (text : List UInt8) : List UInt8 := (((complete_lines text).head?.bind parse).map display).getD []

/-- A line that is no number ends the loop: a complete one, or the last piece
with what is written first behind it. -/
def Ends (text : List UInt8) : Prop :=
  (∃ line ∈ complete_lines text, parse line = none) ∨ parse (last_piece text ++ first_written text) = none

/-- `run` stops if and only if the paths lead to two files, or the text of the one file ends the loop. -/
theorem run_stops_iff (disk : Nat → List UInt8) (read_file write_file : Nat) :
    Stops Manager.run_round { disk, read_file, write_file } ↔ read_file ≠ write_file ∨ Ends (disk read_file) := by
  have inside : Manager.Inside { disk, read_file, write_file } := Nat.zero_le _
  by_cases apart : read_file ≠ write_file
  · exact ⟨fun _ => .inl apart, fun _ => Manager.stops_apart inside apart⟩
  · have shared := not_not.mp apart
    rw [or_iff_right apart]
    unfold Ends first_written
    rcases text_cases (disk read_file) with last | ⟨body, rest, split, clear⟩
    · rw [complete_lines_last last, last_piece_last last]
      have moved := Manager.run_round_resumed inside
        (show ReadCoroutine.resume ⟨Manager.unread { disk, read_file, write_file }⟩ = resumed (disk read_file) [] from
          resume_last last)
      cases parsed : parse (disk read_file) with
      | none => simpa [parsed] using Manager.stops_last inside (resume_last last) parsed
      | some number =>
        simp only [parsed] at moved
        obtain ⟨next, round, inside, unread, read, write⟩ := moved
        rw [Manager.echoed, if_pos shared] at unread
        obtain ⟨lines, piece⟩ := append_line [] (display_line number)
        have still : Stops Manager.run_round next ↔ _ := Manager.stops_iff_line inside (by rw [read, write]; exact shared)
          (by rw [unread, piece]) (by rw [unread, lines]; simp)
        rw [stops_round_iff round, still, unread, lines, uncarriaged_display, complete_lines_last List.not_mem_nil,
          last_piece_last List.not_mem_nil]
        simp [parsed, parse_display]
    · rw [split, complete_lines_newline clear, last_piece_newline clear]
      cases parsed : parse (uncarriaged body) with
      | none =>
        have stops := Manager.stops_last inside (show ReadCoroutine.resume ⟨disk read_file⟩ = _ from split ▸ resume_newline clear) parsed
        simpa [parsed] using stops
      | some number =>
        obtain ⟨next, round, inside, shared, lines, piece⟩ := Manager.run_round_line inside shared split clear parsed
        rw [stops_round_iff round, Manager.stops_iff_line inside shared piece (by rw [lines]; simp), lines]
        simp [parsed, or_and_right, exists_or]

/-- A file that holds one number, under both names. -/
theorem not_run_stops :
    ¬ ∀ (disk : Nat → List UInt8) (read_file write_file : Nat), Stops Manager.run_round { disk, read_file, write_file } := by
  intro always
  have clear : newline ∉ ([53] : List UInt8) := by decide
  have lines : complete_lines ([53] ++ newline :: []) = [[53]] := by
    rw [complete_lines_newline clear, complete_lines_last List.not_mem_nil]
    rfl
  have piece : last_piece ([53] ++ newline :: []) = [] := by
    rw [last_piece_newline clear, last_piece_last List.not_mem_nil]
  have numbers : Manager.Numbers { disk := fun _ => [53] ++ newline :: [], read_file := 0, write_file := 0 } := by
    refine ⟨Nat.zero_le _, rfl, ?_, piece, ?_⟩
    · intro line member
      have inside : line ∈ complete_lines ([53] ++ newline :: []) := member
      rw [lines, List.mem_singleton] at inside
      rw [inside]
      decide
    · exact fun empty => List.cons_ne_nil _ _ (lines.symm.trans empty)
  exact numbers.not_stops (always _ 0 0)

end RustAsyncAwait.ManagerFiles
