import RustAsyncAwait.CoroutineManager
import Mathlib.Data.List.ReduceOption

/-! Files of numbers. Reading one gives the numbers of its first lines, up to
the first that is none; of a file that has been written, these are all of them. -/

namespace RustAsyncAwait.CoroutineManager
open Library
open ReadLine (newline BufReader read_until)

/-- A line of CRLF text without its carriage return. -/
def uncarriaged (piece : List UInt8) : List UInt8 :=
  if piece.getLast? = some carriage_return then piece.dropLast else piece

/-- The lines of a text: what ends at a newline, and a last piece that does not. -/
def lines (text : List UInt8) : List (List UInt8) :=
  let pieces := text.splitOn newline
  pieces.dropLast.map uncarriaged ++ pieces.getLast?.toList.filter (· ≠ [])

/-- The values of the longest prefix of lines that parse as `i32`. -/
def numbers (text : List UInt8) : List Int32 := (((lines text).map parse).takeWhile Option.isSome).reduceOption

/-- The file that successive writes of these numbers make of an empty one. -/
def written (values : List Int32) : List UInt8 := values.flatMap fun value => display value ++ [newline]

section lines
variable {body rest : List UInt8}

theorem lines_newline (clear : newline ∉ body) : lines (body ++ newline :: rest) = uncarriaged body :: lines rest := by
  have split := List.splitOn_append_cons_self_of_not_mem clear rest
  have some := List.splitOn_ne_nil newline rest
  unfold lines
  simp only [split]
  rw [List.dropLast_cons_of_ne_nil some, List.getLast?_cons_of_ne_nil some]
  rfl

theorem lines_last (clear : newline ∉ body) : lines body = if body = [] then [] else [body] := by
  unfold lines
  rw [List.splitOn_eq_singleton clear]
  by_cases empty : body = [] <;> simp [empty]

end lines

/-- A text is a last piece, or has a first line. -/
theorem text_cases (text : List UInt8) :
    newline ∉ text ∨ ∃ body rest, text = body ++ newline :: rest ∧ newline ∉ body := by
  by_cases member : newline ∈ text
  · obtain ⟨body, rest, split, clear⟩ := List.eq_append_cons_of_mem member
    exact .inr ⟨body, rest, split, clear⟩
  · exact .inl member

section resume
variable {body rest : List UInt8}

theorem passes (clear : newline ∉ body) : ∀ byte ∈ body, (byte != newline) = true := by
  intro byte member
  apply bne_iff_ne.mpr
  intro same
  subst same
  exact clear member

theorem read_until_newline (clear : newline ∉ body) :
    read_until (body ++ newline :: rest) [] = (body ++ [newline], .ok (), ⟨rest, []⟩) := by
  have dropped : (body ++ newline :: rest).dropWhile (· != newline) = newline :: rest := by
    rw [List.dropWhile_append_of_pos (passes clear)]
    rfl
  have taken : (body ++ newline :: rest).takeWhile (· != newline) = body := by
    rw [List.takeWhile_append_of_pos (passes clear)]
    simp
  unfold read_until
  simp only [dropped, taken]

theorem read_until_last (clear : newline ∉ body) : read_until body [] = (body, .ok (), ⟨[], []⟩) := by
  have passed : body.dropWhile (· != newline) = [] := by
    exact List.dropWhile_eq_nil_iff.mpr (passes clear)
  unfold read_until
  simp only [passed]

theorem trim_newline (body : List UInt8) : trim (body ++ [newline]) = uncarriaged body := by
  simp [trim, uncarriaged]

theorem trim_last (clear : newline ∉ body) : trim body = body := by
  unfold trim
  rw [if_neg]
  intro last
  exact clear (List.mem_of_getLast? last)

/-- A line that is not UTF-8 does not parse either. -/
theorem not_parsed {bytes : List UInt8} {more : List UInt8} (ascii : ∀ byte ∈ more, byte.toNat < 128)
    (undecoded : from_utf8 (bytes ++ more) = none) : parse bytes = none := by
  apply Option.eq_none_iff_forall_ne_some.mpr
  intro number parsed
  have whole : ∀ byte ∈ bytes ++ more, byte.toNat < 128 := by
    intro byte member
    exact (List.mem_append.mp member).elim (parse_ascii parsed byte) (ascii byte)
  obtain ⟨text, decoded⟩ := from_utf8_ascii whole
  rw [undecoded] at decoded
  cases decoded

theorem uncarriaged_append (body : List UInt8) :
    ∃ more, body = uncarriaged body ++ more ∧ ∀ byte ∈ more, byte.toNat < 128 := by
  unfold uncarriaged
  split
  · rename_i last
    refine ⟨[carriage_return], (List.dropLast_append_getLast? _ last).symm, ?_⟩
    intro byte member
    rw [List.mem_singleton.mp member]
    decide
  · exact ⟨[], by simp⟩

/-- What a `resume` yields, or where it completes: by its line's number. -/
def resumed (line rest : List UInt8) : CoroutineState Int32 × ReadCoroutine :=
  match parse line with
  | some number => (.yielded number, ⟨rest⟩)
  | none => (.complete, ⟨rest⟩)

theorem resume_newline (clear : newline ∉ body) :
    ReadCoroutine.resume ⟨body ++ newline :: rest⟩ = resumed (uncarriaged body) rest := by
  unfold ReadCoroutine.resume ReadCoroutine.next BufReader.read_line
  simp only [read_until_newline clear]
  cases decoded : from_utf8 (body ++ [newline]) with
  | none =>
    obtain ⟨more, split, ascii⟩ := uncarriaged_append body
    have unread : parse (uncarriaged body) = none := by
      rw [split, List.append_assoc] at decoded
      apply not_parsed (List.forall_mem_append.mpr ⟨ascii, ?_⟩) decoded
      intro byte member
      rw [List.mem_singleton.mp member]
      decide
    simp only [resumed, unread]
  | some line =>
    have bytes := from_utf8_eq_some.mp decoded
    have some : (body ++ [newline]).length ≠ 0 := by simp
    simp only [← bytes, some, if_false, trim_newline]
    rfl

theorem resume_last (clear : newline ∉ body) : ReadCoroutine.resume ⟨body⟩ = resumed body [] := by
  unfold ReadCoroutine.resume ReadCoroutine.next BufReader.read_line
  simp only [read_until_last clear]
  cases decoded : from_utf8 body with
  | none =>
    have whole : from_utf8 (body ++ []) = none := by rw [List.append_nil, decoded]
    have unread : parse body = none := not_parsed (fun byte member => absurd member List.not_mem_nil) whole
    simp only [resumed, unread]
  | some line =>
    have bytes := from_utf8_eq_some.mp decoded
    by_cases empty : body = []
    · simp only [← bytes, empty, List.length_nil, if_true]
      rfl
    · simp only [← bytes, List.length_eq_zero_iff, empty, if_false, trim_last clear]
      rfl

end resume

theorem numbers_newline {body : List UInt8} (rest : List UInt8) (clear : newline ∉ body) :
    numbers (body ++ newline :: rest) =
      match parse (uncarriaged body) with
      | some number => number :: numbers rest
      | none => [] := by
  unfold numbers
  rw [lines_newline clear]
  cases parsed : parse (uncarriaged body) with
  | some number => simp [parsed, List.reduceOption_cons_of_some]
  | none => simp [parsed]

theorem numbers_last {body : List UInt8} (clear : newline ∉ body) : numbers body = (parse body).toList := by
  unfold numbers
  rw [lines_last clear]
  by_cases empty : body = []
  · rw [if_pos empty, empty]
    rfl
  · rw [if_neg empty]
    cases parsed : parse body with
    | some number => simp [parsed, List.reduceOption_cons_of_some]
    | none => simp [parsed]

theorem yields_resumed {file : List UInt8} {next : List UInt8} {line : List UInt8}
    (taken : ReadCoroutine.resume ⟨file⟩ = resumed line next) :
    ReadCoroutine.yields ⟨file⟩ =
      match parse line with
      | some number => number :: ReadCoroutine.yields ⟨next⟩
      | none => [] := by
  rw [ReadCoroutine.yields]
  unfold resumed at taken
  cases parsed : parse line with
  | some number =>
    simp only [parsed] at taken
    split
    · rename_i resumed
      cases taken.symm.trans resumed
      rfl
    · rename_i resumed
      cases taken.symm.trans resumed
  | none =>
    simp only [parsed] at taken
    split
    · rename_i resumed
      cases taken.symm.trans resumed
    · rfl

/-- A `ReadCoroutine` yields the numbers of the file. -/
theorem yields_numbers (file : List UInt8) : ReadCoroutine.yields ⟨file⟩ = numbers file := by
  induction length : file.length using Nat.strongRecOn generalizing file with
  | ind size ih =>
    rcases text_cases file with clear | ⟨body, rest, split, clear⟩
    · rw [yields_resumed (resume_last clear), numbers_last clear]
      cases parse file with
      | some number =>
        rw [yields_resumed (resume_last List.not_mem_nil)]
        rfl
      | none => rfl
    · subst split
      rw [yields_resumed (resume_newline clear), numbers_newline rest clear]
      cases parse (uncarriaged body) with
      | some number => simp only [ih rest.length (by simp at length; omega) rest rfl]
      | none => rfl

/-- The manager writes down what its reader yields. -/
theorem run_written (reader : ReadCoroutine) (output : List UInt8) : run reader output = output ++ written reader.yields := by
  fun_induction run reader output with
  | case1 reader output number next taken ih =>
    have yields : reader.yields = number :: next.yields := by
      rw [ReadCoroutine.yields]
      split
      · rename_i resumed
        cases taken.symm.trans resumed
        rfl
      · rename_i resumed
        cases taken.symm.trans resumed
    rw [ih, yields]
    simp [WriteCoroutine.resume, written]
  | case2 reader output next taken =>
    have yields : reader.yields = [] := by
      rw [ReadCoroutine.yields]
      split
      · rename_i resumed
        cases taken.symm.trans resumed
      · rfl
    simp [yields, written]

theorem display_clear {byte : UInt8} (other : byte ≠ minus) (low : byte.toNat < 48) (number : Int32) :
    byte ∉ display number := by
  intro member
  rcases display_bytes number byte member with sign | digit
  · exact other sign
  · exact Nat.not_lt.mpr digit.1 low

/-- What has been written is read back. -/
theorem numbers_written (values : List Int32) : numbers (written values) = values := by
  induction values with
  | nil => rfl
  | cons value values ih =>
    have clear : newline ∉ display value := display_clear (by decide) (by decide) value
    have plain : uncarriaged (display value) = display value := by
      unfold uncarriaged
      rw [if_neg]
      intro last
      exact display_clear (show carriage_return ≠ minus by decide) (by decide) value (List.mem_of_getLast? last)
    have split : written (value :: values) = display value ++ newline :: written values := by simp [written]
    rw [split, numbers_newline _ clear, plain, parse_display, ih]

theorem resumes_written (values : List Int32) (file : List UInt8) :
    values.foldl WriteCoroutine.resume file = file ++ written values := by
  induction values generalizing file with
  | nil => simp [written]
  | cons value values ih =>
    rw [List.foldl_cons, ih]
    simp [WriteCoroutine.resume, written]

/-- Numbers that have been written are read back, after those that were there
before. Whatever a manager has read, its output is read as the same numbers, and
a second manager makes the same output of it. -/
theorem reading_undoes_writing :
    (∀ earlier later : List Int32,
      ReadCoroutine.yields ⟨later.foldl WriteCoroutine.resume (earlier.foldl WriteCoroutine.resume [])⟩ = earlier ++ later) ∧
    ∀ input : List UInt8,
      ReadCoroutine.yields ⟨run ⟨input⟩ []⟩ = ReadCoroutine.yields ⟨input⟩ ∧ ReadCoroutine.yields ⟨input⟩ = numbers input ∧
        run ⟨run ⟨input⟩ []⟩ [] = run ⟨input⟩ [] := by
  constructor
  · intro earlier later
    have whole : written earlier ++ written later = written (earlier ++ later) := by simp [written]
    rw [resumes_written, resumes_written, List.nil_append, whole, yields_numbers, numbers_written]
  · intro input
    have same : ReadCoroutine.yields ⟨run ⟨input⟩ []⟩ = ReadCoroutine.yields ⟨input⟩ := by
      rw [run_written, List.nil_append, yields_numbers, numbers_written]
    refine ⟨same, yields_numbers input, ?_⟩
    rw [run_written ⟨run ⟨input⟩ []⟩, same, run_written ⟨input⟩]

end RustAsyncAwait.CoroutineManager
