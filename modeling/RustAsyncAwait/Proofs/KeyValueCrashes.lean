import RustAsyncAwait.Proofs.KeyValueRestart

/-! What an interruption of `writer_actor` leaves in the file. From each moment
it empties the file until the next text is written whole, nothing can be loaded
from it. -/

namespace RustAsyncAwait.KeyValueStore
open Library

/-- A writer with what is left of its channel and the messages it has taken from it. -/
structure Writing where
  pair : Pair
  taken : List WriterLogMessage := []

inductive WritingEvent
  | send (message : WriterLogMessage)
  | close
  | writer (event : WriterEvent)

def Writing.step (json : Json) (state : Writing) : WritingEvent → Option Writing
  | .send message =>
    if state.pair.inc.actor.isStopped = false ∧ state.pair.inc.log.length < capacity then
      some { state with pair.inc.log := state.pair.inc.log ++ [message] }
    else none
  | .close => some { state with pair.inc.actor := .stopped }
  | .writer (.recv contents) =>
    (state.pair.writerStep json (.recv contents)).map fun pair =>
      { pair, taken := state.taken ++ state.pair.inc.log.take 1 }
  | .writer .fail => none
  | .writer event => (state.pair.writerStep json event).map fun pair => { state with pair }

/-- `writer_actor` on this file, up to an interruption, while no operation on the
file fails. -/
def interrupted (json : Json) (file : Option Bytes) : Machine Writing WritingEvent where
  init := { pair := { inc := { writer := .open }, file } }
  step := Writing.step json

/-- The map after the messages it has taken. -/
def Writing.after (start : Map) (state : Writing) : Map := replay start state.taken

/-- The map before the last of them. -/
def Writing.before (start : Map) (state : Writing) : Map := replay start state.taken.dropLast

/-- What a restart should find: while a message is being processed, the map
before or after it, and else the map as it is. -/
def Writing.Expected (start : Map) (state : Writing) (map : Map) : Prop :=
  match state.pair.inc.writer with
  | .setLen _ _ | .seek _ _ | .write _ _ _ => map = state.before start ∨ map = state.after start
  | _ => map = state.after start

/-- The writer has emptied the file, and has not written a whole text since. -/
def Writing.Emptied (state : Writing) : Prop :=
  match state.pair.inc.writer with
  | .recv _ | .heartbeat _ | .ended => state.taken = []
  | .setLen _ _ => state.taken.dropLast = []
  | .seek _ _ => True
  | .write _ contents written => written < contents.length
  | .unspawned | .open | .read _ | .create _ => False

/-- What is used of `serde_json`: a text is read back, and no part of it is a text. -/
structure Json.Reads (json : Json) : Prop where
  round_trip : ∀ map contents, json.to_string map contents = true → json.from_str contents = some map
  torn : ∀ map contents count, json.to_string map contents = true → count < contents.length →
    json.from_str (contents.take count) = none
  blank : json.from_str [] = none

section
variable {json : Json} {start : Map}

/-- The file holds nothing yet, or the map after these messages. -/
def Text (json : Json) (start : Map) (taken : List WriterLogMessage) (file : Option Bytes) : Prop :=
  if taken = [] then file = some [] else ∃ contents, json.to_string (replay start taken) contents = true ∧ file = some contents

/-- The writer's map and the file, in each place of the writer. -/
def Left (json : Json) (file : Option Bytes) (taken : List WriterLogMessage) (now : Option Bytes) : WriterActor → Prop
  | .unspawned => False
  | .open => taken = [] ∧ now = file
  | .read contents => taken = [] ∧ now = file ∧ ∃ held, file = some held ∧ contents <+: held
  | .create map => taken = [] ∧ now = file ∧ map = loaded json file
  | .recv map | .heartbeat map => map = replay (loaded json file) taken ∧ Text json (loaded json file) taken now
  | .setLen map contents =>
    taken ≠ [] ∧ map = replay (loaded json file) taken ∧ json.to_string map contents = true ∧
      Text json (loaded json file) taken.dropLast now
  | .seek map contents =>
    taken ≠ [] ∧ map = replay (loaded json file) taken ∧ json.to_string map contents = true ∧ now = some []
  | .write map contents written =>
    taken ≠ [] ∧ map = replay (loaded json file) taken ∧ json.to_string map contents = true ∧
      written ≤ contents.length ∧ now = some (contents.take written)
  | .ended => Text json (loaded json file) taken now

theorem Left.step {file : Option Bytes} {pair next : Pair} {taken : List WriterLogMessage} {event : WriterEvent}
    (left : Left json file taken pair.file pair.inc.writer) (stepped : WriterStep json pair event next)
    (succeeds : event ≠ .fail) (other : ∀ contents, event ≠ .recv contents) :
    Left json file taken next.file next.inc.writer := by
  cases stepped with
  | «open» spawned =>
    simp only [spawned, Left] at left
    obtain ⟨none, same⟩ := left
    subst same
    cases present : pair.file with
    | none => exact ⟨none, present, rfl⟩
    | some held => exact ⟨none, present, held, rfl, List.nil_prefix⟩
  | @read contents held chunk count reading present some_bytes =>
    simp only [reading, Left] at left
    obtain ⟨none, same, whole, whole_file, part⟩ := left
    refine ⟨none, same, whole, whole_file, ?_⟩
    cases (present.symm.trans same).trans whole_file
    obtain ⟨rest, rfl⟩ := part
    rw [← some_bytes, List.drop_left]
    exact (List.prefix_append_right_inj contents).mpr (List.take_prefix count rest)
  | @parse contents held reading present complete =>
    simp only [reading, Left] at left
    obtain ⟨none, same, whole, whole_file, part⟩ := left
    refine ⟨none, same, ?_⟩
    cases (present.symm.trans same).trans whole_file
    obtain ⟨rest, rfl⟩ := part
    rw [List.drop_left] at complete
    rw [whole_file, complete, List.append_nil]
    rfl
  | create holds =>
    simp only [holds, Left] at left
    obtain ⟨rfl, _, same⟩ := left
    exact ⟨same, rfl⟩
  | recv _ _ _ => exact absurd rfl (other _)
  | setLen writes =>
    simp only [writes, Left] at left
    obtain ⟨some, same, printed, _⟩ := left
    exact ⟨some, same, printed, rfl⟩
  | seek emptied =>
    simp only [emptied, Left] at left
    obtain ⟨some, same, printed, nothing⟩ := left
    exact ⟨some, same, printed, Nat.zero_le _, nothing⟩
  | @write map contents written held chunk count writing present some_bytes =>
    simp only [writing, Left] at left
    obtain ⟨some, same, printed, within, put⟩ := left
    cases present.symm.trans put
    have length : chunk.length ≤ contents.length - written := by
      rw [← some_bytes, List.length_take, List.length_drop]
      exact Nat.min_le_right _ _
    exact ⟨some, same, printed, by omega, congrArg _ (overwrite_next within some_bytes)⟩
  | @flush map contents writing =>
    simp only [writing, Left] at left
    obtain ⟨some, same, printed, _, put⟩ := left
    rw [List.take_length] at put
    refine ⟨same, ?_⟩
    rw [same] at printed
    unfold Text
    rw [if_neg some]
    exact ⟨contents, printed, put⟩
  | timeout idle _ _ =>
    simp only [idle, Left] at left
    exact left
  | heartbeat beats =>
    simp only [beats, Left] at left
    exact left
  | close idle _ _ =>
    simp only [idle, Left] at left
    exact left.2
  | unreadable _ | fail _ => exact absurd rfl succeeds

theorem Left.recv {file : Option Bytes} {pair next : Pair} {taken : List WriterLogMessage} {contents : Bytes}
    (left : Left json file taken pair.file pair.inc.writer) (stepped : WriterStep json pair (.recv contents) next) :
    Left json file (taken ++ pair.inc.log.take 1) next.file next.inc.writer := by
  cases stepped with
  | @recv map entry rest contents idle front printed =>
    simp only [idle, Left] at left
    obtain ⟨same, text⟩ := left
    rw [front]
    refine ⟨by simp, ?_, printed, ?_⟩
    · rw [List.take_succ_cons, List.take_zero, replay_append, ← same]
      rfl
    · rw [List.take_succ_cons, List.take_zero, List.dropLast_concat]
      exact text

theorem reaches_left {file : Option Bytes} {trace : List WritingEvent} {state : Writing}
    (reaches : (interrupted json file).Reaches trace state) : Left json file state.taken state.pair.file state.pair.inc.writer := by
  refine reaches.invariant (fun state => Left json file state.taken state.pair.file state.pair.inc.writer) ?_ ?_
  · exact ⟨rfl, rfl⟩
  · intro state event next left stepped
    cases event with
    | send message =>
      obtain ⟨_, stepped⟩ := Option.ite_none_right_eq_some.mp stepped
      cases stepped
      exact left
    | close =>
      cases stepped
      exact left
    | writer event =>
      cases event with
      | recv contents =>
        obtain ⟨pair, moved, same⟩ := Option.map_eq_some_iff.mp stepped
        cases same
        exact left.recv (writerStep_cases moved)
      | fail => cases stepped
      | «open» | read _ | parse | create | setLen | seek | write _ | flush | timeout | heartbeat | close =>
        obtain ⟨pair, moved, same⟩ := Option.map_eq_some_iff.mp stepped
        cases same
        exact left.step (writerStep_cases moved) (by simp) (by simp)

theorem Json.Reads.loaded_blank (reads : json.Reads) : loaded json (some []) = ∅ := by
  simp [loaded, load_map, reads.blank]

theorem Json.Reads.loaded_torn (reads : json.Reads) {map : Map} {contents : Bytes} {count : Nat}
    (printed : json.to_string map contents = true) (torn : count < contents.length) :
    loaded json (some (contents.take count)) = ∅ := by
  simp [loaded, load_map, reads.torn map contents count printed torn]

theorem Json.Reads.loaded_whole (reads : json.Reads) {map : Map} {contents : Bytes}
    (printed : json.to_string map contents = true) : loaded json (some contents) = map := by
  simp [loaded, load_map, reads.round_trip map contents printed]

theorem Text.loaded {taken : List WriterLogMessage} {now : Option Bytes} (text : Text json start taken now) (reads : json.Reads) :
    loaded json now = if taken = [] then ∅ else replay start taken := by
  unfold Text at text
  by_cases none : taken = []
  · rw [if_pos none] at text ⊢
    rw [text, reads.loaded_blank]
  · rw [if_neg none] at text ⊢
    obtain ⟨contents, printed, rfl⟩ := text
    exact reads.loaded_whole printed

/-- Where the writer has emptied the file, the empty map is loaded from it. -/
theorem Left.emptied {file : Option Bytes} {state : Writing} (reads : json.Reads)
    (left : Left json file state.taken state.pair.file state.pair.inc.writer) (emptied : state.Emptied) :
    loaded json state.pair.file = ∅ := by
  unfold Writing.Emptied at emptied
  cases place : state.pair.inc.writer with
  | recv map | heartbeat map =>
    simp only [place, Left] at left emptied
    rw [left.2.loaded reads, if_pos emptied]
  | ended =>
    simp only [place, Left] at left emptied
    rw [left.loaded reads, if_pos emptied]
  | setLen map contents =>
    simp only [place, Left] at left emptied
    rw [left.2.2.2.loaded reads, if_pos emptied]
  | seek map contents =>
    simp only [place, Left] at left
    rw [left.2.2.2, reads.loaded_blank]
  | write map contents written =>
    simp only [place, Left] at left emptied
    obtain ⟨_, _, printed, _, put⟩ := left
    rw [put, reads.loaded_torn printed emptied]
  | unspawned | «open» | read _ | create _ => simp [place] at emptied

/-- Where it has not, the file is as it was, or holds a whole text. -/
theorem Left.expected {file : Option Bytes} {state : Writing} (reads : json.Reads)
    (left : Left json file state.taken state.pair.file state.pair.inc.writer) (whole : ¬ state.Emptied) :
    state.Expected (loaded json file) (loaded json state.pair.file) := by
  unfold Writing.Emptied at whole
  unfold Writing.Expected Writing.after Writing.before
  cases place : state.pair.inc.writer with
  | recv map | heartbeat map =>
    simp only [place, Left] at left whole ⊢
    rw [left.2.loaded reads, if_neg whole]
  | ended =>
    simp only [place, Left] at left whole ⊢
    rw [left.loaded reads, if_neg whole]
  | setLen map contents =>
    simp only [place, Left] at left whole ⊢
    rw [left.2.2.2.loaded reads, if_neg whole]
    exact .inl rfl
  | seek map contents => simp [place] at whole
  | write map contents written =>
    simp only [place, Left] at left whole ⊢
    obtain ⟨_, same, printed, _, put⟩ := left
    rw [put, List.take_of_length_le (Nat.not_lt.mp whole), reads.loaded_whole printed]
    exact .inr same
  | unspawned =>
    rw [place] at left
    cases left
  | «open» =>
    simp only [place, Left] at left ⊢
    rw [left.1, left.2]
    rfl
  | read _ | create _ =>
    simp only [place, Left] at left ⊢
    rw [left.1, left.2.1]
    rfl

/-- After an interruption, a map that a restart should find is loaded exactly
if the file has not just been emptied, or that map is the empty one. -/
theorem restart_iff_whole {file : Option Bytes} {trace : List WritingEvent} {state : Writing} (reads : json.Reads)
    (reaches : (interrupted json file).Reaches trace state) :
    state.Expected (loaded json file) (loaded json state.pair.file) ↔
      (state.Emptied → state.Expected (loaded json file) ∅) := by
  have left := reaches_left reaches
  constructor
  · intro expected emptied
    rw [left.emptied reads emptied] at expected
    exact expected
  · intro empty
    by_cases emptied : state.Emptied
    · rw [left.emptied reads emptied]
      exact empty emptied
    · exact left.expected reads emptied

end

theorem textsJson_reads : textsJson.Reads where
  round_trip := textsJson_round_trip
  torn := by
    intro map contents count printed short
    have member := of_decide_eq_true printed
    simp only [texts, List.mem_cons, Prod.mk.injEq, List.not_mem_nil, or_false] at member
    obtain ⟨_, rfl⟩ | ⟨_, rfl⟩ := member
    · have torn : ∀ count < 2, textsJson.from_str ([123, 125].take count) = none := by decide
      exact torn count short
    · have torn : ∀ count < 9, textsJson.from_str ([123, 34, 97, 34, 58, 91, 49, 93, 125].take count) = none := by decide
      exact torn count short
  blank := by decide

/-- The first message on an empty store, interrupted while its text is written. -/
theorem restart_iff_whole_first : ∃ state,
    (interrupted textsJson none).Reaches [.send (.set "a" [1]), .writer .open, .writer .create,
      .writer (.recv [123, 34, 97, 34, 58, 91, 49, 93, 125]), .writer .setLen, .writer .seek, .writer (.write 4)] state ∧
    state.Expected ∅ (loaded textsJson state.pair.file) := by
  obtain ⟨state, reaches, place, taken⟩ : ∃ state, (interrupted textsJson none).Reaches
    [.send (.set "a" [1]), .writer .open, .writer .create, .writer (.recv [123, 34, 97, 34, 58, 91, 49, 93, 125]),
      .writer .setLen, .writer .seek, .writer (.write 4)] state ∧
    state.pair.inc.writer = .write ((∅ : Map).insert "a" [1]) [123, 34, 97, 34, 58, 91, 49, 93, 125] 4 ∧
    state.taken = [.set "a" [1]] := ⟨_, rfl, rfl, rfl⟩
  refine ⟨state, reaches, (restart_iff_whole textsJson_reads reaches).mpr ?_⟩
  intro _
  simp only [Writing.Expected, place, Writing.before, taken]
  exact .inl rfl

/-- A restart finds a map in the file and is interrupted right after it has
created the file anew: the next one finds none. -/
theorem restart_loses_map :
    ¬ ∀ (json : Json) (file : Option Bytes) (trace : List WritingEvent) (state : Writing), json.Reads →
      (interrupted json file).Reaches trace state → state.Expected (loaded json file) (loaded json state.pair.file) := by
  intro keeps
  obtain ⟨state, reaches, place, taken, emptied⟩ : ∃ state,
    (interrupted textsJson (some [123, 34, 97, 34, 58, 91, 49, 93, 125])).Reaches
      [.writer .open, .writer (.read 9), .writer .parse, .writer .create] state ∧
    state.pair.inc.writer = .recv ((∅ : Map).insert "a" [1]) ∧ state.taken = [] ∧ state.pair.file = some [] :=
    ⟨_, rfl, rfl, rfl, rfl⟩
  have found := keeps _ _ _ state textsJson_reads reaches
  simp only [Writing.Expected, place, Writing.after, taken, emptied] at found
  revert found
  decide

end RustAsyncAwait.KeyValueStore
