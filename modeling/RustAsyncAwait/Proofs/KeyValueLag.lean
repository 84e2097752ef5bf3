import RustAsyncAwait.Proofs.KeyValueCrashes
import RustAsyncAwait.Proofs.KeyValueFailures

/-! How far the file is behind the answers. A write is answered when its log entry
is in the channel, which has room for 32 of them; one more may have been taken from
it and not be in the file yet. -/

namespace RustAsyncAwait.KeyValueStore
open Library

/-- The writes that the actor has answered, in this order. -/
def answeredWrites (trace : List PairEvent) : List WriterLogMessage :=
  (responses PairEvent.answered? trace).filterMap fun answered => WriterLogMessage.from_key_value_message answered.1

def PairEvent.write? : PairEvent → Option WriterLogMessage
  | .actor event => event.write?
  | _ => none

theorem answeredWrites_snoc (trace : List PairEvent) (event : PairEvent) :
    answeredWrites (trace ++ [event]) = answeredWrites trace ++ event.write?.toList := by
  rw [answeredWrites, responses_snoc, List.filterMap_append]
  congr 1
  cases event with
  | actor event => cases event <;> rfl
  | deliver _ | drop | writer _ => rfl

/-- What a step of the actor does with the log, once it has asked for its map. -/
theorem ActorStep.sends {inc next : Incarnation} {event : ActorEvent} (stepped : ActorStep inc event next)
    (begun : inc.actor ≠ .start) (running : inc.writer ≠ .ended) :
    next.writer = inc.writer ∧ next.actor ≠ .start ∧ (inc.log.length ≤ capacity → next.log.length ≤ capacity) ∧
      ∃ sent, next.log = inc.log ++ sent ∧ inc.actor.entry ++ sent = event.write?.toList ++ next.actor.entry := by
  cases stepped with
  | start fresh => exact absurd fresh begun
  | takeMap place _ | recv place _ | timeout place _ _ | heartbeat place =>
    exact ⟨rfl, by simp, id, [], by simp, by simp [place, KeyValueActor.entry, ActorEvent.write?]⟩
  | panic place _ _ | close place _ _ =>
    exact ⟨rfl, by simp [Incarnation.stop], id, [], by simp [Incarnation.stop],
      by simp [place, Incarnation.stop, KeyValueActor.entry, ActorEvent.write?]⟩
  | pass held unlogged =>
    exact ⟨rfl, by simp, id, [], by simp, by simp [held, unlogged, KeyValueActor.entry, ActorEvent.write?]⟩
  | refuse _ _ ended => cases writer : inc.writer <;> simp [writer] at ended running
  | @log map message entry held logged _ room =>
    refine ⟨rfl, by simp, fun _ => ?_, [entry], rfl, by simp [held, logged, KeyValueActor.entry, ActorEvent.write?]⟩
    rw [List.length_append, List.length_singleton]
    exact room
  | answer held => exact ⟨rfl, by simp, id, [], by simp, by simp [held, KeyValueActor.entry, ActorEvent.write?]⟩
  | cancel _ awaits =>
    refine ⟨rfl, by simp [Incarnation.stop], id, [], by simp [Incarnation.stop], ?_⟩
    cases place : inc.actor <;>
      simp [place, KeyValueActor.cancellable] at awaits <;> simp [Incarnation.stop, KeyValueActor.entry, ActorEvent.write?]

/-- Only with `recv` the writer takes a message, and it ends only after the actor. -/
theorem WriterStep.leaves {json : Json} {pair next : Pair} {event : WriterEvent} (stepped : WriterStep json pair event next)
    (succeeds : event ≠ .fail) (other : ∀ contents, event ≠ .recv contents) :
    next.inc.log = pair.inc.log ∧ (next.inc.writer = .ended → pair.inc.actor = .stopped) := by
  cases stepped with
  | «open» => exact ⟨rfl, by simp only [Pair.setWriter]; split <;> simp⟩
  | read | parse | create | setLen | seek | write | flush | timeout | heartbeat => exact ⟨rfl, by simp [Pair.setWriter]⟩
  | recv => exact absurd rfl (other _)
  | close _ _ stopped =>
    refine ⟨rfl, fun _ => ?_⟩
    cases place : pair.inc.actor <;> simp [place] at stopped ⊢
  | unreadable | fail => exact absurd rfl succeeds

/-- Where the writes are: the writer has taken the first ones of its channel, which
holds the others. `writes` are those that have been answered. -/
inductive Logged (json : Json) (file : Option Bytes) (writes : List WriterLogMessage) (pair : Pair) : Prop
  | unspawned (idle : pair.inc.actor = .start ∨ pair.inc.actor = .stopped) (writer : pair.inc.writer = .unspawned)
      (same : pair.file = file) (none : writes = [])
  | spawned {taken : List WriterLogMessage} (begun : pair.inc.actor ≠ .start)
      (ended : pair.inc.writer = .ended → pair.inc.actor = .stopped) (left : Left json file taken pair.file pair.inc.writer)
      (entries : taken ++ pair.inc.log = .get :: (writes ++ pair.inc.actor.entry)) (room : pair.inc.log.length ≤ capacity)

namespace Logged
variable {json : Json} {file : Option Bytes} {writes : List WriterLogMessage} {pair next : Pair}

theorem received (logged : Logged json file writes pair) (inbox : List KeyValueMessage) (closed : Bool) :
    Logged json file writes { pair with inc := { pair.inc with inbox := inbox, closed := closed } } := by
  cases logged with
  | unspawned idle writer same none => exact .unspawned idle writer same none
  | spawned begun ended left entries room => exact .spawned begun ended left entries room

theorem actor (logged : Logged json file writes pair) {event : ActorEvent} {inc : Incarnation}
    (stepped : ActorStep pair.inc event inc) : Logged json file (writes ++ event.write?.toList) { pair with inc } := by
  have alive := stepped.alive
  cases logged with
  | unspawned idle writer same none =>
    have fresh := idle.resolve_right alive
    cases stepped with
    | start =>
      refine @spawned _ _ _ _ [] (by simp) (by simp) ⟨rfl, same⟩ ?_ (by simp [capacity])
      simp [none, KeyValueActor.entry, ActorEvent.write?]
    | cancel => exact .unspawned (.inr rfl) writer same (by simp [none, ActorEvent.write?])
    | takeMap place | panic place | recv place | pass place | refuse place | log place | answer place | timeout place
    | heartbeat place | close place =>
      rw [fresh] at place
      cases place
  | @spawned taken begun ended left entries room =>
    obtain ⟨writer, goes_on, fits, sent, log, moved⟩ := stepped.sends begun fun finished => alive (ended finished)
    refine .spawned goes_on (fun finished => absurd (ended (writer ▸ finished)) alive) (writer ▸ left) ?_ (fits room)
    rw [log, ← List.append_assoc, entries, List.cons_append, List.append_assoc, moved, List.append_assoc]

theorem writer (logged : Logged json file writes pair) {event : WriterEvent} (stepped : WriterStep json pair event next)
    (succeeds : event ≠ .fail) : Logged json file writes next := by
  obtain ⟨spawned, unended⟩ := Ledger.writer_runs stepped
  obtain ⟨same, _⟩ := stepped.actor_eq
  cases logged with
  | unspawned _ writer => exact absurd writer spawned
  | @spawned taken begun ended left entries room =>
    by_cases takes : ∃ contents, event = .recv contents
    · obtain ⟨contents, rfl⟩ := takes
      have left := left.recv stepped
      cases stepped with
      | @recv map entry rest contents place front =>
        rw [front] at left entries room
        refine .spawned begun (by simp) left ?_ (Nat.le_of_succ_le room)
        rw [← entries, List.take_succ_cons, List.take_zero, List.append_assoc, List.singleton_append]
    · obtain ⟨log, after⟩ := stepped.leaves succeeds (fun contents other => takes ⟨contents, other⟩)
      have left := left.step stepped succeeds fun contents other => takes ⟨contents, other⟩
      refine .spawned (same ▸ begun) (fun finished => same ▸ after finished) left ?_ (log ▸ room)
      rw [log, same]
      exact entries

end Logged

theorem reaches_logged {json : Json} {file : Option Bytes} {trace : List PairEvent} {pair : Pair}
    (reaches : (sound json file).Reaches trace pair) : Logged json file (answeredWrites trace) pair := by
  refine reaches.trace_invariant (fun trace pair => Logged json file (answeredWrites trace) pair) ?_ ?_
  · exact .unspawned (.inl rfl) rfl rfl rfl
  · intro trace pair event next _ logged stepped
    obtain ⟨succeeds, stepped⟩ := Machine.restrict_step.mp stepped
    have stepped : pair.step json event = some next := stepped
    rw [answeredWrites_snoc]
    cases event with
    | deliver message =>
      simp only [Pair.step, Option.ite_none_right_eq_some, Option.some.injEq] at stepped
      obtain ⟨_, rfl⟩ := stepped
      simpa [PairEvent.write?] using logged.received _ _
    | drop =>
      cases stepped
      simpa [PairEvent.write?] using logged.received _ _
    | actor event =>
      obtain ⟨inc, moved, rfl⟩ := Option.map_eq_some_iff.mp stepped
      exact logged.actor (actorStep_cases moved)
    | writer event =>
      simp only [PairEvent.write?, Option.toList_none, List.append_nil]
      exact logged.writer (writerStep_cases stepped) (fun fails => succeeds (congrArg _ fails))

theorem loaded_readable {json : Json} {map : Map} {file : Option Bytes} {contents : Bytes} (there : file = some contents)
    (readable : json.from_str contents = some map) : map = loaded json file := by
  rw [there, loaded, Option.elim_some, load_map, readable, Option.getD_some]

theorem Text.readable {json : Json} {start map : Map} {taken : List WriterLogMessage} {now : Option Bytes} {contents : Bytes}
    (reads : json.Reads) (text : Text json start taken now) (there : now = some contents)
    (readable : json.from_str contents = some map) : taken ≠ [] ∧ map = replay start taken := by
  unfold Text at text
  split at text
  · cases text.symm.trans there
    rw [reads.blank] at readable
    cases readable
  · rename_i some_
    obtain ⟨whole, printed, put⟩ := text
    cases put.symm.trans there
    rw [reads.round_trip _ _ printed, Option.some.injEq] at readable
    exact ⟨some_, readable.symm⟩

/-- What a text in the file is: the one after all that the writer has taken, but perhaps the last. -/
theorem Left.readable {json : Json} {file now : Option Bytes} {taken : List WriterLogMessage} {writer : WriterActor}
    (reads : json.Reads) (left : Left json file taken now writer) {contents : Bytes} {map : Map} (there : now = some contents)
    (readable : json.from_str contents = some map) :
    taken = [] ∧ map = loaded json file ∨
      ∃ written last, taken = written ++ last ∧ written ≠ [] ∧ last.length ≤ 1 ∧ map = replay (loaded json file) written := by
  cases writer with
  | unspawned => cases left
  | «open» => exact .inl ⟨left.1, loaded_readable (left.2.symm.trans there) readable⟩
  | read _ | create _ => exact .inl ⟨left.1, loaded_readable (left.2.1.symm.trans there) readable⟩
  | recv held | heartbeat held =>
    obtain ⟨some_, same⟩ := Text.readable reads left.2 there readable
    exact .inr ⟨taken, [], (List.append_nil _).symm, some_, Nat.zero_le 1, same⟩
  | setLen held text =>
    simp only [Left] at left
    obtain ⟨some_, _, _, put⟩ := left
    obtain ⟨before, same⟩ := Text.readable reads put there readable
    exact .inr ⟨taken.dropLast, [taken.getLast some_], (List.dropLast_append_getLast some_).symm, before, Nat.le_refl 1, same⟩
  | seek held text =>
    simp only [Left] at left
    rw [left.2.2.2, Option.some.injEq] at there
    rw [← there, reads.blank] at readable
    cases readable
  | write held text count =>
    simp only [Left] at left
    obtain ⟨some_, same, printed, _, put⟩ := left
    rw [put, Option.some.injEq] at there
    by_cases whole : count < text.length
    · rw [← there, reads.torn held text count printed whole] at readable
      cases readable
    · rw [List.take_of_length_le (Nat.not_lt.mp whole)] at there
      rw [← there, reads.round_trip held text printed, Option.some.injEq] at readable
      exact .inr ⟨taken, [], (List.append_nil _).symm, some_, Nat.zero_le 1, readable ▸ same⟩
  | ended =>
    obtain ⟨some_, same⟩ := Text.readable reads left there readable
    exact .inr ⟨taken, [], (List.append_nil _).symm, some_, Nat.zero_le 1, same⟩

/-- At every moment, a map that can be read from the file is the one after the
answered writes without the last 33 of them at most, or after a write that is just
going to be answered. -/
theorem file_lags {json : Json} (reads : json.Reads) {file : Option Bytes} {trace : List PairEvent} {pair : Pair}
    (reaches : (sound json file).Reaches trace pair) {contents : Bytes} {map : Map} (there : pair.file = some contents)
    (readable : json.from_str contents = some map) :
    ∃ written lost, written ++ lost = answeredWrites trace ++ pair.inc.actor.entry ∧ lost.length ≤ capacity + 1 ∧
      map = replay (loaded json file) written := by
  cases reaches_logged reaches with
  | unspawned idle _ same none =>
    have unsent : pair.inc.actor.entry = [] := by
      rcases idle with place | place <;> rw [place] <;> rfl
    exact ⟨[], [], by simp [none, unsent], Nat.zero_le _, loaded_readable (same.symm.trans there) readable⟩
  | @spawned taken _ _ left entries room =>
    rcases left.readable reads there readable with ⟨none, same⟩ | ⟨written, last, split, some_, few, same⟩
    · subst none
      refine ⟨[], answeredWrites trace ++ pair.inc.actor.entry, rfl, ?_, same⟩
      have length := congrArg List.length entries
      simp only [List.nil_append, List.length_cons] at length
      omega
    · obtain ⟨first, rest, rfl⟩ := List.exists_cons_of_ne_nil some_
      rw [split, List.append_assoc, List.cons_append, List.cons.injEq] at entries
      obtain ⟨rfl, entries⟩ := entries
      refine ⟨rest, last ++ pair.inc.log, entries, ?_, same⟩
      rw [List.length_append]
      omega

/-- While the writer holds the first of 33 writes, all of them are answered, and none is in the file. -/
theorem file_lags_most :
    let start : List PairEvent := [.actor .start, .writer .open, .writer .create, .writer (.recv [123, 125]), .writer .setLen,
      .writer .seek, .writer (.write 2), .writer .flush, .actor .takeMap]
    let set : List PairEvent := [.deliver (.set "a" [1] 0), .actor .recv, .actor .log, .actor (.answer (.set "a" [1] 0) .done)]
    let take : List PairEvent := [.writer (.recv [123, 34, 97, 34, 58, 91, 49, 93, 125])]
    let trace := start ++ set ++ take ++ (List.replicate 32 set).flatten
    ∃ pair, (sound textsJson none).Reaches trace pair ∧ pair.file = some [123, 125] ∧ (answeredWrites trace).length = 33 ∧
      ∃ written lost, written ++ lost = answeredWrites trace ++ pair.inc.actor.entry ∧ lost.length ≤ 33 ∧
        ∅ = replay ∅ written := by
  intro start set take trace
  obtain ⟨pair, reaches, file, count⟩ : ∃ pair, (sound textsJson none).Reaches trace pair ∧ pair.file = some [123, 125] ∧
      (answeredWrites trace).length = 33 := ⟨_, rfl, rfl, rfl⟩
  exact ⟨pair, reaches, file, count, file_lags textsJson_reads reaches file rfl⟩

end RustAsyncAwait.KeyValueStore
