import RustAsyncAwait.Proofs.KeyValueWriters
import Mathlib.Data.List.Infix

/-! Every request is answered. While at most 32 are in flight and everybody who can
act again and again does, no request stays where it is for ever. -/

namespace RustAsyncAwait.KeyValueStore
open Library

variable {json : Json} {file : Option Bytes} {schedule : Nat → Event} {state next : System} {event : Event}
  {inc after : Incarnation} {index start : Nat} {message : KeyValueMessage}

/-- An actor that waits for its writer for ever, and never acts. -/
structure Stuck (json : Json) (file : Option Bytes) (schedule : Nat → Event) (index : Nat) (message : KeyValueMessage)
    (start : Nat) : Prop where
  unable : ∀ later, start ≤ later → ¬ ((calm json file).states schedule later).able json (.keyValue index)
  waits : ∀ later, start ≤ later → ∃ inc, ((calm json file).states schedule later).incarnations[index]? = some inc ∧
    message ∈ inc.requests ∧ inc.Awaits

namespace Stuck

theorem waning (stuck : Stuck json file schedule index message start) {later : Nat} {next : System} (after : start ≤ later)
    (stepped : (calm json file).step ((calm json file).states schedule later) (schedule later) = some next) :
    Waning ((calm json file).states schedule later) (schedule later) := by
  have intact := intact_states json file schedule later
  have unable := stuck.unable later after
  obtain ⟨inc, found, had, awaits⟩ := stuck.waits later after
  generalize (calm json file).states schedule later = state at stepped intact unable found ⊢
  generalize schedule later = event at stepped ⊢
  obtain ⟨moved, patient, _⟩ := calm_step stepped
  have last : index = state.current := by
    by_contra other
    have aborted := intact.succession.replaced index inc found other
    rw [awaits.kept] at aborted
    cases aborted
  constructor
  · intro actor rest routes idle front
    subst routes
    simp only [System.patient, idle, front, ← last, found, Option.all_some] at patient
    exact unable (able_of_quiet found patient had)
  · intro other own aborting acts at_other
    by_cases same : other = index
    · subst same
      subst acts
      exact absurd (able_of_step stepped rfl) unable
    · have aborted := intact.succession.replaced other aborting at_other (last ▸ same)
      exact (intact.answering.found_answers at_other).2 aborted

/-- The writers take the last of their messages. -/
theorem untaken (stuck : Stuck json file schedule index message start) :
    ∃ last, start ≤ last ∧ ∀ later next, last ≤ later →
      (calm json file).step ((calm json file).states schedule later) (schedule later) = some next →
        (schedule later).takes = false := by
  obtain ⟨last, after, none⟩ := Machine.turns_end System.pending (fun _ event => event.takes = true)
    (fun later next after stepped => (calm_step stepped).1.moves.pending_falls (stuck.waning after stepped))
  exact ⟨last, after, fun later next behind stepped => by simpa using none later next behind stepped⟩

/-- Then they do the last of their work on the file. -/
theorem untouched (stuck : Stuck json file schedule index message start)
    (untaken : ∀ later next, start ≤ later →
      (calm json file).step ((calm json file).states schedule later) (schedule later) = some next →
        (schedule later).takes = false) :
    ∃ last, start ≤ last ∧ ∀ later next, last ≤ later →
      (calm json file).step ((calm json file).states schedule later) (schedule later) = some next →
        (schedule later).touches = false := by
  obtain ⟨last, after, none⟩ := Machine.turns_end System.work (fun _ event => event.touches = true)
    (fun later next after stepped => (calm_step stepped).1.moves.work_falls (stuck.waning after stepped)
      (intact_states json file schedule later).succession.fresh (untaken later next after stepped))
  exact ⟨last, after, fun later next behind stepped => by simpa using none later next behind stepped⟩

/-- And then the actor's own writer gets to its channel, where a message waits. -/
theorem false (stuck : Stuck json file schedule index message start) (fair : Fair json file schedule)
    (prints : ∀ map, ∃ contents, json.to_string map contents = true) : False := by
  obtain ⟨drained, after, untaken⟩ := stuck.untaken
  have later_stuck {other : Nat} (behind : start ≤ other) : Stuck json file schedule index message other :=
    ⟨fun later after => stuck.unable later (by omega), fun later after => stuck.waits later (by omega)⟩
  obtain ⟨settled, behind, untouched⟩ := (later_stuck after).untouched untaken
  let rank (state : System) : Nat := (state.incarnations[index]?).elim 0 fun inc => inc.writer.ahead state.file
  obtain ⟨last, beyond, idle⟩ := (fair (.writer index)).stops rank
    (fun later next past stepped => by
      have moves := (calm_step stepped).1.moves
      have quiet := untouched later next past stepped
      have silent := untaken later next (by omega) stepped
      have intact := intact_states json file schedule later
      obtain ⟨inc, found, _, awaits⟩ := stuck.waits later (by omega)
      obtain ⟨moved, at_next, _, still⟩ := stuck.waits (later + 1) (by omega)
      rw [Machine.states, Machine.turn_some stepped] at at_next
      obtain ⟨changed, at_changed, changes⟩ := moves.changes found
      cases at_next.symm.trans at_changed
      simp only [rank, found, at_next, moves.file_eq quiet, Option.elim_some]
      exact changes.writer_ahead (intact.succession.fresh _ _ found) awaits still silent quiet)
  obtain ⟨later, past, room⟩ := router_room fair last
  obtain ⟨inc, found, _, awaits⟩ := stuck.waits later (by omega)
  exact idle later past (writer_able prints found awaits room)

end Stuck

theorem Changes.actor_eq (changes : Changes json state event index inc after)
    (other : event.party? ≠ some (.keyValue index)) : after.actor = inc.actor := by
  cases changes with
  | same | receives | replaced => rfl
  | acts acts =>
    subst acts
    exact absurd rfl other
  | writes _ stepped => exact stepped.actor_eq.1

/-- The request is answered in none of the steps before it leaves. -/
theorem unanswered_step {later : Nat}
    (stepped : (calm json file).step ((calm json file).states schedule later) (schedule later) = some next)
    (still : message ∈ ((calm json file).states schedule (later + 1)).accepted) : (schedule later).completed? ≠ some message := by
  intro completes
  obtain ⟨unique, whole⟩ := (intact_states json file schedule (later + 1)).answered
  have disjoint := List.disjoint_of_nodup_append (whole.nodup_iff.mpr unique)
  apply disjoint _ still
  rw [Machine.happened_succ, stepped, Option.isSome_some, if_pos rfl, List.filterMap_append]
  exact List.mem_append_right _ (by rw [List.filterMap_cons_some completes]; exact List.mem_cons_self ..)

/-- A request that never leaves stays with the actor that has got it. -/
theorem request_stays (always : ∀ later, start ≤ later → message ∈ ((calm json file).states schedule later).accepted)
    (found : ((calm json file).states schedule start).incarnations[index]? = some inc)
    (had : message ∈ inc.requests) {later : Nat} (behind : start ≤ later) :
    ∃ moved, ((calm json file).states schedule later).incarnations[index]? = some moved ∧ message ∈ moved.requests := by
  apply Machine.states_stay (fun state : System => ∃ moved, state.incarnations[index]? = some moved ∧ message ∈ moved.requests) _
    ⟨inc, found, had⟩ behind
  intro later next behind stepped held
  obtain ⟨before, at_before, had⟩ := held
  have unanswered := unanswered_step stepped (always (later + 1) (Nat.le_succ_of_le behind))
  obtain ⟨moved, at_moved, changes⟩ := (calm_step stepped).1.moves.changes at_before
  have answers := (intact_states json file schedule later).answering.found_answers at_before
  exact ⟨moved, at_moved, changes.keeps answers had unanswered⟩

/-- That actor comes to a stop. -/
theorem actor_stops (fair : Fair json file schedule)
    (always : ∀ later, start ≤ later → message ∈ ((calm json file).states schedule later).accepted)
    (found : ((calm json file).states schedule start).incarnations[index]? = some inc) (had : message ∈ inc.requests) :
    ∃ last, start ≤ last ∧ ∀ later, last ≤ later → ¬ ((calm json file).states schedule later).able json (.keyValue index) := by
  apply (fair (.keyValue index)).stops fun state => (state.incarnations[index]?).elim 0 fun inc => inc.ahead message
  intro later next behind stepped
  obtain ⟨before, at_before, before_had⟩ := request_stays always found had behind
  obtain ⟨after, at_after, has⟩ := request_stays always found had (Nat.le_succ_of_le behind)
  have unanswered := unanswered_step stepped (always (later + 1) (Nat.le_succ_of_le behind))
  rw [Machine.states, Machine.turn_some stepped] at at_after
  obtain ⟨moved, at_moved, changes⟩ := (calm_step stepped).1.moves.changes at_before
  cases at_after.symm.trans at_moved
  simp only [at_before, at_after, Option.elim_some]
  exact changes.ahead_le before_had has unanswered

/-- An actor that waits for room for its heartbeat finds it. -/
theorem beats_on {map : Map} (fair : Fair json file schedule)
    (unable : ∀ later, start ≤ later → ¬ ((calm json file).states schedule later).able json (.keyValue index))
    (found : ((calm json file).states schedule start).incarnations[index]? = some inc) (place : inc.actor = .heartbeat map) :
    False := by
  have beating (later : Nat) (behind : start ≤ later) :
      ∃ moved, ((calm json file).states schedule later).incarnations[index]? = some moved ∧ moved.actor = .heartbeat map := by
    apply Machine.states_stay (fun state : System => ∃ moved, state.incarnations[index]? = some moved ∧ moved.actor = .heartbeat map) _
      ⟨inc, found, place⟩ behind
    intro later next behind stepped held
    obtain ⟨before, at_before, place⟩ := held
    obtain ⟨moved, at_moved, changes⟩ := (calm_step stepped).1.moves.changes at_before
    exact ⟨moved, at_moved, (changes.actor_eq fun own => unable later behind (able_of_step stepped own)).trans place⟩
  obtain ⟨later, behind, room⟩ := router_room fair start
  obtain ⟨moved, at_moved, place⟩ := beating later behind
  exact unable later behind (able_to_beat at_moved place room)

/-- Every request that has been accepted leaves the store. -/
theorem request_leaves (fair : Fair json file schedule) (prints : ∀ map, ∃ contents, json.to_string map contents = true)
    (message : KeyValueMessage) (start : Nat) :
    ∃ later, start ≤ later ∧ message ∉ ((calm json file).states schedule later).accepted := by
  by_contra always
  simp only [not_exists, not_and, not_not] at always
  obtain ⟨arrived, after, elsewhere⟩ := routed fair message start
  obtain ⟨index, inc, found, had⟩ := (mem_accepted.mp (always arrived after)).resolve_left elsewhere
  have always (later : Nat) (behind : arrived ≤ later) : message ∈ ((calm json file).states schedule later).accepted :=
    always later (Nat.le_trans after behind)
  obtain ⟨last, behind, unable⟩ := actor_stops fair always found had
  have stuck : Stuck json file schedule index message last := by
    refine ⟨unable, fun later beyond => ?_⟩
    have intact := intact_states json file schedule later
    obtain ⟨moved, at_moved, has⟩ := request_stays always found had (Nat.le_trans behind beyond)
    refine ⟨moved, at_moved, has, ?_⟩
    refine (actor_waits at_moved (intact.answering.found_answers at_moved) (intact.succession.fresh _ _ at_moved) has
      (unable later beyond)).resolve_right ?_
    intro beats
    obtain ⟨⟨map, place⟩, _⟩ := beats
    exact beats_on fair (fun other past => unable other (Nat.le_trans beyond past)) at_moved place
  exact stuck.false fair prints

/-- An accepted request gets one answer. -/
theorem accepted_answered (prints : ∀ map, ∃ contents, json.to_string map contents = true) (fair : Fair json file schedule)
    (sent : message ∈ ((calm json file).happened schedule start).filterMap Event.sent?) :
    ∃ answered, start ≤ answered ∧ ∀ later, answered ≤ later →
      (((calm json file).happened schedule later).filterMap Event.completed?).count message = 1 := by
  obtain ⟨answered, after, left⟩ := request_leaves fair prints message start
  have accounted (later : Nat) : Answered ((calm json file).happened schedule later) ((calm json file).states schedule later) :=
    (intact_states json file schedule later).answered
  have sent_by (later : Nat) (behind : start ≤ later) :
      message ∈ ((calm json file).happened schedule later).filterMap Event.sent? :=
    ((Machine.happened_prefix_of_le behind).filterMap _).subset sent
  have completed : message ∈ ((calm json file).happened schedule answered).filterMap Event.completed? :=
    (List.mem_append.mp ((accounted answered).2.symm.subset (sent_by answered after))).resolve_right left
  refine ⟨answered, after, fun later behind => ?_⟩
  obtain ⟨unique, whole⟩ := accounted later
  refine List.count_eq_one_of_mem (List.nodup_append.mp (whole.nodup_iff.mpr unique)).1 ?_
  exact ((Machine.happened_prefix_of_le behind).filterMap _).subset completed

/-- No accepted request is answered twice or lost, across any number of resets that
meet a quiet actor. Where at most 32 are in flight and the parties take their
turns, each is answered in the end. -/
theorem requests_answered (prints : ∀ map, ∃ contents, json.to_string map contents = true) :
    (∀ trace state, (patient json file).Reaches trace state → Answered trace state) ∧
      ∀ schedule, Fair json file schedule → ∀ start message,
        message ∈ ((calm json file).happened schedule start).filterMap Event.sent? → ∃ answered, start ≤ answered ∧
          ∀ later, answered ≤ later → (((calm json file).happened schedule later).filterMap Event.completed?).count message = 1 :=
  ⟨fun _ _ => patient_answered, fun _ fair _ _ sent => accepted_answered prints fair sent⟩

/-- Prints every map. -/
def printingJson : Json where
  to_string map contents := decide (contents = (texts.find? fun entry => entry.1 = map).elim [] Prod.snd)
  from_str := textsJson.from_str

theorem ActorStep.running {own : ActorEvent} (stepped : ActorStep inc own after) : inc.actor.isStopped = false := by
  cases stepped with
  | start place | takeMap place | panic place | recv place | pass place | refuse place | log place | answer place
  | timeout place | heartbeat place | close place => rw [place]; rfl
  | cancel _ awaits =>
    cases place : inc.actor with
    | stopped => rw [place] at awaits; cases awaits
    | _ => rfl

theorem WriterStep.running {pair moved : Pair} {own : WriterEvent} (stepped : WriterStep json pair own moved) :
    pair.inc.writer.isEnded = false := by
  cases stepped with
  | «open» place | read place | parse place | create place | recv place | setLen place | seek place | write place
  | flush place | timeout place | heartbeat place | close place => rw [place]; rfl
  | unreadable place => rcases place with place | ⟨_, place⟩ <;> rw [place] <;> rfl
  | fail writing =>
    cases place : pair.inc.writer with
    | ended => rw [place] at writing; cases writing
    | _ => rfl

/-- Who has come to an end takes no steps, nor do incarnations that there are not. -/
theorem not_able_ended
    (ended : ∀ inc, state.incarnations[index]? = some inc → inc.actor.isStopped = true ∧ inc.writer.isEnded = true) :
    ¬ state.able json (.keyValue index) ∧ ¬ state.able json (.writer index) := by
  constructor
  · intro able
    obtain ⟨event, next, own, moves⟩ := able
    cases system_cases moves with
    | actor found stepped | actorBeat found stepped =>
      cases own
      exact Bool.false_ne_true (stepped.running.symm.trans (ended _ found).1)
    | _ => simp [Event.party?] at own
  · intro able
    obtain ⟨event, next, own, moves⟩ := able
    cases system_cases moves with
    | writer found stepped | writerBeat found stepped =>
      cases own
      exact Bool.false_ne_true (stepped.running.symm.trans (ended _ found).2)
    | _ => simp [Event.party?] at own

/-- An actor logs a `set` and is reset. It answers, and its writer takes the entry
and writes the file. -/
def resetAfterLog : List Event :=
  startUp ++ [.writer 0 .setLen, .writer 0 .seek, .writer 0 (.write 2), .writer 0 .flush, .call (.set "a" [1] 0),
    .send (.set "a" [1] 0), .route, .forward, .actor 0 .recv, .actor 0 .log, .reset .keyValue, .route,
    .actor 0 (.answer (.set "a" [1] 0) .done), .actor 0 .cancel, .wakeUp,
    .writer 0 (.recv [123, 34, 97, 34, 58, 91, 49, 93, 125]), .writer 0 .setLen, .writer 0 .seek, .writer 0 (.write 9),
    .writer 0 .flush, .writer 0 .close]

/-- The next actor and its writer start. -/
def nextStarts : List Event :=
  [.actor 1 .start, .writer 1 .open, .writer 1 (.read 9), .writer 1 .parse, .writer 1 .create,
    .writer 1 (.recv [123, 34, 97, 34, 58, 91, 49, 93, 125]), .writer 1 .setLen, .writer 1 .seek, .writer 1 (.write 9),
    .writer 1 .flush, .actor 1 .takeMap]

/-- The writer's turn, and those who take its heartbeat and the actor's. -/
def beats : List Event :=
  [.actor 1 .heartbeat, .route, .forward, .heartbeat, .writer 1 .timeout, .writer 1 .heartbeat, .route, .forward, .heartbeat]

/-- After the reset the new actor and its writer beat for ever. -/
def reset_after_log : Nat → Event := Machine.lasso (resetAfterLog ++ nextStarts) (.actor 1 .timeout) beats

theorem fair_reset_after_log : Fair printingJson none reset_after_log := by
  let ended (state : System) : Bool :=
    state.incarnations.length == 2 && (state.incarnations[0]?).all fun inc => inc.actor.isStopped && inc.writer.isEnded
  obtain ⟨start, runs, round, test⟩ : ∃ start, (calm printingJson none).Reaches (resetAfterLog ++ nextStarts) start ∧
      (calm printingJson none).runFrom start (.actor 1 .timeout :: beats) = some start ∧
      ∀ before ∈ (Event.actor 1 .timeout :: beats).inits, ((calm printingJson none).runFrom start before).all ended = true :=
    ⟨_, rfl, rfl, by decide +kernel⟩
  have rests {index : Nat} (other : index ≠ 1) {before : List Event} {state : System}
      (part : before <+: .actor 1 .timeout :: beats)
      (here : (calm printingJson none).runFrom start before = some state) :
      ¬ state.able printingJson (.keyValue index) ∧ ¬ state.able printingJson (.writer index) := by
    have tested := test before ((List.mem_inits ..).mpr part)
    simp only [here, Option.all_some, ended, Bool.and_eq_true, beq_iff_eq] at tested
    apply not_able_ended
    intro inc found
    have inside := (List.getElem?_eq_some_iff.mp found).1
    have first : index = 0 := by omega
    subst first
    simpa [found] using tested.2
  intro party
  apply Machine.lasso_fair runs round
  cases party with
  | router => exact .inl ⟨.route, by decide, rfl⟩
  | heartbeat => exact .inl ⟨.heartbeat, by decide, rfl⟩
  | keyValue index =>
    by_cases own : index = 1
    · exact .inl ⟨.actor 1 .timeout, by decide, by rw [own]; rfl⟩
    · exact .inr fun before state part here => (rests own part here).1
  | writer index =>
    by_cases own : index = 1
    · exact .inl ⟨.writer 1 .timeout, by decide, by rw [own]; rfl⟩
    · exact .inr fun before state part here => (rests own part here).2

/-- The `set` that was logged before the reset is answered. -/
theorem requests_answered_logged :
    (∃ state, (patient printingJson none).Reaches resetAfterLog state ∧ Answered resetAfterLog state) ∧
      ∃ answered, 16 ≤ answered ∧ ∀ later, answered ≤ later →
        (((calm printingJson none).happened reset_after_log later).filterMap Event.completed?).count (.set "a" [1] 0) = 1 := by
  have prints (map : Map) : ∃ contents, printingJson.to_string map contents = true := ⟨_, decide_eq_true rfl⟩
  obtain ⟨safe, live⟩ := @requests_answered printingJson none prints
  refine ⟨?_, live reset_after_log fair_reset_after_log 16 _ (by decide +kernel)⟩
  obtain ⟨state, reaches⟩ : ∃ state, (patient printingJson none).Reaches resetAfterLog state := ⟨_, rfl⟩
  exact ⟨state, reaches, safe _ _ reaches⟩

end RustAsyncAwait.KeyValueStore
