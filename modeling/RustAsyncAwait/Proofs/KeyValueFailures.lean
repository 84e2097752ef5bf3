import RustAsyncAwait.Proofs.KeyValueRequests
import RustAsyncAwait.Proofs.KeyValueRestart

/-! Errors of the file. An error ends the writer for good, but the actor goes on
to acknowledge writes, whose log entries nobody takes. -/

namespace RustAsyncAwait.KeyValueStore
open Library

/-- The log entry of the write that an event acknowledges. -/
def ActorEvent.write? (event : ActorEvent) : Option WriterLogMessage :=
  event.answered?.bind fun answered => WriterLogMessage.from_key_value_message answered.1

/-- The writes that have been acknowledged, in this order. -/
def acknowledgedWrites (trace : List Event) : List WriterLogMessage :=
  (responses Event.answered? trace).filterMap fun answered => WriterLogMessage.from_key_value_message answered.1

/-- Each acknowledged write has been applied to the map of a running writer, after
the map it started with, or is queued in its channel. -/
def Kept (trace : List Event) (state : System) : Prop :=
  acknowledgedWrites trace = [] ∨ ∃ inc ∈ state.incarnations, ∃ start applied,
    inc.reply = some start ∧ inc.writer.map? = some (replay start applied) ∧
      acknowledgedWrites trace <+: applied ++ inc.log

/-- An operation on the file has failed since it was created. -/
def WriterFails (trace : List Event) : Prop := [Event.writer 0 .create, .writer 0 .fail].Sublist trace

/-- The entry that is in the log before its write is acknowledged. -/
def KeyValueActor.entry : KeyValueActor → List WriterLogMessage
  | answer _ message => (WriterLogMessage.from_key_value_message message).toList
  | _ => []

/-- Up to `File::create`. -/
def WriterActor.starts : WriterActor → Bool
  | «open» | read _ | create _ => true
  | _ => false

/-- After the first message. -/
def WriterActor.serves : WriterActor → Bool
  | recv _ | setLen _ _ | seek _ _ | write _ _ _ | heartbeat _ => true
  | _ => false

/-- What has become of the log entries, in each phase of the store's life. -/
inductive Ledger (writes : List WriterLogMessage) (created failed : Prop) (inc : Incarnation) : Prop
  | unspawned (fresh : inc.actor = .start) (writer : inc.writer = .unspawned) (silent : inc.reply = none)
      (none : writes = []) (uncreated : ¬ created) (working : ¬ failed)
  | starting (waits : inc.actor = .awaitMap) (writer : inc.writer.starts = true) (asked : inc.log = [.get])
      (silent : inc.reply = none) (none : writes = []) (uncreated : ¬ created) (working : ¬ failed)
  | opened {map : Map} (waits : inc.actor = .awaitMap) (writer : inc.writer = .recv map) (asked : inc.log = [.get])
      (silent : inc.reply = none) (none : writes = []) (made : created) (working : ¬ failed)
  | dead (waits : inc.actor = .awaitMap ∨ inc.actor = .stopped) (writer : inc.writer = .ended) (silent : inc.reply = none)
      (none : writes = []) (working : ¬ failed)
  | serving {start : Map} {applied : List WriterLogMessage} (alive : inc.actor ≠ .start ∧ inc.actor ≠ .stopped)
      (writer : inc.writer.serves = true) (map : inc.writer.map? = some (replay start applied))
      (replied : inc.reply = some start) (entries : applied ++ inc.log = writes ++ inc.actor.entry)
      (answered : .get ∉ inc.log) (none : inc.actor = .awaitMap → writes = []) (made : created) (working : ¬ failed)
  | ended {start : Map} (alive : inc.actor ≠ .start ∧ inc.actor ≠ .stopped) (writer : inc.writer = .ended)
      (replied : inc.reply = some start) (none : inc.actor = .awaitMap → writes = []) (broken : failed)

namespace Ledger
variable {writes : List WriterLogMessage} {created failed : Prop} {inc next : Incarnation}

theorem received (ledger : Ledger writes created failed inc) (inbox : List KeyValueMessage) :
    Ledger writes created failed { inc with inbox := inbox } := by
  cases ledger with
  | unspawned fresh writer silent none uncreated working => exact .unspawned fresh writer silent none uncreated working
  | starting waits writer asked silent none uncreated working => exact .starting waits writer asked silent none uncreated working
  | opened waits writer asked silent none made working => exact .opened waits writer asked silent none made working
  | dead waits writer silent none working => exact .dead waits writer silent none working
  | serving alive writer map replied entries answered none made working =>
    exact .serving alive writer map replied entries answered none made working
  | ended alive writer replied none broken => exact .ended alive writer replied none broken

/-- The actor has its map, and goes to another place with it. -/
theorem moves (ledger : Ledger writes created failed inc) (event : ActorEvent)
    (served : inc.actor ≠ .start ∧ inc.actor ≠ .awaitMap ∧ inc.actor ≠ .stopped)
    (alive : next.actor ≠ .start ∧ next.actor ≠ .awaitMap ∧ next.actor ≠ .stopped) (reply : next.reply = inc.reply)
    (writer : next.writer = inc.writer)
    (entries : inc.writer.isEnded = false → ∃ sent, next.log = inc.log ++ sent ∧ .get ∉ sent ∧
      inc.actor.entry ++ sent = event.write?.toList ++ next.actor.entry) :
    Ledger (writes ++ event.write?.toList) created failed next := by
  cases ledger with
  | unspawned fresh _ _ _ _ _ => exact absurd fresh served.1
  | starting waits _ _ _ _ _ _ | opened waits _ _ _ _ _ _ => exact absurd waits served.2.1
  | dead waits _ _ _ _ =>
    rcases waits with waits | stopped
    · exact absurd waits served.2.1
    · exact absurd stopped served.2.2
  | serving _ serves map replied written answered _ made working =>
    obtain ⟨sent, log, other, same⟩ := entries (by cases place : inc.writer <;> simp [place, WriterActor.serves] at serves ⊢)
    refine .serving ⟨alive.1, alive.2.2⟩ (writer ▸ serves) (writer ▸ map) (reply.trans replied) ?_ ?_
      (fun waits => absurd waits alive.2.1) made working
    · rw [log, ← List.append_assoc, written, List.append_assoc, same, List.append_assoc]
    · rw [log, List.mem_append]
      exact fun member => member.elim answered other
  | ended _ finished replied _ broken =>
    exact .ended ⟨alive.1, alive.2.2⟩ (writer.trans finished) (reply.trans replied) (fun waits => absurd waits alive.2.1) broken

theorem from_ne_get (message : KeyValueMessage) : .get ∉ (WriterLogMessage.from_key_value_message message).toList := by
  cases message <;> simp [WriterLogMessage.from_key_value_message]

theorem actor (ledger : Ledger writes created failed inc) (unclosed : inc.closed = false) (unaborted : inc.aborted = false)
    {event : ActorEvent} (stepped : ActorStep inc event next) :
    Ledger (writes ++ event.write?.toList) created failed next := by
  cases stepped with
  | start fresh =>
    cases ledger with
    | unspawned _ writer silent none uncreated working =>
      exact .starting rfl rfl rfl silent (by simpa [ActorEvent.write?] using none) uncreated working
    | starting other _ _ _ _ _ _ | opened other _ _ _ _ _ _ =>
      rw [fresh] at other
      cases other
    | dead other _ _ _ _ => simp [fresh] at other
    | serving alive _ _ _ _ _ _ _ _ | ended alive _ _ _ _ => exact absurd fresh alive.1
  | takeMap waits replied =>
    cases ledger with
    | unspawned fresh _ _ _ _ _ =>
      rw [waits] at fresh
      cases fresh
    | starting _ _ _ silent _ _ _ | opened _ _ _ silent _ _ _ | dead _ _ silent _ _ =>
      rw [silent] at replied
      cases replied
    | serving alive writer map started entries answered none made working =>
      rw [waits] at entries
      exact .serving ⟨by simp, by simp⟩ writer map started (by simpa [ActorEvent.write?, KeyValueActor.entry] using entries) answered
        (fun other => by cases other) made working
    | ended alive writer started none broken =>
      exact .ended ⟨by simp, by simp⟩ writer started (fun other => by cases other) broken
  | panic waits silent finished =>
    cases ledger with
    | unspawned _ writer _ _ _ _ | opened _ writer _ _ _ _ _ =>
      rw [finished] at writer
      cases writer
    | starting _ writer _ _ _ _ _ | serving _ writer _ _ _ _ _ _ _ =>
      rw [finished] at writer
      cases writer
    | dead _ _ _ none working => exact .dead (.inr rfl) finished silent (by simpa [ActorEvent.write?] using none) working
    | ended _ _ replied _ _ =>
      rw [silent] at replied
      cases replied
  | recv idle front =>
    exact ledger.moves _ (by simp [idle]) (by simp) rfl rfl fun _ => ⟨[], by simp, by simp, by simp [idle, KeyValueActor.entry, ActorEvent.write?]⟩
  | pass held unlogged =>
    exact ledger.moves _ (by simp [held]) (by simp) rfl rfl fun _ =>
      ⟨[], by simp, by simp, by simp [held, KeyValueActor.entry, unlogged, ActorEvent.write?]⟩
  | refuse held logged finished =>
    refine ledger.moves _ (by simp [held]) (by simp) rfl rfl fun running => ?_
    rw [finished] at running
    cases running
  | @log map message entry held logged running room =>
    refine ledger.moves _ (by simp [held]) (by simp) rfl rfl fun _ => ⟨[entry], rfl, ?_, ?_⟩
    · have other := from_ne_get message
      simpa [logged] using other
    · simp [held, KeyValueActor.entry, logged, ActorEvent.write?]
  | @answer map message held =>
    refine ledger.moves _ (by simp [held]) (by simp) rfl rfl fun _ => ⟨[], by simp, by simp, ?_⟩
    simp [held, KeyValueActor.entry, ActorEvent.write?]
  | timeout idle _ _ =>
    exact ledger.moves _ (by simp [idle]) (by simp) rfl rfl fun _ => ⟨[], by simp, by simp, by simp [idle, KeyValueActor.entry, ActorEvent.write?]⟩
  | heartbeat beats =>
    exact ledger.moves _ (by simp [beats]) (by simp) rfl rfl fun _ => ⟨[], by simp, by simp, by simp [beats, KeyValueActor.entry, ActorEvent.write?]⟩
  | close _ _ closed =>
    rw [unclosed] at closed
    cases closed
  | cancel aborted _ =>
    rw [unaborted] at aborted
    cases aborted

/-- A writer's step before its first message. -/
theorem writer_starts {json : Json} {pair next : Pair} {event : WriterEvent} (stepped : WriterStep json pair event next)
    (starts : pair.inc.writer.starts = true) :
    next.inc.log = pair.inc.log ∧ next.inc.reply = pair.inc.reply ∧
      (next.inc.writer.starts = true ∧ event ≠ .create ∨ (∃ map, next.inc.writer = .recv map) ∧ event = .create ∨
        next.inc.writer = .ended ∧ event = .fail) := by
  cases stepped with
  | «open» place =>
    refine ⟨rfl, rfl, .inl ⟨?_, by simp⟩⟩
    cases pair.file <;> rfl
  | read _ _ _ | parse _ _ _ | unreadable _ => exact ⟨rfl, rfl, .inl ⟨rfl, by simp⟩⟩
  | create _ => exact ⟨rfl, rfl, .inr (.inl ⟨⟨_, rfl⟩, rfl⟩)⟩
  | fail _ => exact ⟨rfl, rfl, .inr (.inr ⟨rfl, rfl⟩)⟩
  | recv place _ _ | setLen place | seek place | write place _ _ | flush place | timeout place _ _ | heartbeat place
  | close place _ _ =>
    rw [place] at starts
    cases starts

theorem writer_runs {json : Json} {pair next : Pair} {event : WriterEvent} (stepped : WriterStep json pair event next) :
    pair.inc.writer ≠ .unspawned ∧ pair.inc.writer ≠ .ended := by
  cases stepped with
  | «open» place | read place _ _ | parse place _ _ | create place | recv place _ _ | setLen place | seek place
  | write place _ _ | flush place | timeout place _ _ | heartbeat place | close place _ _ => simp [place]
  | unreadable place => rcases place with place | ⟨contents, place⟩ <;> simp [place]
  | fail place => cases writer : pair.inc.writer <;> simp [writer, WriterActor.writing] at place ⊢

/-- A writer's step after it has created the file. -/
theorem writer_serves {json : Json} {pair next : Pair} {event : WriterEvent} (stepped : WriterStep json pair event next)
    (serves : pair.inc.writer.serves = true) (running : pair.inc.actor.isStopped = false) :
    event = .fail ∧ next.inc.writer = .ended ∧ next.inc.reply = pair.inc.reply ∨
      event ≠ .fail ∧ next.inc.writer.serves = true ∧ ∃ taken, pair.inc.log = taken ++ next.inc.log ∧
        (∀ map, pair.inc.writer.map? = some map → next.inc.writer.map? = some (replay map taken) ∧
          next.inc.reply = if .get ∈ taken then some (replay map taken) else pair.inc.reply) := by
  cases stepped with
  | «open» place | read place _ _ | parse place _ _ | create place =>
    rw [place] at serves
    cases serves
  | unreadable place => rcases place with place | ⟨contents, place⟩ <;> rw [place] at serves <;> cases serves
  | @recv map entry rest contents place front printed =>
    refine .inr ⟨by simp, rfl, [entry], front, fun held same => ?_⟩
    rw [place] at same
    cases same
    refine ⟨rfl, ?_⟩
    simp only [List.mem_singleton, eq_comm (a := WriterLogMessage.get)]
    rfl
  | setLen place | seek place | write place _ _ | flush place | timeout place _ _ | heartbeat place =>
    refine .inr ⟨by simp, rfl, [], rfl, fun held same => ⟨?_, rfl⟩⟩
    rw [place] at same
    exact same
  | close place _ stopped =>
    rw [running] at stopped
    cases stopped
  | fail _ => exact .inl ⟨rfl, rfl, rfl⟩

theorem writer {json : Json} {file : Option Bytes} {event : WriterEvent} {next : Pair}
    (ledger : Ledger writes created failed inc) (stepped : WriterStep json ⟨inc, file⟩ event next) :
    Ledger writes (created ∨ event = .create) (failed ∨ created ∧ event = .fail) next.inc := by
  obtain ⟨spawned, unended⟩ := writer_runs stepped
  obtain ⟨actor, _, _, _⟩ := stepped.actor_eq
  simp only at spawned unended actor
  cases ledger with
  | unspawned _ place _ _ _ _ => exact absurd place spawned
  | dead _ place _ _ _ | ended _ place _ _ _ => exact absurd place unended
  | starting waits starts asked silent none uncreated working =>
    obtain ⟨log, reply, moved⟩ := writer_starts stepped starts
    have works : ¬ (failed ∨ created ∧ event = .fail) := fun broken => broken.elim working fun fails => uncreated fails.1
    rcases moved with ⟨starts, other⟩ | ⟨⟨map, opened⟩, rfl⟩ | ⟨finished, rfl⟩
    · exact .starting (actor.trans waits) starts (log.trans asked) (reply.trans silent) none
        (fun made => made.elim uncreated other) works
    · exact .opened (actor.trans waits) opened (log.trans asked) (reply.trans silent) none (.inr rfl) works
    · exact .dead (.inl (actor.trans waits)) finished (reply.trans silent) none works
  | opened waits place asked silent none made working =>
    cases stepped with
    | @recv map entry rest contents idle front printed =>
      simp only at front
      rw [asked, List.cons.injEq] at front
      obtain ⟨rfl, rfl⟩ := front
      refine @serving _ _ _ _ _ [] ⟨by simp [waits], by simp [waits]⟩ rfl rfl rfl ?_ (by simp) (fun _ => none) (.inl made)
        (by simpa using working)
      simp [none, waits, KeyValueActor.entry]
    | timeout _ empty _ | close _ empty _ =>
      simp only at empty
      rw [asked] at empty
      cases empty
    | «open» other | read other _ _ | parse other _ _ | create other | setLen other | seek other | write other _ _
    | flush other | heartbeat other =>
      simp only at other
      rw [place] at other
      cases other
    | unreadable other =>
      simp only [place] at other
      rcases other with other | ⟨contents, other⟩ <;> cases other
    | fail other =>
      simp only [place] at other
      cases other
  | @serving start applied alive serves map replied entries answered none made working =>
    have running : inc.actor.isStopped = false := by cases place : inc.actor <;> simp_all
    rcases writer_serves stepped serves running with ⟨rfl, finished, reply⟩ | ⟨other, serves, taken, log, maps⟩
    · rw [← actor] at alive none
      exact .ended alive finished (reply.trans replied) none (.inr ⟨made, rfl⟩)
    · obtain ⟨held, reply⟩ := maps _ map
      simp only at log reply
      have unasked : .get ∉ taken := fun member => answered (log ▸ List.mem_append_left _ member)
      rw [if_neg unasked] at reply
      rw [← replay_append] at held
      rw [← actor] at alive none entries
      refine .serving alive serves held (reply.trans replied) ?_ (fun member => answered ?_) none (.inl made) ?_
      · rw [List.append_assoc, ← log, entries]
      · rw [log]
        exact List.mem_append_right _ member
      · exact fun broken => broken.elim working fun fails => other fails.2

end Ledger

/-- There is one incarnation and no `Reset` on its way. -/
structure Alone (trace : List Event) (state : System) (inc : Incarnation) : Prop where
  unreset : ∀ actor, .reset actor ∉ state.routerChannel
  single : state.incarnations = [inc]
  opened : inc.closed = false
  unaborted : inc.aborted = false
  ledger : Ledger (acknowledgedWrites trace) (.writer 0 .create ∈ trace) (WriterFails trace) inc

section Step
variable {json : Json} {file : Option Bytes} {trace : List Event} {state next : System} {event : Event}

theorem acknowledgedWrites_snoc (trace : List Event) (index : Nat) (event : ActorEvent) :
    acknowledgedWrites (trace ++ [.actor index event]) = acknowledgedWrites trace ++ event.write?.toList := by
  rw [acknowledgedWrites, responses_snoc, List.filterMap_append, acknowledgedWrites, ActorEvent.write?, Event.answered?]
  cases event.answered? with
  | none => rfl
  | some answered => cases answered.1 <;> rfl

theorem writerFails_snoc : WriterFails (trace ++ [event]) ↔ WriterFails trace ∨ .writer 0 .create ∈ trace ∧ event = .writer 0 .fail := by
  rw [WriterFails, before_snoc, eq_comm (a := Event.writer 0 .fail)]
  rfl

theorem Ledger.later {inc : Incarnation}
    (ledger : Ledger (acknowledgedWrites trace) (.writer 0 .create ∈ trace) (WriterFails trace) inc)
    (unanswered : event.answered? = none) (other : ∀ event', event ≠ .writer 0 event') :
    Ledger (acknowledgedWrites (trace ++ [event])) (.writer 0 .create ∈ trace ++ [event]) (WriterFails (trace ++ [event])) inc := by
  have created : (Event.writer 0 .create ∈ trace ++ [event]) = (Event.writer 0 .create ∈ trace) := by
    simp [Ne.symm (other .create)]
  have fails : WriterFails (trace ++ [event]) = WriterFails trace := by
    simp [writerFails_snoc, other .fail]
  have same : acknowledgedWrites (trace ++ [event]) = acknowledgedWrites trace := by
    rw [acknowledgedWrites, responses_snoc, unanswered, Option.toList_none, List.append_nil, acknowledgedWrites]
  rwa [created, fails, same]

theorem Alone.acts {inc moved : Incarnation} {event : ActorEvent} (alone : Alone trace state inc)
    (stepped : ActorStep inc event moved) :
    moved.closed = false ∧ moved.aborted = false ∧ Ledger (acknowledgedWrites (trace ++ [.actor 0 event]))
      (.writer 0 .create ∈ trace ++ [.actor 0 event]) (WriterFails (trace ++ [.actor 0 event])) moved := by
  have ledger := alone.ledger.actor alone.opened alone.unaborted stepped
  have created : (Event.writer 0 .create ∈ trace ++ [.actor 0 event]) = (Event.writer 0 .create ∈ trace) := by simp
  have fails : WriterFails (trace ++ [.actor 0 event]) = WriterFails trace := by simp [writerFails_snoc]
  rw [created, fails, acknowledgedWrites_snoc]
  refine ⟨?_, ?_, ledger⟩
  · cases stepped <;> exact alone.opened
  · cases stepped <;> exact alone.unaborted

theorem Alone.writes {inc : Incarnation} {event : WriterEvent} {moved : Pair} (alone : Alone trace state inc)
    (stepped : WriterStep json ⟨inc, state.file⟩ event moved) :
    moved.inc.closed = false ∧ moved.inc.aborted = false ∧ Ledger (acknowledgedWrites (trace ++ [.writer 0 event]))
      (.writer 0 .create ∈ trace ++ [.writer 0 event]) (WriterFails (trace ++ [.writer 0 event])) moved.inc := by
  obtain ⟨_, _, closed, aborted⟩ := stepped.actor_eq
  have ledger := alone.ledger.writer stepped
  have created : (Event.writer 0 .create ∈ trace ++ [.writer 0 event]) = (Event.writer 0 .create ∈ trace ∨ event = .create) := by
    simp [eq_comm]
  have fails : WriterFails (trace ++ [.writer 0 event]) =
      (WriterFails trace ∨ Event.writer 0 .create ∈ trace ∧ event = .fail) := by
    simp [writerFails_snoc]
  have same : acknowledgedWrites (trace ++ [.writer 0 event]) = acknowledgedWrites trace := by
    rw [acknowledgedWrites, responses_snoc, show (Event.writer 0 event).answered? = none from rfl, Option.toList_none,
      List.append_nil, acknowledgedWrites]
  rw [created, fails, same]
  exact ⟨closed.trans alone.opened, aborted.trans alone.unaborted, ledger⟩

theorem Alone.step {inc : Incarnation} (alone : Alone trace state inc) (unreset : ∀ actor, event ≠ .reset actor)
    (stepped : SystemStep json state event next) : ∃ moved, Alone (trace ++ [event]) next moved := by
  have single := alone.single
  have last : state.current = 0 := by simp [System.current, single]
  cases stepped with
  | call _ | refuse _ _ _ | forwardBeat _ _ | wakeUp _ | heartbeat _ =>
    exact ⟨inc, alone.unreset, single, alone.opened, alone.unaborted, alone.ledger.later rfl (by simp)⟩
  | send _ _ =>
    exact ⟨inc, by simpa using alone.unreset, single, alone.opened, alone.unaborted, alone.ledger.later rfl (by simp)⟩
  | @reset actor _ => exact absurd rfl (unreset actor)
  | routeMessage _ front | routeBeat _ front =>
    have earlier := alone.unreset
    rw [front] at earlier
    exact ⟨inc, fun actor member => earlier actor (List.mem_cons_of_mem _ member), single, alone.opened, alone.unaborted,
      alone.ledger.later rfl (by simp)⟩
  | @routeReset actor rest idle front =>
    have earlier := alone.unreset
    rw [front] at earlier
    exact absurd (List.mem_cons_self ..) (earlier actor)
  | @forward message _ holds found running room =>
    rw [last, single] at found
    obtain ⟨_, rfl⟩ := singleton_getElem?.mp found
    exact ⟨{ inc with inbox := inc.inbox ++ [message] }, alone.unreset, by simp [System.update, last, single], alone.opened,
      alone.unaborted, (alone.ledger.received _).later rfl (by simp)⟩
  | @actor index event _ moved found stepped _ =>
    rw [single] at found
    obtain ⟨rfl, rfl⟩ := singleton_getElem?.mp found
    obtain ⟨opened, unaborted, ledger⟩ := alone.acts stepped
    exact ⟨moved, alone.unreset, by simp [System.update, single], opened, unaborted, ledger⟩
  | @actorBeat index _ moved found stepped _ =>
    rw [single] at found
    obtain ⟨rfl, rfl⟩ := singleton_getElem?.mp found
    obtain ⟨opened, unaborted, ledger⟩ := alone.acts stepped
    exact ⟨moved, by simpa [System.update] using alone.unreset, by simp [System.update, single], opened, unaborted, ledger⟩
  | @writer index event _ moved found stepped _ =>
    rw [single] at found
    obtain ⟨rfl, rfl⟩ := singleton_getElem?.mp found
    obtain ⟨opened, unaborted, ledger⟩ := alone.writes stepped
    exact ⟨moved.inc, alone.unreset, by simp [System.update, single], opened, unaborted, ledger⟩
  | @writerBeat index _ moved found stepped _ =>
    rw [single] at found
    obtain ⟨rfl, rfl⟩ := singleton_getElem?.mp found
    obtain ⟨opened, unaborted, ledger⟩ := alone.writes stepped
    exact ⟨moved.inc, by simpa [System.update] using alone.unreset, by simp [System.update, single], opened, unaborted, ledger⟩

theorem reaches_alone (reaches : (store json file).Reaches trace state) (unreset : ∀ actor, .reset actor ∉ trace) :
    ∃ inc, Alone trace state inc := by
  revert unreset
  refine reaches.trace_invariant (fun trace state => (∀ actor, .reset actor ∉ trace) → ∃ inc, Alone trace state inc) ?_ ?_
  · intro _
    exact ⟨{}, fun _ => List.not_mem_nil, rfl, rfl, rfl, .unspawned rfl rfl rfl rfl (by simp) (by simp [WriterFails])⟩
  · intro trace state event next _ held stepped unreset
    obtain ⟨inc, alone⟩ := held fun actor member => unreset actor (List.mem_append_left _ member)
    refine alone.step (fun actor same => unreset actor ?_) (system_cases stepped)
    rw [same]
    exact List.mem_append_right _ (List.mem_singleton_self _)

end Step

/-- The acknowledged writes are kept as long as no operation on the file has failed. -/
theorem writes_kept_iff {json : Json} {file : Option Bytes} {trace : List Event} {state : System}
    (reaches : (store json file).Reaches trace state) (unreset : ∀ actor, .reset actor ∉ trace) :
    Kept trace state ↔ acknowledgedWrites trace = [] ∨ ¬ WriterFails trace := by
  obtain ⟨inc, alone⟩ := reaches_alone reaches unreset
  cases alone.ledger with
  | unspawned _ _ _ none _ _ | starting _ _ _ _ none _ _ | opened _ _ _ _ none _ _ | dead _ _ _ none _ =>
    exact iff_of_true (.inl none) (.inl none)
  | @serving start applied _ _ map replied entries _ _ _ working =>
    refine iff_of_true (.inr ⟨inc, by simp [alone.single], start, applied, replied, map, ?_⟩) (.inr working)
    rw [entries]
    exact List.prefix_append _ _
  | ended _ finished _ _ broken =>
    constructor
    · intro either
      rcases either with none | ⟨other, member, start, applied, _, map, _⟩
      · exact .inl none
      · rw [alone.single, List.mem_singleton] at member
        rw [member, finished] at map
        cases map
    · exact fun either => .inl (either.resolve_right fun working => working broken)

/-- After a failed load, one write is in the writer's map, and the next one in its channel. -/
theorem writes_kept_iff_two :
    let start : List Event := [.actor 0 .start, .writer 0 .open, .writer 0 .fail, .writer 0 .create,
      .writer 0 (.recv [123, 125]), .actor 0 .takeMap]
    let set (response : Nat) : List Event := [.call (.set "a" [1] response), .send (.set "a" [1] response), .route, .forward,
      .actor 0 .recv, .actor 0 .log, .actor 0 (.answer (.set "a" [1] response) .done)]
    let write : List Event := [.writer 0 .setLen, .writer 0 .seek, .writer 0 (.write 2), .writer 0 .flush,
      .writer 0 (.recv [123, 34, 97, 34, 58, 91, 49, 93, 125])]
    ∃ state, (store textsJson (some [])).Reaches (start ++ set 0 ++ write ++ set 1) state ∧
      (Kept (start ++ set 0 ++ write ++ set 1) state ↔
        acknowledgedWrites (start ++ set 0 ++ write ++ set 1) = [] ∨ ¬ WriterFails (start ++ set 0 ++ write ++ set 1)) := by
  intro start set write
  obtain ⟨state, reaches⟩ : ∃ state, (store textsJson (some [])).Reaches (start ++ set 0 ++ write ++ set 1) state := ⟨_, rfl⟩
  exact ⟨state, reaches, writes_kept_iff reaches (by simp [start, set, write])⟩

/-- The first write to the file fails, and a `set` is acknowledged all the same. -/
theorem write_lost :
    ¬ ∀ json file trace state, (store json file).Reaches trace state → (∀ actor, .reset actor ∉ trace) → Kept trace state := by
  intro always
  let trace : List Event := [.actor 0 .start, .writer 0 .open, .writer 0 .create, .writer 0 (.recv [123, 125]),
    .writer 0 .fail, .actor 0 .takeMap, .call (.set "a" [1] 0), .send (.set "a" [1] 0), .route, .forward,
    .actor 0 .recv, .actor 0 .log, .actor 0 (.answer (.set "a" [1] 0) .done)]
  rcases always textsJson none trace _ rfl (by simp [trace]) with none | ⟨inc, member, start, applied, _, map, _⟩
  · revert none
    decide
  · obtain rfl := List.mem_singleton.mp member
    cases map

end RustAsyncAwait.KeyValueStore
