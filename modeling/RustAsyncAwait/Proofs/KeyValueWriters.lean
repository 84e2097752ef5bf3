import RustAsyncAwait.Proofs.KeyValueTurns

/-! Who waits for whom. An actor that has a request waits for nobody but its writer,
the writer for nobody but the router, and while the actor waits the writers come
to the end of what they have to do to the file. -/

namespace RustAsyncAwait.KeyValueStore
open Library

variable {json : Json} {file : Option Bytes} {schedule : Nat → Event} {state next : System} {event : Event}
  {inc after : Incarnation} {index start : Nat} {message : KeyValueMessage}

/-- The steps between this place and the next answer. -/
def KeyValueActor.stage : KeyValueActor → Nat
  | .start => 5
  | .awaitMap | .heartbeat _ => 4
  | .recv _ => 3
  | .log _ _ => 2
  | .answer _ _ => 1
  | .stopped => 0

/-- The steps that the actor has to take before it answers the request. -/
def Incarnation.ahead (inc : Incarnation) (message : KeyValueMessage) : Nat :=
  3 * inc.requests.idxOf message + inc.actor.stage

/-- An actor gives up no request that waits at another one's place. -/
theorem ActorStep.ahead_lt {own : ActorEvent} (stepped : ActorStep inc own after) (had : message ∈ inc.requests)
    (has : message ∈ after.requests) (unanswered : own.answered?.map Prod.fst ≠ some message) :
    after.ahead message < inc.ahead message := by
  cases stepped with
  | start place | takeMap place _ | pass place _ | refuse place _ _ | log place _ _ _ | heartbeat place =>
    simp [Incarnation.ahead, Incarnation.requests, place, KeyValueActor.stage]
  | recv idle front => simp [Incarnation.ahead, Incarnation.requests, idle, front, KeyValueActor.stage]
  | @answer map held place =>
    have other : held ≠ message := by simpa using unanswered
    simp only [Incarnation.ahead, Incarnation.requests, place, KeyValueActor.held, KeyValueActor.stage,
      List.singleton_append, List.nil_append, List.idxOf_cons_ne _ other]
    omega
  | timeout idle empty _ => simp [Incarnation.requests, idle, empty] at had
  | panic | close | cancel => simp [Incarnation.requests, Incarnation.stop] at has

theorem Changes.ahead_le (changes : Changes json state event index inc after) (had : message ∈ inc.requests)
    (has : message ∈ after.requests) (unanswered : event.completed? ≠ some message) :
    after.ahead message ≤ inc.ahead message ∧
      (event.party? = some (.keyValue index) → after.ahead message < inc.ahead message) := by
  cases changes with
  | same inert =>
    refine ⟨Nat.le_refl _, fun own => ?_⟩
    cases event with
    | actor other own_event =>
      cases own
      exact absurd rfl (inert.1 own_event)
    | _ => simp [Event.party?] at own
  | @receives received forwards =>
    have same : (inc.actor.held ++ (inc.inbox ++ [received])).idxOf message = inc.requests.idxOf message := by
      rw [← List.append_assoc, List.idxOf_append_of_mem (by exact had), Incarnation.requests]
    subst forwards
    refine ⟨?_, fun own => by simp [Event.party?] at own⟩
    simp only [Incarnation.ahead, Incarnation.requests, same]
    exact Nat.le_refl _
  | replaced routes =>
    subst routes
    exact ⟨Nat.le_refl _, fun own => by simp [Event.party?] at own⟩
  | acts acts stepped =>
    subst acts
    have falls := stepped.ahead_lt had has unanswered
    exact ⟨Nat.le_of_lt falls, fun _ => falls⟩
  | writes writes stepped =>
    subst writes
    obtain ⟨actor, _⟩ := stepped.actor_eq
    refine ⟨?_, fun own => by simp [Event.party?] at own⟩
    rw [Incarnation.ahead, Incarnation.ahead, stepped.requests_eq, actor]

/-- A request that is not answered stays with its actor. -/
theorem Changes.keeps (changes : Changes json state event index inc after) (answers : inc.Answers) (had : message ∈ inc.requests)
    (unanswered : event.completed? ≠ some message) : message ∈ after.requests := by
  cases changes with
  | same | replaced => exact had
  | receives =>
    rw [Incarnation.requests, ← List.append_assoc]
    exact List.mem_append_left _ had
  | acts acts stepped =>
    subst acts
    obtain ⟨dropped, kept, lost⟩ := stepped.requests
    have among := kept.symm.subset had
    rw [List.mem_append, List.mem_append] at among
    rcases among with (stays | answered) | gone
    · exact stays
    · exact absurd (Option.mem_toList.mp answered) unanswered
    · rw [(answers.actor stepped).2.2 (lost message gone).2] at had
      cases had
  | writes _ stepped =>
    rw [stepped.requests_eq]
    exact had

theorem able_of_step {party : Party} (stepped : (calm json file).step state event = some next)
    (own : event.party? = some party) : state.able json party := by
  obtain ⟨_, stepped⟩ := Machine.restrict_step.mp stepped
  exact ⟨event, next, own, (Machine.restrict_step.mp stepped).2⟩

theorem able_to_beat {map : Map} (found : state.incarnations[index]? = some inc) (place : inc.actor = .heartbeat map)
    (room : state.routerChannel.length < capacity) : state.able json (.keyValue index) := by
  let beating := state.update index { inc with actor := .recv map }
  refine ⟨.actor index .heartbeat, { beating with routerChannel := state.routerChannel ++ [.heartbeat .keyValue] }, rfl, ?_⟩
  simp [System.step, found, Incarnation.actorStep, place, System.beat, beating, System.update, room]

/-- An actor that has been aborted is not in the way of its last answer. -/
theorem able_of_quiet (found : state.incarnations[index]? = some inc) (quiet : inc.quiet = true) (had : message ∈ inc.requests) :
    state.able json (.keyValue index) := by
  rw [Incarnation.quiet_iff] at quiet
  obtain ⟨empty, held⟩ := quiet
  rw [Incarnation.requests, empty, List.append_nil] at had
  have stays := held.resolve_left (List.ne_nil_of_mem had)
  cases place : inc.actor with
  | log map other =>
    have unlogged : WriterLogMessage.from_key_value_message other = none := by
      simpa [place, KeyValueActor.cancellable] using stays
    refine ⟨.actor index .log, state.update index { inc with actor := .answer map other }, rfl, ?_⟩
    simp [System.step, found, Incarnation.actorStep, place, unlogged]
  | answer map other =>
    refine ⟨.actor index (.answer other (other.answer map)), state.update index { inc with actor := .recv (other.apply map) },
      rfl, ?_⟩
    simp [System.step, found, Incarnation.actorStep, place]
  | start | awaitMap | recv | heartbeat | stopped =>
    rw [place] at had
    cases had

/-- The actor needs its writer to take a log entry. -/
structure Incarnation.Awaits (inc : Incarnation) : Prop where
  kept : inc.aborted = false
  logged : inc.log ≠ []
  running : inc.writer.isEnded = false
  spawned : inc.writer ≠ .unspawned

/-- What an actor can wait for that has a request. -/
theorem actor_waits (found : state.incarnations[index]? = some inc) (answers : inc.Answers) (fresh : inc.Fresh)
    (had : message ∈ inc.requests) (unable : ¬ state.able json (.keyValue index)) :
    inc.Awaits ∨ (∃ map, inc.actor = .heartbeat map) ∧ capacity ≤ state.routerChannel.length := by
  have stuck (own : ActorEvent) (quiet : own ≠ .heartbeat) : inc.actorStep own = none := by
    by_contra moves
    obtain ⟨moved, stepped⟩ := Option.ne_none_iff_exists'.mp moves
    exact unable ⟨.actor index own, state.update index moved, rfl, by simp [System.step, found, stepped, quiet]⟩
  have kept : inc.aborted = false := by
    by_contra aborted
    exact unable (able_of_quiet found (answers.2 (by simpa using aborted)) had)
  have alive := answers.1 kept
  have spawned : inc.actor ≠ .start → inc.writer ≠ .unspawned := by
    intro later outside
    rcases fresh.2 outside with start | stopped
    · exact later start
    · have running := alive.running
      rw [stopped] at running
      cases running
  cases place : inc.actor with
  | start =>
    have moves := stuck .start (by simp)
    simp [Incarnation.actorStep, place] at moves
  | awaitMap =>
    have silent : inc.reply = none := by
      have moves := stuck .takeMap (by simp)
      simp only [Incarnation.actorStep, place] at moves
      cases reply : inc.reply with
      | none => rfl
      | some map => simp [reply] at moves
    rcases alive.waits silent with ⟨start, _⟩ | ⟨_, log, early⟩
    · cases place.symm.trans start
    · refine .inl ⟨kept, by simp [log], ?_, spawned (by simp [place])⟩
      cases at_place : inc.writer with
      | ended => simp [at_place, WriterActor.early] at early
      | _ => rfl
  | recv map =>
    have moves := stuck .recv (by simp)
    cases front : inc.inbox with
    | nil => simp [Incarnation.requests, place, front] at had
    | cons first rest => simp [Incarnation.actorStep, place, front] at moves
  | log map held =>
    have moves := stuck .log (by simp)
    simp only [Incarnation.actorStep, place] at moves
    cases logged : WriterLogMessage.from_key_value_message held with
    | none => simp [logged] at moves
    | some entry =>
      simp only [logged] at moves
      split at moves
      next => cases moves
      next running =>
        split at moves
        next => cases moves
        next full =>
          refine .inl ⟨kept, ?_, by simpa using running, spawned (by simp [place])⟩
          intro empty
          rw [empty] at full
          exact full (by decide)
  | answer map held =>
    have moves := stuck (.answer held (held.answer map)) (by simp)
    simp [Incarnation.actorStep, place] at moves
  | heartbeat map =>
    refine .inr ⟨⟨map, rfl⟩, ?_⟩
    by_contra room
    exact unable (able_to_beat found place (Nat.lt_of_not_le room))
  | stopped =>
    have running := alive.running
    rw [place] at running
    cases running

/-! While an actor waits for its writer nothing is added to any log, so the writers
come to the end of what they have to do to the file. -/

/-- A step that adds no work to that of the writers: no reset, and no log entry. -/
structure Waning (state : System) (event : Event) : Prop where
  unreset : ∀ actor rest, event = .route → state.router = .recv → state.routerChannel ≠ .reset actor :: rest
  quiet : ∀ other own (inc : Incarnation), event = .actor other own → state.incarnations[other]? = some inc → inc.quiet = true

/-- What the writer of an incarnation has still to take from its channel. -/
def Incarnation.pending (inc : Incarnation) : Nat :=
  inc.log.length + match inc.actor with
    | .start => 1
    | _ => 0

/-- What a writer has still to do to the file for what it has taken. -/
def WriterActor.work : WriterActor → Nat
  | .unspawned | .open | .read _ | .create _ => 1
  | .setLen _ contents => contents.length + 1
  | .seek _ contents => contents.length
  | .write _ contents written => contents.length - written
  | .recv _ | .heartbeat _ | .ended => 0

def System.pending (state : System) : Nat := (state.incarnations.map Incarnation.pending).sum

def System.work (state : System) : Nat := (state.incarnations.map fun inc => inc.writer.work).sum

/-- A writer takes a message. -/
def Event.takes : Event → Bool
  | .writer _ (.recv _) => true
  | _ => false

/-- A writer changes the file. -/
def Event.touches : Event → Bool
  | .writer _ .create | .writer _ .setLen | .writer _ (.write _) => true
  | _ => false

theorem sum_update (measure : Incarnation → Nat) (found : state.incarnations[index]? = some inc)
    (set : next.incarnations = state.incarnations.set index after) :
    (next.incarnations.map measure).sum + measure inc = (state.incarnations.map measure).sum + measure after := by
  rw [set, List.map_set]
  exact sum_set _ _ _ _ (by rw [List.getElem?_map, found]; rfl)

theorem ActorStep.pending_le {own : ActorEvent} (stepped : ActorStep inc own after) (quiet : inc.quiet = true) :
    after.pending ≤ inc.pending := by
  cases stepped with
  | start place => simp [Incarnation.pending, place]
  | @log map held entry place logged =>
    have stays := (Incarnation.quiet_iff.mp quiet).2.resolve_left (by simp [place])
    simp [place, KeyValueActor.cancellable, logged] at stays
  | takeMap place | recv place | pass place | refuse place | answer place | timeout place | heartbeat place =>
    simp [Incarnation.pending, place]
  | panic | close | cancel => simp [Incarnation.pending, Incarnation.stop]

theorem WriterStep.pending_le {pair moved : Pair} {own : WriterEvent} (stepped : WriterStep json pair own moved) :
    moved.inc.pending ≤ pair.inc.pending ∧ ((∃ contents, own = .recv contents) → moved.inc.pending < pair.inc.pending) := by
  cases stepped with
  | recv _ front =>
    simp only [Incarnation.pending, front, List.length_cons]
    omega
  | _ => exact ⟨Nat.le_refl _, fun taken => by simp at taken⟩

theorem Moves.pending_falls (moves : Moves json state event next) (waning : Waning state event) :
    next.pending ≤ state.pending ∧ (event.takes = true → next.pending < state.pending) := by
  cases moves with
  | still inert same =>
    refine ⟨Nat.le_of_eq (by rw [System.pending, same, System.pending]), fun takes => ?_⟩
    cases event with
    | writer other own => exact absurd rfl ((inert other).2 own)
    | _ => cases takes
  | receives forwards _ found set =>
    have sum := sum_update Incarnation.pending found set
    subst forwards
    exact ⟨by simp only [System.pending, Incarnation.pending] at sum ⊢; omega, fun takes => (nomatch takes)⟩
  | replaces routes idle front => exact absurd front (waning.unreset _ _ routes idle)
  | acts acts found stepped set =>
    have sum := sum_update Incarnation.pending found set
    have falls := stepped.pending_le (waning.quiet _ _ _ acts found)
    subst acts
    exact ⟨by simp only [System.pending] at sum ⊢; omega, fun takes => (nomatch takes)⟩
  | @writes other own _ pair writes found stepped set =>
    have sum := sum_update Incarnation.pending found set
    obtain ⟨falls, taken⟩ := stepped.pending_le
    simp only at falls taken
    subst writes
    refine ⟨by simp only [System.pending] at sum ⊢; omega, fun takes => ?_⟩
    have behind := taken (by
      cases own with
      | recv contents => exact ⟨contents, rfl⟩
      | _ => cases takes)
    simp only [System.pending] at sum ⊢
    omega

theorem WriterStep.work_le {pair moved : Pair} {own : WriterEvent} (stepped : WriterStep json pair own moved)
    (other : ∀ contents, own ≠ .recv contents) :
    moved.inc.writer.work ≤ pair.inc.writer.work ∧
      ((Event.writer index own).touches = true → moved.inc.writer.work < pair.inc.writer.work) := by
  cases stepped with
  | recv => exact absurd rfl (other _)
  | «open» place =>
    refine ⟨?_, fun touched => (nomatch touched)⟩
    rw [place]
    cases pair.file <;> exact Nat.le_refl 1
  | read place | parse place | seek place | timeout place | heartbeat place | close place | flush place =>
    refine ⟨?_, fun touched => (nomatch touched)⟩
    simp [place, Pair.setWriter, WriterActor.work]
  | create place | setLen place => simp [place, Pair.setWriter, WriterActor.work]
  | @write map contents written file chunk count place present some_bytes moves =>
    have length : 0 < chunk.length := List.length_pos_iff.mpr moves
    have within : chunk.length ≤ contents.length - written := by
      rw [← some_bytes, ← List.length_drop]
      exact List.length_take_le' ..
    simp only [place, Pair.setWriter, WriterActor.work]
    omega
  | unreadable place =>
    refine ⟨?_, fun touched => (nomatch touched)⟩
    rcases place with place | ⟨_, place⟩ <;> simp [place, Pair.setWriter, WriterActor.work]
  | fail => exact ⟨Nat.zero_le _, fun touched => (nomatch touched)⟩

theorem Moves.work_falls (moves : Moves json state event next) (waning : Waning state event)
    (fresh : ∀ (index : Nat) (inc : Incarnation), state.incarnations[index]? = some inc → inc.Fresh)
    (untaken : event.takes = false) :
    next.work ≤ state.work ∧ (event.touches = true → next.work < state.work) := by
  cases moves with
  | still inert same =>
    refine ⟨Nat.le_of_eq (by rw [System.work, same, System.work]), fun touches => ?_⟩
    cases event with
    | writer other own => exact absurd rfl ((inert other).2 own)
    | _ => cases touches
  | receives forwards _ found set =>
    have sum := sum_update (fun inc => inc.writer.work) found set
    subst forwards
    exact ⟨by simp only [System.work] at sum ⊢; omega, fun touches => (nomatch touches)⟩
  | replaces routes idle front => exact absurd front (waning.unreset _ _ routes idle)
  | @acts other own inc moved acts found stepped set =>
    have sum := sum_update (fun inc => inc.writer.work) found set
    have same : moved.writer.work = inc.writer.work := by
      cases stepped with
      | start place => rw [(fresh _ _ found).1 place]; rfl
      | _ => rfl
    subst acts
    exact ⟨by simp only [System.work, same] at sum ⊢; omega, fun touches => (nomatch touches)⟩
  | @writes other own inc pair writes found stepped set =>
    have sum := sum_update (fun inc => inc.writer.work) found set
    subst writes
    have another (contents : Bytes) : own ≠ .recv contents := by
      intro same
      rw [same] at untaken
      cases untaken
    obtain ⟨falls, touched⟩ := @WriterStep.work_le json other _ _ _ stepped another
    simp only at falls touched
    refine ⟨by simp only [System.work] at sum ⊢; omega, fun touches => ?_⟩
    have behind := touched touches
    simp only [System.work] at sum ⊢
    omega

theorem Moves.file_eq (moves : Moves json state event next) (untouched : event.touches = false) : next.file = state.file := by
  cases moves with
  | still _ _ file | receives _ _ _ _ file | replaces _ _ _ _ file | acts _ _ _ _ file => exact file
  | writes writes _ stepped _ file =>
    subst writes
    rw [file]
    cases stepped with
    | create | setLen | write => cases untouched
    | _ => rfl

/-- The steps that a writer has to take before its next message, while nobody changes the file. -/
def WriterActor.ahead (file : Option Bytes) : WriterActor → Nat
  | .open => (file.elim 0 List.length) + 4
  | .read contents => (file.elim 0 List.length) - contents.length + 3
  | .create _ | .setLen _ _ | .seek _ _ => 2
  | .write _ _ _ | .heartbeat _ => 1
  | .unspawned | .recv _ | .ended => 0

/-- A writer that has a message in its channel goes on towards it. -/
theorem WriterStep.ahead_lt {pair moved : Pair} {own : WriterEvent} (stepped : WriterStep json pair own moved)
    (awaits : pair.inc.Awaits) (still : moved.inc.Awaits) (untaken : (Event.writer index own).takes = false)
    (untouched : (Event.writer index own).touches = false) :
    moved.inc.writer.ahead pair.file < pair.inc.writer.ahead pair.file := by
  cases stepped with
  | recv => cases untaken
  | create | setLen | write => cases untouched
  | «open» place =>
    rw [place]
    cases file : pair.file with
    | none => simp [Pair.setWriter, WriterActor.ahead]
    | some contents => simp [Pair.setWriter, WriterActor.ahead]
  | @read contents file chunk count place present some_bytes moves =>
    have length : 0 < chunk.length := List.length_pos_iff.mpr moves
    have within : chunk.length ≤ file.length - contents.length := by
      rw [← some_bytes, ← List.length_drop]
      exact List.length_take_le' ..
    simp only [place, present, Pair.setWriter, WriterActor.ahead, Option.elim_some, List.length_append]
    omega
  | parse place =>
    simp only [place, Pair.setWriter, WriterActor.ahead]
    omega
  | seek place | flush place | heartbeat place => simp [place, Pair.setWriter, WriterActor.ahead]
  | timeout _ empty | close _ empty => exact absurd empty awaits.logged
  | unreadable place =>
    rcases place with place | ⟨_, place⟩
    · simp only [place, Pair.setWriter, WriterActor.ahead]
      omega
    · simp only [place, Pair.setWriter, WriterActor.ahead]
      omega
  | fail =>
    have running := still.running
    cases running

theorem Changes.writer_ahead (changes : Changes json state event index inc after) (fresh : inc.Fresh) (awaits : inc.Awaits)
    (still : after.Awaits) (untaken : event.takes = false) (untouched : event.touches = false) :
    after.writer.ahead state.file ≤ inc.writer.ahead state.file ∧
      (event.party? = some (.writer index) → after.writer.ahead state.file < inc.writer.ahead state.file) := by
  cases changes with
  | same inert =>
    refine ⟨Nat.le_refl _, fun own => ?_⟩
    cases event with
    | writer other own_event =>
      cases own
      exact absurd rfl (inert.2 own_event)
    | _ => simp [Event.party?] at own
  | receives happens | replaced happens =>
    subst happens
    exact ⟨Nat.le_refl _, fun own => by simp [Event.party?] at own⟩
  | acts acts stepped =>
    subst acts
    have same : after.writer = inc.writer := by
      cases stepped with
      | start place => exact absurd (fresh.1 place) awaits.spawned
      | _ => rfl
    exact ⟨Nat.le_of_eq (by rw [same]), fun own => by simp [Event.party?] at own⟩
  | writes writes stepped =>
    subst writes
    have falls := stepped.ahead_lt awaits still untaken untouched
    exact ⟨Nat.le_of_lt falls, fun _ => falls⟩

theorem writer_able (prints : ∀ map, ∃ contents, json.to_string map contents = true)
    (found : state.incarnations[index]? = some inc) (awaits : inc.Awaits) (room : state.routerChannel.length < capacity) :
    state.able json (.writer index) := by
  have goes (own : WriterEvent) (quiet : own ≠ .heartbeat) (moved : Pair)
      (stepped : Pair.writerStep json ⟨inc, state.file⟩ own = some moved) : state.able json (.writer index) :=
    ⟨.writer index own, System.update { state with file := moved.file } index moved.inc, rfl,
      by simp [System.step, found, stepped, quiet]⟩
  cases place : inc.writer with
  | unspawned => exact absurd place awaits.spawned
  | «open» => exact goes .open (by simp) _ (by simp [Pair.writerStep, place]; rfl)
  | read => exact goes .fail (by simp) _ (by simp [Pair.writerStep, place]; rfl)
  | create => exact goes .create (by simp) _ (by simp [Pair.writerStep, place]; rfl)
  | recv map =>
    obtain ⟨entry, rest, front⟩ := List.exists_cons_of_ne_nil awaits.logged
    obtain ⟨contents, printed⟩ := prints (entry.apply map)
    exact goes (.recv contents) (by simp) _ (by simp [Pair.writerStep, place, front, printed]; rfl)
  | setLen => exact goes .setLen (by simp) _ (by simp [Pair.writerStep, place]; rfl)
  | seek => exact goes .seek (by simp) _ (by simp [Pair.writerStep, place]; rfl)
  | write => exact goes .fail (by simp) _ (by simp [Pair.writerStep, place]; rfl)
  | heartbeat map =>
    let beating := state.update index { inc with writer := .recv map }
    refine ⟨.writer index .heartbeat, { beating with routerChannel := state.routerChannel ++ [.heartbeat .writer] }, rfl, ?_⟩
    simp [System.step, found, Pair.writerStep, Pair.setWriter, place, System.beat, beating, System.update, room]
  | ended =>
    have running := awaits.running
    rw [place] at running
    cases running

end RustAsyncAwait.KeyValueStore
