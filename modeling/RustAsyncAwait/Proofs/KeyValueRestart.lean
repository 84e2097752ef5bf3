import RustAsyncAwait.Proofs.KeyValueSteps

/-! A restart on the same file. Replaying the queued log on the writer's map gives
the actor's map, and the file holds the writer's map whenever the writer is idle. -/

namespace RustAsyncAwait.KeyValueStore
open Library

/-- The store as the clients see it: a sequential `HashMap`. -/
def hashMap : SequentialObject Map KeyValueMessage Answer where
  apply := KeyValueMessage.apply
  answer := KeyValueMessage.answer

def replay (map : Map) (log : List WriterLogMessage) : Map := log.foldl WriterLogMessage.apply map

/-- What `load_map` returns for the file, if it can be read. -/
def loaded (json : Json) (file : Option Bytes) : Map := file.elim ∅ (load_map json)

namespace KeyValueActor

def map? : KeyValueActor → Option Map
  | recv map | log map _ | answer map _ | heartbeat map => some map
  | start | awaitMap | stopped => none

/-- The map that the log has got to. A message is logged before it is applied. -/
def logged (map : Map) : KeyValueActor → Map
  | answer _ message => message.apply map
  | _ => map

end KeyValueActor

namespace WriterActor

def map? : WriterActor → Option Map
  | create map | recv map | setLen map _ | seek map _ | write map _ _ | heartbeat map => some map
  | unspawned | «open» | read _ | ended => none

end WriterActor

/-- How the file relates to the writer's map, in each place of the writer. `map`
is the actor's map, which is to be loaded, or which the whole log leads to. -/
def Stored (json : Json) (map : Map) (pair : Pair) : Prop :=
  match pair.inc.writer with
  | .unspawned | .open => loaded json pair.file = map
  | .read contents => ∃ file, pair.file = some file ∧ contents <+: file ∧ load_map json file = map
  | .create _ => .get ∈ pair.inc.log
  | .recv held | .heartbeat held =>
    .get ∈ pair.inc.log ∨ ∃ contents, json.to_string held contents = true ∧ pair.file = some contents
  | .setLen held contents => json.to_string held contents = true
  | .seek held contents => json.to_string held contents = true ∧ pair.file = some []
  | .write held contents written =>
    json.to_string held contents = true ∧ written ≤ contents.length ∧ pair.file = some (contents.take written)
  | .ended => pair.inc.actor = .stopped ∧ pair.inc.log = [] ∧
    ∃ contents, json.to_string map contents = true ∧ pair.file = some contents

/-- The invariant of an incarnation that has the file to itself. `map` is the
start map with all answered messages applied. -/
structure Synced (json : Json) (map : Map) (pair : Pair) : Prop where
  own : ∀ held, pair.inc.actor.map? = some held → held = map
  fresh : pair.inc.actor = .start → pair.inc.writer = .unspawned ∧ pair.inc.reply = none
  awaited : pair.inc.actor = .awaitMap →
    pair.inc.reply = none ∧ pair.inc.log = [.get] ∨ pair.inc.reply = some map ∧ pair.inc.log = []
  unloaded : pair.inc.writer.loading = true → pair.inc.actor.map? = none ∧ pair.inc.reply = none ∧
    (pair.inc.writer = .unspawned ∨ pair.inc.log = [.get])
  replayed : ∀ held, pair.inc.writer.map? = some held → replay held pair.inc.log = pair.inc.actor.logged map
  stored : Stored json map pair

/-- An entry of the log does to the writer's map what the message does to the actor's. -/
theorem replay_message (message : KeyValueMessage) (map : Map) :
    replay map (WriterLogMessage.from_key_value_message message).toList = message.apply map := by
  cases message <;> rfl

theorem replay_append (map : Map) (first second : List WriterLogMessage) :
    replay map (first ++ second) = replay (replay map first) second := List.foldl_append

theorem synced_initial (json : Json) (file : Option Bytes) : Synced json (loaded json file) { file } := by
  refine ⟨?_, ?_, ?_, ?_, ?_, rfl⟩ <;> simp [KeyValueActor.map?, WriterActor.map?]

/-- Writing the next bytes of a text behind those that are in the file. -/
theorem overwrite_next {contents chunk : Bytes} {written count : Nat} (within : written ≤ contents.length)
    (some_bytes : (contents.drop written).take count = chunk) :
    overwrite (contents.take written) written chunk = contents.take (written + chunk.length) := by
  have length : (contents.take written).length = written := List.length_take_of_le within
  have whole : (contents.drop written).take chunk.length = chunk := by
    have start := List.take_prefix count (contents.drop written)
    rw [some_bytes] at start
    exact (List.prefix_iff_eq_take.mp start).symm
  have nothing : (contents.take written).drop (written + chunk.length) = [] :=
    List.drop_eq_nil_of_le (by omega)
  rw [overwrite, length, Nat.sub_self, List.take_take, Nat.min_self, nothing, List.take_add, whole]
  simp

/-- The start map with what this event answers applied. -/
def ActorEvent.after (map : Map) : ActorEvent → Map
  | answer message _ => message.apply map
  | _ => map

private theorem logged_eq (map : Map) {actor : KeyValueActor} (unanswered : ∀ held message, actor ≠ .answer held message) :
    actor.logged map = map := by
  cases actor with
  | answer held message => exact absurd rfl (unanswered held message)
  | start | awaitMap | recv _ | log _ _ | heartbeat _ | stopped => rfl

theorem ActorStep.alive {inc next : Incarnation} {event : ActorEvent} (stepped : ActorStep inc event next) :
    inc.actor ≠ .stopped := by
  intro stopped
  cases stepped with
  | cancel aborted awaits => simp [stopped, KeyValueActor.cancellable] at awaits
  | start other | takeMap other _ | panic other _ _ | recv other _ | pass other _ | refuse other _ _ | log other _ _ _
  | answer other | timeout other _ _ | heartbeat other | close other _ _ =>
    rw [stopped] at other
    cases other

/-- Between its load and its end the writer does not depend on the actor. -/
private theorem Stored.frame {json : Json} {map after : Map} {pair next : Pair} (stored : Stored json map pair)
    (loaded : pair.inc.writer.loading = false) (unended : pair.inc.writer ≠ .ended)
    (writer : next.inc.writer = pair.inc.writer) (file : next.file = pair.file)
    (log : .get ∈ pair.inc.log → .get ∈ next.inc.log) : Stored json after next := by
  unfold Stored at stored ⊢
  rw [writer, file]
  cases place : pair.inc.writer with
  | unspawned | «open» | read _ => simp [place, WriterActor.loading] at loaded
  | ended => exact absurd place unended
  | create held =>
    rw [place] at stored
    exact log stored
  | recv held | heartbeat held =>
    rw [place] at stored
    exact stored.imp_left log
  | setLen _ _ | seek _ _ | write _ _ _ =>
    rw [place] at stored
    exact stored

namespace Synced
variable {json : Json} {map : Map} {pair : Pair}

theorem unended (synced : Synced json map pair) (alive : pair.inc.actor ≠ .stopped) : pair.inc.writer ≠ .ended := by
  intro ended
  have stored := synced.stored
  simp only [Stored, ended] at stored
  exact alive stored.1

/-- While the actor has a map, the writer has one. -/
theorem settled (synced : Synced json map pair) {held : Map} (has : pair.inc.actor.map? = some held) :
    held = map ∧ pair.inc.writer.loading = false := by
  refine ⟨synced.own held has, ?_⟩
  rw [← Bool.not_eq_true]
  intro loading
  rw [(synced.unloaded loading).1] at has
  cases has

/-- The actor goes to a place with the same map, and the log stays. -/
private theorem moves (synced : Synced json map pair) {actor : KeyValueActor} {held : Map} (inbox : List KeyValueMessage)
    (alive : pair.inc.actor ≠ .stopped) (has : pair.inc.actor.map? = some held) (moved : actor.map? = some held)
    (logged : actor.logged map = pair.inc.actor.logged map) :
    Synced json map { pair with inc := { pair.inc with inbox := inbox, actor := actor } } := by
  have unended := synced.unended alive
  obtain ⟨same, loaded⟩ := synced.settled has
  refine ⟨?_, ?_, ?_, ?_, ?_, ?_⟩
  · intro other found
    exact (Option.some.inj (found.symm.trans moved)).trans same
  · intro fresh
    subst fresh
    cases moved
  · intro awaits
    subst awaits
    cases moved
  · intro loading
    rw [loaded] at loading
    cases loading
  · intro other found
    rw [logged]
    exact synced.replayed other found
  · exact synced.stored.frame loaded unended rfl rfl id

private theorem stops (synced : Synced json map pair) (alive : pair.inc.actor ≠ .stopped)
    (unanswered : ∀ held message, pair.inc.actor ≠ .answer held message) :
    Synced json map { pair with inc := pair.inc.stop } := by
  have unended := synced.unended alive
  refine ⟨?_, ?_, ?_, ?_, ?_, ?_⟩
  · intro held found
    cases found
  · intro fresh
    cases fresh
  · intro awaits
    cases awaits
  · intro loading
    exact ⟨rfl, (synced.unloaded loading).2⟩
  · intro held found
    rw [← logged_eq map unanswered]
    exact synced.replayed held found
  · have stored := synced.stored
    unfold Stored at stored ⊢
    revert stored
    cases writer : pair.inc.writer <;> simp_all [Incarnation.stop]

/-- The message's entry is in the log, if it has one. -/
private theorem logs (synced : Synced json map pair) {held : Map} {message : KeyValueMessage}
    (holds : pair.inc.actor = .log held message) :
    Synced json map { pair with inc := { pair.inc with
      log := pair.inc.log ++ (WriterLogMessage.from_key_value_message message).toList
      actor := .answer held message } } := by
  have unended := synced.unended (by simp [holds])
  obtain ⟨same, loaded⟩ := synced.settled (show pair.inc.actor.map? = some held by rw [holds]; rfl)
  refine ⟨?_, ?_, ?_, ?_, ?_, ?_⟩
  · intro other found
    exact (Option.some.inj found).symm.trans same
  · intro fresh
    cases fresh
  · intro awaits
    cases awaits
  · intro loading
    rw [loaded] at loading
    cases loading
  · intro other found
    have replayed := synced.replayed other found
    rw [holds] at replayed
    rw [replay_append, replayed]
    exact replay_message message map
  · exact synced.stored.frame loaded unended rfl rfl (List.mem_append_left _)

theorem actor (synced : Synced json map pair) {event : ActorEvent} {next : Incarnation}
    (stepped : ActorStep pair.inc event next) : Synced json (event.after map) { pair with inc := next } := by
  have alive := stepped.alive
  cases stepped with
  | start fresh =>
    obtain ⟨unspawned, silent⟩ := synced.fresh fresh
    have stored := synced.stored
    simp only [Stored, unspawned] at stored
    refine ⟨by simp [KeyValueActor.map?], by simp, fun _ => .inl ⟨silent, rfl⟩, fun _ => ⟨rfl, silent, .inr rfl⟩, ?_, stored⟩
    intro held found
    cases found
  | @takeMap held waits replied =>
    have same : held = map := by
      rcases synced.awaited waits with ⟨silent, _⟩ | ⟨found, _⟩
      · rw [silent] at replied
        cases replied
      · exact Option.some.inj (replied.symm.trans found)
    subst same
    have unended := synced.unended alive
    have loaded : pair.inc.writer.loading = false := by
      rw [← Bool.not_eq_true]
      intro loading
      rw [(synced.unloaded loading).2.1] at replied
      cases replied
    refine ⟨fun other found => (Option.some.inj found).symm, by simp, by simp, by simp [loaded], ?_, ?_⟩
    · intro other found
      have replayed := synced.replayed other found
      rwa [waits] at replayed
    · exact synced.stored.frame loaded unended rfl rfl id
  | panic waits silent ended => exact absurd ended (synced.unended alive)
  | recv idle front =>
    exact synced.moves _ alive (by rw [idle]; rfl) rfl (by rw [idle]; rfl)
  | pass held unlogged => simpa [unlogged, ActorEvent.after] using synced.logs held
  | refuse held logged ended =>
    have unended := synced.unended alive
    cases writer : pair.inc.writer <;> simp_all
  | log held logged alive room => simpa [logged, ActorEvent.after] using synced.logs held
  | @answer held message answers =>
    have unended := synced.unended alive
    obtain ⟨rfl, loaded⟩ := synced.settled (show pair.inc.actor.map? = some held by rw [answers]; rfl)
    refine ⟨fun other found => (Option.some.inj found).symm, by simp, by simp, by simp [loaded], ?_, ?_⟩
    · intro other found
      have replayed := synced.replayed other found
      rwa [answers] at replayed
    · exact synced.stored.frame loaded unended rfl rfl id
  | timeout idle empty opened => exact synced.moves pair.inc.inbox alive (by rw [idle]; rfl) rfl (by rw [idle]; rfl)
  | heartbeat beats => exact synced.moves pair.inc.inbox alive (by rw [beats]; rfl) rfl (by rw [beats]; rfl)
  | close idle empty closed => exact synced.stops alive (by simp [idle])
  | cancel aborted awaits =>
    apply synced.stops alive
    intro held message answers
    simp [answers, KeyValueActor.cancellable] at awaits

/-- The actor's own fields are not the writer's. -/
private theorem writes (synced : Synced json map pair) {next : WriterActor} {file : Option Bytes}
    (unloaded : next.loading = true → pair.inc.writer.loading = true ∧ next ≠ .unspawned)
    (spawned : pair.inc.writer ≠ .unspawned)
    (replayed : ∀ held, next.map? = some held → replay held pair.inc.log = pair.inc.actor.logged map)
    (stored : Stored json map { pair with inc := { pair.inc with writer := next }, file := file }) :
    Synced json map { pair with inc := { pair.inc with writer := next }, file := file } := by
  refine ⟨synced.own, ?_, synced.awaited, ?_, replayed, stored⟩
  · intro fresh
    exact absurd (synced.fresh fresh).1 spawned
  · intro loading
    obtain ⟨hasnt, silent, log⟩ := synced.unloaded (unloaded loading).1
    exact ⟨hasnt, silent, .inr (log.resolve_left spawned)⟩

/-- A writer that has loaded its map goes on with it. -/
private theorem goes_on (synced : Synced json map pair) {held : Map} {next : WriterActor} {file : Option Bytes}
    (holds : pair.inc.writer.map? = some held) (keeps : next.map? = some held) (loaded : next.loading = false)
    (stored : Stored json map { pair with inc := { pair.inc with writer := next }, file := file }) :
    Synced json map { pair with inc := { pair.inc with writer := next }, file := file } := by
  refine synced.writes (by simp [loaded]) ?_ ?_ stored
  · intro unspawned
    rw [unspawned] at holds
    cases holds
  · intro other found
    cases keeps.symm.trans found
    exact synced.replayed held holds

/-- A loading writer has the whole map still before it. -/
private theorem loads (synced : Synced json map pair) (loading : pair.inc.writer.loading = true)
    (spawned : pair.inc.writer ≠ .unspawned) :
    pair.inc.log = [.get] ∧ ∀ start, pair.inc.actor.logged start = start := by
  obtain ⟨hasnt, _, log⟩ := synced.unloaded loading
  refine ⟨log.resolve_left spawned, fun start => logged_eq start ?_⟩
  intro held message answers
  simp [answers, KeyValueActor.map?] at hasnt

/-- Nothing of the map is left after an error while loading it. -/
theorem unreadable (synced : Synced json map pair)
    (loading : pair.inc.writer = .open ∨ ∃ contents, pair.inc.writer = .read contents) :
    Synced json ∅ (pair.setWriter (.create ∅)) := by
  have unloaded : pair.inc.writer.loading = true := by
    rcases loading with place | ⟨contents, place⟩ <;> rw [place] <;> rfl
  have spawned : pair.inc.writer ≠ .unspawned := by
    rcases loading with place | ⟨contents, place⟩ <;> simp [place]
  obtain ⟨hasnt, silent, _⟩ := synced.unloaded unloaded
  obtain ⟨log, logged⟩ := synced.loads unloaded spawned
  refine ⟨?_, ?_, fun _ => .inl ⟨silent, log⟩, ?_, ?_, ?_⟩
  · intro held found
    exact absurd (hasnt.symm.trans found) (by simp)
  · intro fresh
    exact absurd (synced.fresh fresh).1 spawned
  · intro other
    cases other
  · intro held found
    cases found
    exact (congrArg (replay ∅) log).trans (logged ∅).symm
  · show .get ∈ pair.inc.log
    rw [log]
    exact List.mem_singleton_self _

private theorem recvs (synced : Synced json map pair) {held : Map} {entry : WriterLogMessage}
    {rest : List WriterLogMessage} {contents : Bytes} (idle : pair.inc.writer = .recv held)
    (front : pair.inc.log = entry :: rest) (printed : json.to_string (entry.apply held) contents = true) :
    Synced json map { pair with inc := { pair.inc with
      log := rest
      reply := if entry = .get then some (entry.apply held) else pair.inc.reply
      writer := .setLen (entry.apply held) contents } } := by
  have replayed := synced.replayed held (by rw [idle]; rfl)
  rw [front] at replayed
  refine ⟨synced.own, ?_, ?_, ?_, ?_, printed⟩
  · intro fresh
    rw [(synced.fresh fresh).1] at idle
    cases idle
  · intro waits
    rcases synced.awaited waits with ⟨silent, log⟩ | ⟨_, log⟩
    · rw [front, List.cons.injEq] at log
      obtain ⟨rfl, rfl⟩ := log
      rw [show pair.inc.actor = .awaitMap from waits] at replayed
      exact .inr ⟨congrArg some replayed, rfl⟩
    · rw [front] at log
      cases log
  · intro loading
    cases loading
  · intro other found
    cases found
    exact replayed

theorem writer (synced : Synced json map pair) {event : WriterEvent} {next : Pair}
    (stepped : WriterStep json pair event next) (succeeds : event ≠ .fail) : Synced json map next := by
  have stored := synced.stored
  cases stepped with
  | «open» spawned =>
    obtain ⟨log, logged⟩ := synced.loads (by rw [spawned]; rfl) (by simp [spawned])
    simp only [Stored, spawned] at stored
    cases present : pair.file with
    | none =>
      simp only [present, loaded, Option.elim_none] at stored
      refine synced.writes (by simp [WriterActor.loading]) (by simp [spawned]) ?_ ?_
      · intro held found
        cases found
        rw [log, logged map, ← stored]
        rfl
      · simp [Stored, log]
    | some file =>
      simp only [present, loaded, Option.elim_some] at stored
      refine synced.writes (by simp [spawned, WriterActor.loading]) (by simp [spawned]) (by simp [WriterActor.map?]) ?_
      exact ⟨file, present, List.nil_prefix, stored⟩
  | @read contents file chunk count reading present some_bytes =>
    simp only [Stored, reading] at stored
    obtain ⟨whole, same, start, maps⟩ := stored
    rw [present, Option.some.injEq] at same
    subst same
    refine synced.writes (by simp [reading, WriterActor.loading]) (by simp [reading]) (by simp [WriterActor.map?]) ?_
    refine ⟨file, present, ?_, maps⟩
    obtain ⟨rest, rfl⟩ := start
    rw [← some_bytes, List.drop_left]
    exact (List.prefix_append_right_inj contents).mpr (List.take_prefix count rest)
  | @parse contents file reading present complete =>
    obtain ⟨log, logged⟩ := synced.loads (by rw [reading]; rfl) (by simp [reading])
    simp only [Stored, reading] at stored
    obtain ⟨whole, same, ⟨rest, rfl⟩, maps⟩ := stored
    rw [present, Option.some.injEq] at same
    subst same
    rw [List.drop_left] at complete
    rw [complete, List.append_nil] at maps
    refine synced.writes (by simp [WriterActor.loading]) (by simp [reading]) ?_ (by simp [Stored, log])
    intro held found
    cases found
    rw [log, logged map, ← maps]
    rfl
  | @create held loads =>
    simp only [Stored, loads] at stored
    exact synced.goes_on (by rw [loads]; rfl) rfl rfl (.inl stored)
  | recv idle front printed => exact synced.recvs idle front printed
  | @setLen held contents printed =>
    simp only [Stored, printed] at stored
    exact synced.goes_on (by rw [printed]; rfl) rfl rfl ⟨stored, rfl⟩
  | @seek held contents emptied =>
    simp only [Stored, emptied] at stored
    exact synced.goes_on (by rw [emptied]; rfl) rfl rfl ⟨stored.1, Nat.zero_le _, stored.2⟩
  | @write held contents written file chunk count writing present some_bytes =>
    simp only [Stored, writing] at stored
    obtain ⟨printed, within, same⟩ := stored
    rw [present, Option.some.injEq] at same
    have length : chunk.length ≤ contents.length - written := by
      rw [← some_bytes, List.length_take, List.length_drop]
      exact Nat.min_le_right _ _
    have next : overwrite file written chunk = contents.take (written + chunk.length) := by
      rw [same]
      exact overwrite_next within some_bytes
    exact synced.goes_on (by rw [writing]; rfl) rfl rfl ⟨printed, by omega, congrArg some next⟩
  | @flush held contents writing =>
    simp only [Stored, writing] at stored
    obtain ⟨printed, _, written⟩ := stored
    rw [List.take_length] at written
    exact synced.goes_on (by rw [writing]; rfl) rfl rfl (.inr ⟨contents, printed, written⟩)
  | @timeout held idle empty alive =>
    simp only [Stored, idle] at stored
    exact synced.goes_on (by rw [idle]; rfl) rfl rfl stored
  | @heartbeat held beats =>
    simp only [Stored, beats] at stored
    exact synced.goes_on (by rw [beats]; rfl) rfl rfl stored
  | @close held idle empty stopped =>
    simp only [Stored, idle, empty, List.not_mem_nil, false_or] at stored
    have ended : pair.inc.actor = .stopped := by
      cases place : pair.inc.actor <;> simp [place] at stopped ⊢
    have replayed := synced.replayed held (by rw [idle]; rfl)
    rw [empty, ended] at replayed
    have same : held = map := replayed
    subst same
    exact synced.writes (by simp [WriterActor.loading]) (by simp [idle]) (by simp [WriterActor.map?]) ⟨ended, empty, stored⟩
  | unreadable _ | fail _ => exact absurd rfl succeeds

end Synced

def PairEvent.answered? : PairEvent → Option (KeyValueMessage × Answer)
  | .actor event => event.answered?
  | _ => none

/-- The channel of the actor and its senders are not part of the invariant. -/
theorem Synced.received {json : Json} {map : Map} {pair : Pair} (synced : Synced json map pair)
    (inbox : List KeyValueMessage) (closed aborted : Bool) :
    Synced json map { pair with inc := { pair.inc with inbox := inbox, closed := closed, aborted := aborted } } :=
  ⟨synced.own, synced.fresh, synced.awaited, synced.unloaded, synced.replayed, synced.stored⟩

/-- What an actor answers is what the sequential map answers. -/
theorem Synced.answers {json : Json} {start : Map} {pair : Pair} {history : List (KeyValueMessage × Answer)}
    (synced : Synced json (hashMap.after start history) pair) (legal : hashMap.Legal start history)
    {event : ActorEvent} {next : Incarnation} (stepped : ActorStep pair.inc event next) :
    hashMap.Legal start (history ++ event.answered?.toList) ∧
      Synced json (hashMap.after start (history ++ event.answered?.toList)) { pair with inc := next } := by
  have moved := synced.actor stepped
  cases stepped with
  | @answer held message answers =>
    have same : held = hashMap.after start history := synced.own held (by rw [answers]; rfl)
    subst same
    refine ⟨hashMap.legal_snoc legal rfl, ?_⟩
    rw [hashMap.after_append]
    exact moved
  | start _ | takeMap _ _ | panic _ _ _ | recv _ _ | pass _ _ | refuse _ _ _ | log _ _ _ _ | timeout _ _ _ | heartbeat _
  | close _ _ _ | cancel _ _ =>
    simpa only [ActorEvent.answered?, ActorEvent.after, Option.toList_none, List.append_nil] using And.intro legal moved

/-- An incarnation whose operations on the file succeed. -/
def sound (json : Json) (file : Option Bytes) : Machine Pair PairEvent :=
  (incarnation json file).restrict fun _ event => event ≠ .writer .fail

/-- The results are those of a sequential map, and the incarnation is in step with it. -/
theorem pair_synced {json : Json} {file : Option Bytes} {trace : List PairEvent} {pair : Pair}
    (reaches : (sound json file).Reaches trace pair) :
    hashMap.Legal (loaded json file) (responses PairEvent.answered? trace) ∧
      Synced json (hashMap.after (loaded json file) (responses PairEvent.answered? trace)) pair := by
  refine reaches.trace_invariant (fun trace pair => hashMap.Legal (loaded json file) (responses PairEvent.answered? trace) ∧
    Synced json (hashMap.after (loaded json file) (responses PairEvent.answered? trace)) pair) ?_ ?_
  · exact ⟨trivial, synced_initial json file⟩
  · intro trace pair event next _ held stepped
    obtain ⟨legal, synced⟩ := held
    obtain ⟨succeeds, stepped⟩ := Machine.restrict_step.mp stepped
    have stepped : pair.step json event = some next := stepped
    rw [responses_snoc]
    cases event with
    | deliver message =>
      simp only [Pair.step, Option.ite_none_right_eq_some, Option.some.injEq] at stepped
      obtain ⟨_, rfl⟩ := stepped
      simp only [PairEvent.answered?, Option.toList_none, List.append_nil]
      exact ⟨legal, synced.received _ _ _⟩
    | drop =>
      cases stepped
      simp only [PairEvent.answered?, Option.toList_none, List.append_nil]
      exact ⟨legal, synced.received _ _ _⟩
    | actor event =>
      obtain ⟨inc, moved, rfl⟩ := Option.map_eq_some_iff.mp stepped
      have moved := actorStep_cases moved
      exact synced.answers legal moved
    | writer event =>
      simp only [PairEvent.answered?, Option.toList_none, List.append_nil]
      exact ⟨legal, synced.writer (writerStep_cases stepped) (fun fails => succeeds (congrArg _ fails))⟩

/-- The texts of two maps: `{}` and `{"a":[1]}`. -/
def texts : List (Map × Bytes) :=
  [(∅, [123, 125]), ((∅ : Map).insert "a" [1], [123, 34, 97, 34, 58, 91, 49, 93, 125])]

/-- `serde_json` on the two maps above. -/
def textsJson : Json where
  to_string map contents := decide ((map, contents) ∈ texts)
  from_str contents := (texts.find? fun entry => entry.2 == contents).map Prod.fst

theorem textsJson_round_trip (map : Map) (contents : Bytes) (printed : textsJson.to_string map contents = true) :
    textsJson.from_str contents = some map := by
  have member := of_decide_eq_true printed
  simp only [texts, List.mem_cons, Prod.mk.injEq, List.not_mem_nil, or_false] at member
  rcases member with ⟨rfl, rfl⟩ | ⟨rfl, rfl⟩ <;> decide

/-- A restart on the same file changes no answer. Between two messages, the queued
log leads from the writer's map to the actor's. -/
theorem restart_transparent {json : Json}
    (round_trip : ∀ map contents, json.to_string map contents = true → json.from_str contents = some map)
    {file : Option Bytes} {history : List PairEvent} {pair : Pair} (reaches : (sound json file).Reaches history pair) :
    (∀ map, pair.inc.actor = .recv map ∨ pair.inc.actor = .heartbeat map →
      ∃ held, pair.inc.writer.map? = some held ∧ replay held pair.inc.log = map) ∧
    (pair.inc.actor = .stopped → pair.inc.writer = .ended → ∀ later after whole final,
      (sound json pair.file).Reaches later after → (sound json file).Reaches whole final →
        (responses PairEvent.answered? whole).map Prod.fst =
          (responses PairEvent.answered? history ++ responses PairEvent.answered? later).map Prod.fst →
        responses PairEvent.answered? whole =
          responses PairEvent.answered? history ++ responses PairEvent.answered? later) := by
  obtain ⟨legal, synced⟩ := pair_synced reaches
  refine ⟨?_, ?_⟩
  · intro map idle
    have has : pair.inc.actor.map? = some map := by
      rcases idle with idle | idle <;> rw [idle] <;> rfl
    have logged : pair.inc.actor.logged map = map := by
      rcases idle with idle | idle <;> rw [idle] <;> rfl
    obtain ⟨_, loaded⟩ := synced.settled has
    have unended := synced.unended (by rcases idle with idle | idle <;> simp [idle])
    obtain ⟨held, found⟩ : ∃ held, pair.inc.writer.map? = some held := by
      cases writer : pair.inc.writer <;> simp_all [WriterActor.map?, WriterActor.loading]
    refine ⟨held, found, ?_⟩
    rw [synced.replayed held found, ← synced.own map has, logged]
  · intro stopped ended later after whole final restarted unbroken same
    have stored := synced.stored
    simp only [Stored, ended] at stored
    obtain ⟨_, _, contents, printed, file_contents⟩ := stored
    have continued : loaded json pair.file = hashMap.after (loaded json file) (responses PairEvent.answered? history) := by
      rw [file_contents, loaded, Option.elim_some, load_map, round_trip _ _ printed, Option.getD_some]
    have legal_later := (pair_synced restarted).1
    rw [continued] at legal_later
    exact hashMap.legal_unique (pair_synced unbroken).1 ((hashMap.legal_append _ _ _).mpr ⟨legal, legal_later⟩) same

/-- A `set` is answered while the log is still queued; the `get` that follows the
restart finds it. -/
theorem restart_transparent_set :
    let start : List PairEvent := [.actor .start, .writer .open, .writer .create, .writer (.recv [123, 125]), .actor .takeMap]
    let set : List PairEvent := [.deliver (.set "a" [1] 0), .actor .recv, .actor .log, .actor (.answer (.set "a" [1] 0) .done)]
    let drain : List PairEvent := [.drop, .actor .close, .writer .setLen, .writer .seek, .writer (.write 2), .writer .flush,
      .writer (.recv [123, 34, 97, 34, 58, 91, 49, 93, 125]), .writer .setLen, .writer .seek, .writer (.write 4),
      .writer (.write 5), .writer .flush, .writer .close]
    let restart : List PairEvent := [.actor .start, .writer .open, .writer (.read 9), .writer .parse, .writer .create,
      .writer (.recv [123, 34, 97, 34, 58, 91, 49, 93, 125]), .actor .takeMap]
    let get : List PairEvent := [.deliver (.get "a" 1), .actor .recv, .actor .log,
      .actor (.answer (.get "a" 1) (.found (some [1])))]
    responses PairEvent.answered? (start ++ set ++ get) =
      responses PairEvent.answered? (start ++ set ++ drain) ++ responses PairEvent.answered? (restart ++ get) := by
  intro start set drain restart get
  obtain ⟨pair, reaches, stopped, ended, file⟩ : ∃ pair, (sound textsJson none).Reaches (start ++ set ++ drain) pair ∧
      pair.inc.actor = .stopped ∧ pair.inc.writer = .ended ∧ pair.file = some [123, 34, 97, 34, 58, 91, 49, 93, 125] :=
    ⟨_, rfl, rfl, rfl, rfl⟩
  obtain ⟨after, restarted⟩ : ∃ after, (sound textsJson pair.file).Reaches (restart ++ get) after := by
    rw [file]
    exact ⟨_, rfl⟩
  obtain ⟨final, unbroken⟩ : ∃ final, (sound textsJson none).Reaches (start ++ set ++ get) final := ⟨_, rfl⟩
  exact (restart_transparent textsJson_round_trip reaches).2 stopped ended _ after _ final restarted unbroken rfl

end RustAsyncAwait.KeyValueStore
