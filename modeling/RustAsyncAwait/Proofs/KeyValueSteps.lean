import RustAsyncAwait.KeyValueStore

/-! What a step of the key-value store can do, with the guards it passed. -/

namespace RustAsyncAwait.KeyValueStore
open Library

@[simp] def ActorEvent.answered? : ActorEvent → Option (KeyValueMessage × Answer)
  | .answer message result => some (message, result)
  | _ => none

namespace WriterActor

/-- Before `load_map` has returned. -/
def loading : WriterActor → Bool
  | unspawned | «open» | read _ => true
  | _ => false

/-- Where an error of the file ends the writer. -/
def writing : WriterActor → Bool
  | create _ | setLen _ _ | seek _ _ | write _ _ _ => true
  | _ => false

end WriterActor

inductive ActorStep : Incarnation → ActorEvent → Incarnation → Prop
  | start {inc} (fresh : inc.actor = .start) :
      ActorStep inc .start { inc with actor := .awaitMap, log := [.get], writer := .open }
  | takeMap {inc map} (waits : inc.actor = .awaitMap) (replied : inc.reply = some map) :
      ActorStep inc .takeMap { inc with actor := .recv map }
  | panic {inc} (waits : inc.actor = .awaitMap) (silent : inc.reply = none) (ended : inc.writer = .ended) :
      ActorStep inc .panic inc.stop
  | recv {inc map message rest} (idle : inc.actor = .recv map) (front : inc.inbox = message :: rest) :
      ActorStep inc .recv { inc with inbox := rest, actor := .log map message }
  | pass {inc map message} (held : inc.actor = .log map message)
      (unlogged : WriterLogMessage.from_key_value_message message = none) :
      ActorStep inc .log { inc with actor := .answer map message }
  | refuse {inc map message entry} (held : inc.actor = .log map message)
      (logged : WriterLogMessage.from_key_value_message message = some entry) (ended : inc.writer.isEnded = true) :
      ActorStep inc .log { inc with actor := .answer map message }
  | log {inc map message entry} (held : inc.actor = .log map message)
      (logged : WriterLogMessage.from_key_value_message message = some entry) (alive : inc.writer.isEnded = false)
      (room : inc.log.length < capacity) :
      ActorStep inc .log { inc with log := inc.log ++ [entry], actor := .answer map message }
  | answer {inc map message} (held : inc.actor = .answer map message) :
      ActorStep inc (.answer message (message.answer map)) { inc with actor := .recv (message.apply map) }
  | timeout {inc map} (idle : inc.actor = .recv map) (empty : inc.inbox = []) (opened : inc.closed = false) :
      ActorStep inc .timeout { inc with actor := .heartbeat map }
  | heartbeat {inc map} (beats : inc.actor = .heartbeat map) : ActorStep inc .heartbeat { inc with actor := .recv map }
  | close {inc map} (idle : inc.actor = .recv map) (empty : inc.inbox = []) (closed : inc.closed = true) :
      ActorStep inc .close inc.stop
  | cancel {inc} (aborted : inc.aborted = true) (awaits : inc.actor.cancellable = true) : ActorStep inc .cancel inc.stop

theorem actorStep_cases {inc next : Incarnation} {event : ActorEvent} (stepped : inc.actorStep event = some next) :
    ActorStep inc event next := by
  cases event with
  | start =>
    simp only [Incarnation.actorStep] at stepped
    split at stepped
    next fresh => cases stepped; exact .start fresh
    next => cases stepped
  | takeMap =>
    simp only [Incarnation.actorStep] at stepped
    split at stepped
    next map waits replied => cases stepped; exact .takeMap waits replied
    next => cases stepped
  | panic =>
    simp only [Incarnation.actorStep] at stepped
    split at stepped
    next waits silent ended => cases stepped; exact .panic waits silent ended
    next => cases stepped
  | recv =>
    simp only [Incarnation.actorStep] at stepped
    split at stepped
    next map message rest idle front => cases stepped; exact .recv idle front
    next => cases stepped
  | log =>
    simp only [Incarnation.actorStep] at stepped
    split at stepped
    next map message held =>
      split at stepped
      next unlogged => cases stepped; exact .pass held unlogged
      next entry logged =>
        split at stepped
        next ended => cases stepped; exact .refuse held logged ended
        next alive =>
          simp only [Option.ite_none_right_eq_some, Option.some.injEq] at stepped
          obtain ⟨room, rfl⟩ := stepped
          exact .log held logged (by simpa using alive) room
    next => cases stepped
  | answer message answer =>
    simp only [Incarnation.actorStep] at stepped
    split at stepped
    next map held_message held =>
      simp only [Option.ite_none_right_eq_some, Option.some.injEq] at stepped
      obtain ⟨⟨rfl, rfl⟩, rfl⟩ := stepped
      exact .answer held
    next => cases stepped
  | timeout =>
    simp only [Incarnation.actorStep] at stepped
    split at stepped
    next map idle =>
      simp only [Option.ite_none_right_eq_some, Option.some.injEq] at stepped
      obtain ⟨⟨empty, opened⟩, rfl⟩ := stepped
      exact .timeout idle empty opened
    next => cases stepped
  | heartbeat =>
    simp only [Incarnation.actorStep] at stepped
    split at stepped
    next map beats => cases stepped; exact .heartbeat beats
    next => cases stepped
  | close =>
    simp only [Incarnation.actorStep] at stepped
    split at stepped
    next map idle =>
      simp only [Option.ite_none_right_eq_some, Option.some.injEq] at stepped
      obtain ⟨⟨empty, closed⟩, rfl⟩ := stepped
      exact .close idle empty closed
    next => cases stepped
  | cancel =>
    simp only [Incarnation.actorStep, Option.ite_none_right_eq_some, Option.some.injEq] at stepped
    obtain ⟨⟨aborted, awaits⟩, rfl⟩ := stepped
    exact .cancel aborted awaits

inductive WriterStep (json : Json) : Pair → WriterEvent → Pair → Prop
  | open {pair} (spawned : pair.inc.writer = .open) :
      WriterStep json pair .open (pair.setWriter (if pair.file.isSome then .read [] else .create ∅))
  | read {pair contents file chunk count} (reading : pair.inc.writer = .read contents) (present : pair.file = some file)
      (some_bytes : (file.drop contents.length).take count = chunk) (moves : chunk ≠ []) :
      WriterStep json pair (.read count) (pair.setWriter (.read (contents ++ chunk)))
  | parse {pair contents file} (reading : pair.inc.writer = .read contents) (present : pair.file = some file)
      (complete : file.drop contents.length = []) :
      WriterStep json pair .parse (pair.setWriter (.create (load_map json contents)))
  | create {pair map} (loaded : pair.inc.writer = .create map) :
      WriterStep json pair .create { pair.setWriter (.recv map) with file := some [] }
  | recv {pair map entry rest contents} (idle : pair.inc.writer = .recv map) (front : pair.inc.log = entry :: rest)
      (printed : json.to_string (entry.apply map) contents = true) :
      WriterStep json pair (.recv contents)
        { pair with
          inc := { pair.inc with
            log := rest
            reply := if entry = .get then some (entry.apply map) else pair.inc.reply
            writer := .setLen (entry.apply map) contents } }
  | setLen {pair map contents} (printed : pair.inc.writer = .setLen map contents) :
      WriterStep json pair .setLen { pair.setWriter (.seek map contents) with file := some [] }
  | seek {pair map contents} (emptied : pair.inc.writer = .seek map contents) :
      WriterStep json pair .seek (pair.setWriter (.write map contents 0))
  | write {pair map contents written file chunk count} (writing : pair.inc.writer = .write map contents written)
      (present : pair.file = some file) (some_bytes : (contents.drop written).take count = chunk) (moves : chunk ≠ []) :
      WriterStep json pair (.write count)
        { pair.setWriter (.write map contents (written + chunk.length)) with file := some (overwrite file written chunk) }
  | flush {pair map contents} (writing : pair.inc.writer = .write map contents contents.length) :
      WriterStep json pair .flush (pair.setWriter (.recv map))
  | timeout {pair map} (idle : pair.inc.writer = .recv map) (empty : pair.inc.log = [])
      (alive : pair.inc.actor.isStopped = false) :
      WriterStep json pair .timeout (pair.setWriter (.heartbeat map))
  | heartbeat {pair map} (beats : pair.inc.writer = .heartbeat map) :
      WriterStep json pair .heartbeat (pair.setWriter (.recv map))
  | close {pair map} (idle : pair.inc.writer = .recv map) (empty : pair.inc.log = [])
      (stopped : pair.inc.actor.isStopped = true) :
      WriterStep json pair .close (pair.setWriter .ended)
  | unreadable {pair} (loading : pair.inc.writer = .open ∨ ∃ contents, pair.inc.writer = .read contents) :
      WriterStep json pair .fail (pair.setWriter (.create ∅))
  | fail {pair} (writing : pair.inc.writer.writing = true) : WriterStep json pair .fail (pair.setWriter .ended)

theorem writerStep_cases {json : Json} {pair next : Pair} {event : WriterEvent}
    (stepped : pair.writerStep json event = some next) : WriterStep json pair event next := by
  cases event with
  | «open» =>
    simp only [Pair.writerStep] at stepped
    split at stepped
    next spawned => cases stepped; exact .open spawned
    next => cases stepped
  | read count =>
    simp only [Pair.writerStep] at stepped
    split at stepped
    next contents file reading present =>
      split at stepped
      next => cases stepped
      next moves => cases stepped; exact .read reading present rfl moves
    next => cases stepped
  | parse =>
    simp only [Pair.writerStep] at stepped
    split at stepped
    next contents file reading present =>
      simp only [Option.ite_none_right_eq_some, Option.some.injEq] at stepped
      obtain ⟨complete, rfl⟩ := stepped
      exact .parse reading present complete
    next => cases stepped
  | create =>
    simp only [Pair.writerStep] at stepped
    split at stepped
    next map loaded => cases stepped; exact .create loaded
    next => cases stepped
  | recv contents =>
    simp only [Pair.writerStep] at stepped
    split at stepped
    next map entry rest idle front =>
      simp only [Option.ite_none_right_eq_some, Option.some.injEq] at stepped
      obtain ⟨printed, rfl⟩ := stepped
      exact .recv idle front printed
    next => cases stepped
  | setLen =>
    simp only [Pair.writerStep] at stepped
    split at stepped
    next map contents printed => cases stepped; exact .setLen printed
    next => cases stepped
  | seek =>
    simp only [Pair.writerStep] at stepped
    split at stepped
    next map contents emptied => cases stepped; exact .seek emptied
    next => cases stepped
  | write count =>
    simp only [Pair.writerStep] at stepped
    split at stepped
    next map contents written file writing present =>
      split at stepped
      next => cases stepped
      next moves => cases stepped; exact .write writing present rfl moves
    next => cases stepped
  | flush =>
    simp only [Pair.writerStep] at stepped
    split at stepped
    next map contents written writing =>
      simp only [Option.ite_none_right_eq_some, Option.some.injEq] at stepped
      obtain ⟨rfl, rfl⟩ := stepped
      exact .flush writing
    next => cases stepped
  | timeout =>
    simp only [Pair.writerStep] at stepped
    split at stepped
    next map idle =>
      simp only [Option.ite_none_right_eq_some, Option.some.injEq] at stepped
      obtain ⟨⟨empty, alive⟩, rfl⟩ := stepped
      exact .timeout idle empty alive
    next => cases stepped
  | heartbeat =>
    simp only [Pair.writerStep] at stepped
    split at stepped
    next map beats => cases stepped; exact .heartbeat beats
    next => cases stepped
  | close =>
    simp only [Pair.writerStep] at stepped
    split at stepped
    next map idle =>
      simp only [Option.ite_none_right_eq_some, Option.some.injEq] at stepped
      obtain ⟨⟨empty, stopped⟩, rfl⟩ := stepped
      exact .close idle empty stopped
    next => cases stepped
  | fail =>
    simp only [Pair.writerStep] at stepped
    split at stepped
    next spawned => cases stepped; exact .unreadable (.inl spawned)
    next contents reading => cases stepped; exact .unreadable (.inr ⟨contents, reading⟩)
    next loaded => cases stepped; exact .fail (by rw [loaded]; rfl)
    next printed => cases stepped; exact .fail (by rw [printed]; rfl)
    next emptied => cases stepped; exact .fail (by rw [emptied]; rfl)
    next writing => cases stepped; exact .fail (by rw [writing]; rfl)
    next => cases stepped

/-- Steps of the whole store. The router's current incarnation is the last one. -/
inductive SystemStep (json : Json) : System → Event → System → Prop
  | call {state message} (fresh : message.response = state.calls) :
      SystemStep json state (.call message) { state with calls := state.calls + 1, callers := state.callers ++ [message] }
  | send {state message} (waits : message ∈ state.callers) (room : state.routerChannel.length < capacity) :
      SystemStep json state (.send message)
        { state with
          callers := state.callers.erase message
          routerChannel := state.routerChannel ++ [.keyValue message] }
  | reset {state actor} (room : state.routerChannel.length < capacity) :
      SystemStep json state (.reset actor) { state with routerChannel := state.routerChannel ++ [.reset actor] }
  | routeMessage {state message rest} (idle : state.router = .recv)
      (front : state.routerChannel = .keyValue message :: rest) :
      SystemStep json state .route { state with router := .forward message, routerChannel := rest }
  | routeBeat {state actor rest} (idle : state.router = .recv) (front : state.routerChannel = .heartbeat actor :: rest) :
      SystemStep json state .route { state with router := .beat actor, routerChannel := rest }
  | routeReset {state actor rest} (idle : state.router = .recv) (front : state.routerChannel = .reset actor :: rest) :
      SystemStep json state .route (System.replace { state with routerChannel := rest })
  | refuse {state message inc} (holds : state.router = .forward message)
      (found : state.incarnations[state.current]? = some inc) (stopped : inc.actor.isStopped = true) :
      SystemStep json state .forward { state with router := .recv }
  | forward {state message inc} (holds : state.router = .forward message)
      (found : state.incarnations[state.current]? = some inc) (alive : inc.actor.isStopped = false)
      (room : inc.inbox.length < capacity) :
      SystemStep json state .forward
        (System.update { state with router := .recv } state.current { inc with inbox := inc.inbox ++ [message] })
  | forwardBeat {state actor} (holds : state.router = .beat actor) (room : state.heartbeatChannel.length < capacity) :
      SystemStep json state .forward
        { state with router := .recv, heartbeatChannel := state.heartbeatChannel ++ [actor] }
  | wakeUp {state} (asleep : state.router = .asleep) : SystemStep json state .wakeUp { state with router := .recv }
  | heartbeat {state actor rest} (front : state.heartbeatChannel = actor :: rest) :
      SystemStep json state .heartbeat { state with heartbeatChannel := rest }
  | actor {state index event inc next} (found : state.incarnations[index]? = some inc)
      (stepped : ActorStep inc event next) (quiet : event ≠ .heartbeat) :
      SystemStep json state (.actor index event) (state.update index next)
  | actorBeat {state index inc next} (found : state.incarnations[index]? = some inc)
      (stepped : ActorStep inc .heartbeat next) (room : state.routerChannel.length < capacity) :
      SystemStep json state (.actor index .heartbeat)
        { state.update index next with routerChannel := state.routerChannel ++ [.heartbeat .keyValue] }
  | writer {state index event inc next} (found : state.incarnations[index]? = some inc)
      (stepped : WriterStep json ⟨inc, state.file⟩ event next) (quiet : event ≠ .heartbeat) :
      SystemStep json state (.writer index event) (System.update { state with file := next.file } index next.inc)
  | writerBeat {state index inc next} (found : state.incarnations[index]? = some inc)
      (stepped : WriterStep json ⟨inc, state.file⟩ .heartbeat next) (room : state.routerChannel.length < capacity) :
      SystemStep json state (.writer index .heartbeat)
        { System.update { state with file := next.file } index next.inc with
          routerChannel := state.routerChannel ++ [.heartbeat .writer] }

theorem system_cases {json : Json} {state next : System} {event : Event} (stepped : state.step json event = some next) :
    SystemStep json state event next := by
  cases event with
  | call message =>
    simp only [System.step, Option.ite_none_right_eq_some, Option.some.injEq] at stepped
    obtain ⟨fresh, rfl⟩ := stepped
    exact .call fresh
  | send message =>
    simp only [System.step, Option.ite_none_right_eq_some, Option.some.injEq] at stepped
    obtain ⟨⟨waits, room⟩, rfl⟩ := stepped
    exact .send waits room
  | reset actor =>
    simp only [System.step, Option.ite_none_right_eq_some, Option.some.injEq] at stepped
    obtain ⟨room, rfl⟩ := stepped
    exact .reset room
  | route =>
    simp only [System.step] at stepped
    split at stepped
    next message rest idle front => cases stepped; exact .routeMessage idle front
    next actor rest idle front => cases stepped; exact .routeBeat idle front
    next actor rest idle front => cases stepped; exact .routeReset idle front
    next => cases stepped
  | forward =>
    simp only [System.step] at stepped
    split at stepped
    next message inc holds found =>
      split at stepped
      next stopped => cases stepped; exact .refuse holds found stopped
      next alive =>
        simp only [Option.ite_none_right_eq_some, Option.some.injEq] at stepped
        obtain ⟨room, rfl⟩ := stepped
        exact .forward holds found (by simpa using alive) room
    next actor _ holds =>
      simp only [Option.ite_none_right_eq_some, Option.some.injEq] at stepped
      obtain ⟨room, rfl⟩ := stepped
      exact .forwardBeat holds room
    next => cases stepped
  | wakeUp =>
    simp only [System.step] at stepped
    split at stepped
    next asleep => cases stepped; exact .wakeUp asleep
    next => cases stepped
  | heartbeat =>
    simp only [System.step] at stepped
    split at stepped
    next actor rest front => cases stepped; exact .heartbeat front
    next => cases stepped
  | actor index event =>
    simp only [System.step] at stepped
    split at stepped
    next inc found =>
      obtain ⟨moved, acts, rest⟩ := Option.bind_eq_some_iff.mp stepped
      by_cases beats : event = .heartbeat
      · subst beats
        simp only [if_true, System.beat, Option.ite_none_right_eq_some, Option.some.injEq] at rest
        obtain ⟨room, rfl⟩ := rest
        exact .actorBeat found (actorStep_cases acts) room
      · simp only [beats, if_false, Option.some.injEq] at rest
        subst rest
        exact .actor found (actorStep_cases acts) beats
    next => cases stepped
  | writer index event =>
    simp only [System.step] at stepped
    split at stepped
    next inc found =>
      obtain ⟨moved, writes, rest⟩ := Option.bind_eq_some_iff.mp stepped
      by_cases beats : event = .heartbeat
      · subst beats
        simp only [if_true, System.beat, Option.ite_none_right_eq_some, Option.some.injEq] at rest
        obtain ⟨room, rfl⟩ := rest
        exact .writerBeat found (writerStep_cases writes) room
      · simp only [beats, if_false, Option.some.injEq] at rest
        subst rest
        exact .writer found (writerStep_cases writes) beats
    next => cases stepped

end RustAsyncAwait.KeyValueStore
