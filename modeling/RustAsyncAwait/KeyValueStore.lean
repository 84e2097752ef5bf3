import RustAsyncAwait.Library.Machine
import RustAsyncAwait.Library.HashMap
import RustAsyncAwait.Library.Linearizable

/-! The key-value store of `chap8/key_value_store_actor_model.rs`. A step of an
actor ends where it awaits, and no step crosses a point where another task could
see the difference. `heartbeat_actor` only takes messages: what follows its loop
is unreachable while the router holds the sender. -/

namespace RustAsyncAwait.KeyValueStore
open Library

/-- The capacity of every `channel(32)`. -/
def capacity : Nat := 32

abbrev Bytes := List UInt8

abbrev Map := HashMap String Bytes

/-- `serde_json` on the maps of the store. `to_string` says which texts a map can
give, since the order of a `HashMap`'s entries is not fixed. -/
structure Json where
  to_string : Map → Bytes → Bool
  from_str : Bytes → Option Map

/-- `response` names the oneshot channel of the answer. -/
inductive KeyValueMessage
  | get (key : String) (response : Nat)
  | delete (key : String) (response : Nat)
  | set (key : String) (value : Bytes) (response : Nat)
deriving DecidableEq

/-- What is sent through a oneshot channel: `()`, or what `get` found. -/
inductive Answer
  | done
  | found (value : Option Bytes)
deriving DecidableEq

inductive ActorType
  | keyValue
  | writer
deriving DecidableEq

inductive RoutingMessage
  | keyValue (message : KeyValueMessage)
  | heartbeat (actor : ActorType)
  | reset (actor : ActorType)
deriving DecidableEq

/-- `get` is answered through the oneshot channel `Incarnation.reply`. -/
inductive WriterLogMessage
  | set (key : String) (value : Bytes)
  | delete (key : String)
  | get
deriving DecidableEq

namespace KeyValueMessage

def response : KeyValueMessage → Nat
  | get _ response | delete _ response | set _ _ response => response

def apply (map : Map) : KeyValueMessage → Map
  | get _ _ => map
  | delete key _ => map.erase key
  | set key value _ => map.insert key value

def answer (map : Map) : KeyValueMessage → Answer
  | get key _ => .found map[key]?
  | delete _ _ | set _ _ _ => .done

end KeyValueMessage

namespace WriterLogMessage

def from_key_value_message : KeyValueMessage → Option WriterLogMessage
  | .get _ _ => none
  | .delete key _ => some (delete key)
  | .set key value _ => some (set key value)

def apply (map : Map) : WriterLogMessage → Map
  | set key value => map.insert key value
  | delete key => map.erase key
  | get => map

end WriterLogMessage

/-- Where `key_value_actor` stands. In `log` it sends a message's log entry, in
`answer` it applies and answers the message. -/
inductive KeyValueActor
  | start
  | awaitMap
  | recv (map : Map)
  | log (map : Map) (message : KeyValueMessage)
  | answer (map : Map) (message : KeyValueMessage)
  | heartbeat (map : Map)
  | stopped

/-- Where `writer_actor` stands. From `setLen` on it writes `contents`, of which
`written` bytes are in the file. -/
inductive WriterActor
  | unspawned
  | open
  | read (contents : Bytes)
  | create (map : Map)
  | recv (map : Map)
  | setLen (map : Map) (contents : Bytes)
  | seek (map : Map) (contents : Bytes)
  | write (map : Map) (contents : Bytes) (written : Nat)
  | heartbeat (map : Map)
  | ended

/-- One `key_value_actor` with its channel and the writer it spawned. `closed`
says that no sender of its channel is left. -/
structure Incarnation where
  inbox : List KeyValueMessage := []
  closed : Bool := false
  aborted : Bool := false
  actor : KeyValueActor := .start
  reply : Option Map := none
  log : List WriterLogMessage := []
  writer : WriterActor := .unspawned

/-- `panic` is `unwrap` on a reply that will not come, `close` is `recv` on a
closed channel, and `cancel` is the abort taking effect. -/
inductive ActorEvent
  | start
  | takeMap
  | panic
  | recv
  | log
  | answer (message : KeyValueMessage) (answer : Answer)
  | timeout
  | heartbeat
  | close
  | cancel
deriving DecidableEq

/-- `read` and `write` move some bytes, `parse` and `flush` follow the last of
them, and `fail` is an operation on the file that returns an error. -/
inductive WriterEvent
  | open
  | read (count : Nat)
  | parse
  | create
  | recv (contents : Bytes)
  | setLen
  | seek
  | write (count : Nat)
  | flush
  | timeout
  | heartbeat
  | close
  | fail
deriving DecidableEq

namespace KeyValueActor

@[simp] def isStopped : KeyValueActor → Bool
  | stopped => true
  | _ => false

/-- A task is dropped only where it awaits. Between taking a `get` and answering
it there is no await, nor between sending a log entry and answering. -/
def cancellable : KeyValueActor → Bool
  | start | awaitMap | recv _ | heartbeat _ => true
  | log _ message => (WriterLogMessage.from_key_value_message message).isSome
  | answer _ _ | stopped => false

end KeyValueActor

@[simp] def WriterActor.isEnded : WriterActor → Bool
  | ended => true
  | _ => false

namespace Incarnation

/-- The task ends: it drops its receiver, and the messages in it. -/
def stop (inc : Incarnation) : Incarnation := { inc with actor := .stopped, inbox := [] }

/-- `key_value_actor`. Its heartbeat goes to the router's channel, which is not
part of the incarnation. -/
def actorStep (inc : Incarnation) : ActorEvent → Option Incarnation
  | .start =>
    match inc.actor with
    | .start => some { inc with actor := .awaitMap, log := [.get], writer := .open }
    | _ => none
  | .takeMap =>
    match inc.actor, inc.reply with
    | .awaitMap, some map => some { inc with actor := .recv map }
    | _, _ => none
  | .panic =>
    match inc.actor, inc.reply, inc.writer with
    | .awaitMap, none, .ended => some inc.stop
    | _, _, _ => none
  | .recv =>
    match inc.actor, inc.inbox with
    | .recv map, message :: rest => some { inc with inbox := rest, actor := .log map message }
    | _, _ => none
  | .log =>
    match inc.actor with
    | .log map message =>
      match WriterLogMessage.from_key_value_message message with
      | none => some { inc with actor := .answer map message }
      | some entry =>
        if inc.writer.isEnded then some { inc with actor := .answer map message }
        else if inc.log.length < capacity then
          some { inc with log := inc.log ++ [entry], actor := .answer map message }
        else none
    | _ => none
  | .answer message answer =>
    match inc.actor with
    | .answer map held =>
      if message = held ∧ answer = message.answer map then some { inc with actor := .recv (message.apply map) } else none
    | _ => none
  | .timeout =>
    match inc.actor with
    | .recv map => if inc.inbox = [] ∧ inc.closed = false then some { inc with actor := .heartbeat map } else none
    | _ => none
  | .heartbeat =>
    match inc.actor with
    | .heartbeat map => some { inc with actor := .recv map }
    | _ => none
  | .close =>
    match inc.actor with
    | .recv _ => if inc.inbox = [] ∧ inc.closed = true then some inc.stop else none
    | _ => none
  | .cancel => if inc.aborted = true ∧ inc.actor.cancellable = true then some inc.stop else none

end Incarnation

/-- Writing at a position past the end of the file fills the gap with zeros. -/
def overwrite (file : Bytes) (position : Nat) (chunk : Bytes) : Bytes :=
  file.take position ++ List.replicate (position - file.length) 0 ++ chunk ++ file.drop (position + chunk.length)

/-- An incarnation with the file `data.json`, which is `none` if it does not exist. -/
structure Pair where
  inc : Incarnation := {}
  file : Option Bytes

/-- `load_map` on a file that can be read. -/
def load_map (json : Json) (contents : Bytes) : Map := (json.from_str contents).getD ∅

namespace Pair

def setWriter (pair : Pair) (writer : WriterActor) : Pair := { pair with inc.writer := writer }

/-- `writer_actor`. Its heartbeat goes to the router's channel. -/
def writerStep (json : Json) (pair : Pair) : WriterEvent → Option Pair
  | .open =>
    match pair.inc.writer with
    | .open => some (pair.setWriter (if pair.file.isSome then .read [] else .create ∅))
    | _ => none
  | .read count =>
    match pair.inc.writer, pair.file with
    | .read contents, some file =>
      let chunk := (file.drop contents.length).take count
      if chunk = [] then none else some (pair.setWriter (.read (contents ++ chunk)))
    | _, _ => none
  | .parse =>
    match pair.inc.writer, pair.file with
    | .read contents, some file =>
      if file.drop contents.length = [] then some (pair.setWriter (.create (load_map json contents))) else none
    | _, _ => none
  | .create =>
    match pair.inc.writer with
    | .create map => some { pair.setWriter (.recv map) with file := some [] }
    | _ => none
  | .recv contents =>
    match pair.inc.writer, pair.inc.log with
    | .recv map, entry :: rest =>
      let map := entry.apply map
      let reply := if entry = .get then some map else pair.inc.reply
      if json.to_string map contents then
        some { pair with inc := { pair.inc with log := rest, reply := reply, writer := .setLen map contents } }
      else none
    | _, _ => none
  | .setLen =>
    match pair.inc.writer with
    | .setLen map contents => some { pair.setWriter (.seek map contents) with file := some [] }
    | _ => none
  | .seek =>
    match pair.inc.writer with
    | .seek map contents => some (pair.setWriter (.write map contents 0))
    | _ => none
  | .write count =>
    match pair.inc.writer, pair.file with
    | .write map contents written, some file =>
      let chunk := (contents.drop written).take count
      if chunk = [] then none
      else some { pair.setWriter (.write map contents (written + chunk.length)) with
        file := some (overwrite file written chunk) }
    | _, _ => none
  | .flush =>
    match pair.inc.writer with
    | .write map contents written => if written = contents.length then some (pair.setWriter (.recv map)) else none
    | _ => none
  | .timeout =>
    match pair.inc.writer with
    | .recv map =>
      if pair.inc.log = [] ∧ pair.inc.actor.isStopped = false then some (pair.setWriter (.heartbeat map)) else none
    | _ => none
  | .heartbeat =>
    match pair.inc.writer with
    | .heartbeat map => some (pair.setWriter (.recv map))
    | _ => none
  | .close =>
    match pair.inc.writer with
    | .recv _ => if pair.inc.log = [] ∧ pair.inc.actor.isStopped = true then some (pair.setWriter .ended) else none
    | _ => none
  | .fail =>
    match pair.inc.writer with
    | .open | .read _ => some (pair.setWriter (.create ∅))
    | .create _ | .setLen _ _ | .seek _ _ | .write _ _ _ => some (pair.setWriter .ended)
    | _ => none

end Pair

/-- Messages reach the incarnation's channel until its last sender is dropped. -/
inductive PairEvent
  | deliver (message : KeyValueMessage)
  | drop
  | actor (event : ActorEvent)
  | writer (event : WriterEvent)
deriving DecidableEq

def Pair.step (json : Json) (pair : Pair) : PairEvent → Option Pair
  | .deliver message =>
    if pair.inc.closed = false ∧ pair.inc.inbox.length < capacity then
      some { pair with inc.inbox := pair.inc.inbox ++ [message] }
    else none
  | .drop => some { pair with inc.closed := true }
  | .actor event => (pair.inc.actorStep event).map fun inc => { pair with inc }
  | .writer event => pair.writerStep json event

/-- One incarnation of the store on this file. -/
def incarnation (json : Json) (file : Option Bytes) : Machine Pair PairEvent where
  init := { file }
  step := Pair.step json

/-- Where the router stands: at `recv`, sending on what it received, or in the
sleep that follows a reset. -/
inductive Router
  | recv
  | forward (message : KeyValueMessage)
  | beat (actor : ActorType)
  | asleep

/-- `callers` wait in their `send` to the router. The router's sender belongs to
the last incarnation. -/
structure System where
  calls : Nat := 0
  callers : List KeyValueMessage := []
  routerChannel : List RoutingMessage := []
  router : Router := .recv
  heartbeatChannel : List ActorType := []
  incarnations : List Incarnation := [{}]
  file : Option Bytes

/-- `call` is a client that calls `set`, `get` or `delete`, `send` its message
entering the router's channel, and `reset` somebody sending a `Reset`. The router
takes a message with `route` and passes it on with `forward`. -/
inductive Event
  | call (message : KeyValueMessage)
  | send (message : KeyValueMessage)
  | reset (actor : ActorType)
  | route
  | forward
  | wakeUp
  | heartbeat
  | actor (index : Nat) (event : ActorEvent)
  | writer (index : Nat) (event : WriterEvent)
deriving DecidableEq

namespace System

def current (state : System) : Nat := state.incarnations.length - 1

def update (state : System) (index : Nat) (inc : Incarnation) : System :=
  { state with incarnations := state.incarnations.set index inc }

/-- A task's heartbeat waits for room in the router's channel. -/
def beat (state : System) (actor : ActorType) : Option System :=
  if state.routerChannel.length < capacity then
    some { state with routerChannel := state.routerChannel ++ [.heartbeat actor] }
  else none

/-- `abort`, then a fresh channel and a fresh `key_value_actor`. -/
def replace (state : System) : System :=
  { state with
    incarnations := (state.incarnations.modify state.current fun inc => { inc with closed := true, aborted := true }) ++ [{}]
    router := .asleep }

def step (json : Json) (state : System) : Event → Option System
  | .call message =>
    if message.response = state.calls then
      some { state with calls := state.calls + 1, callers := state.callers ++ [message] }
    else none
  | .send message =>
    if message ∈ state.callers ∧ state.routerChannel.length < capacity then
      some { state with
        callers := state.callers.erase message
        routerChannel := state.routerChannel ++ [.keyValue message] }
    else none
  | .reset actor =>
    if state.routerChannel.length < capacity then
      some { state with routerChannel := state.routerChannel ++ [.reset actor] }
    else none
  | .route =>
    match state.router, state.routerChannel with
    | .recv, .keyValue message :: rest => some { state with router := .forward message, routerChannel := rest }
    | .recv, .heartbeat actor :: rest => some { state with router := .beat actor, routerChannel := rest }
    | .recv, .reset _ :: rest => some (replace { state with routerChannel := rest })
    | _, _ => none
  | .forward =>
    match state.router, state.incarnations[state.current]? with
    | .forward message, some inc =>
      if inc.actor.isStopped then some { state with router := .recv }
      else if inc.inbox.length < capacity then
        some (update { state with router := .recv } state.current { inc with inbox := inc.inbox ++ [message] })
      else none
    | .beat actor, _ =>
      if state.heartbeatChannel.length < capacity then
        some { state with router := .recv, heartbeatChannel := state.heartbeatChannel ++ [actor] }
      else none
    | _, _ => none
  | .wakeUp =>
    match state.router with
    | .asleep => some { state with router := .recv }
    | _ => none
  | .heartbeat =>
    match state.heartbeatChannel with
    | _ :: rest => some { state with heartbeatChannel := rest }
    | [] => none
  | .actor index event =>
    match state.incarnations[index]? with
    | some inc =>
      (inc.actorStep event).bind fun next =>
        let state := state.update index next
        if event = .heartbeat then state.beat .keyValue else some state
    | none => none
  | .writer index event =>
    match state.incarnations[index]? with
    | some inc =>
      (Pair.writerStep json ⟨inc, state.file⟩ event).bind fun next =>
        let state := { state with file := next.file }.update index next.inc
        if event = .heartbeat then state.beat .writer else some state
    | none => none

end System

/-- The store on this file, as `main` starts it. -/
def store (json : Json) (file : Option Bytes) : Machine System Event where
  init := { file }
  step := System.step json

end RustAsyncAwait.KeyValueStore
