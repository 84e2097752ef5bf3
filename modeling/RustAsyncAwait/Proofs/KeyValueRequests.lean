import RustAsyncAwait.Library.Lists
import RustAsyncAwait.Proofs.KeyValueSteps
import Mathlib.Data.List.Perm.Basic
import Mathlib.Data.List.Nodup

/-! Where a request is between its call and its answer. A step of the store moves
requests on; it loses one only with an actor that stops. -/

namespace RustAsyncAwait.KeyValueStore
open Library

def RoutingMessage.request? : RoutingMessage → Option KeyValueMessage
  | .keyValue message => some message
  | .heartbeat _ | .reset _ => none

def Router.held : Router → List KeyValueMessage
  | .forward message => [message]
  | .recv | .beat _ | .asleep => []

@[simp] def KeyValueActor.held : KeyValueActor → List KeyValueMessage
  | .log _ message | .answer _ message => [message]
  | .start | .awaitMap | .recv _ | .heartbeat _ | .stopped => []

def Incarnation.requests (inc : Incarnation) : List KeyValueMessage := inc.actor.held ++ inc.inbox

/-- The requests of all clients that wait for their answer. -/
def System.inFlight (state : System) : List KeyValueMessage :=
  state.callers ++ state.routerChannel.filterMap RoutingMessage.request? ++ state.router.held ++
    state.incarnations.flatMap Incarnation.requests

namespace Event

@[simp] def called? : Event → Option KeyValueMessage
  | .call message => some message
  | _ => none

@[simp] def sent? : Event → Option KeyValueMessage
  | .send message => some message
  | _ => none

@[simp] def answered? : Event → Option (KeyValueMessage × Answer)
  | .actor _ event => event.answered?
  | _ => none

/-- The request that this event completes. -/
@[simp] def completed? (event : Event) : Option KeyValueMessage := event.answered?.map Prod.fst

theorem completed_toList (event : Event) : event.answered?.toList.map Prod.fst = event.completed?.toList := by
  unfold completed?
  cases event.answered? <;> rfl

end Event

/-- The calls have their own oneshot channels, so no two of them are the same. -/
theorem called_nodup {trace : List Event} {count : Nat}
    (fresh : (trace.filterMap Event.called?).map KeyValueMessage.response = List.range count) :
    (trace.filterMap Event.called?).Nodup := by
  apply List.Nodup.of_map KeyValueMessage.response
  rw [fresh]
  exact List.nodup_range

theorem SystemStep.fresh {json : Json} {trace : List Event} {state next : System} {event : Event}
    (stepped : SystemStep json state event next)
    (fresh : (trace.filterMap Event.called?).map KeyValueMessage.response = List.range state.calls) :
    ((trace ++ [event]).filterMap Event.called?).map KeyValueMessage.response = List.range next.calls := by
  rw [List.filterMap_append, List.map_append, fresh]
  cases stepped with
  | call numbered => simp [numbered, List.range_succ]
  | _ => simp [System.update, System.replace]

/-- A writer's step leaves its actor and the actor's channel alone. -/
theorem WriterStep.actor_eq {json : Json} {pair next : Pair} {event : WriterEvent}
    (stepped : WriterStep json pair event next) :
    next.inc.actor = pair.inc.actor ∧ next.inc.inbox = pair.inc.inbox ∧ next.inc.closed = pair.inc.closed ∧
      next.inc.aborted = pair.inc.aborted := by
  cases stepped <;> exact ⟨rfl, rfl, rfl, rfl⟩

theorem WriterStep.requests_eq {json : Json} {pair next : Pair} {event : WriterEvent}
    (stepped : WriterStep json pair event next) : next.inc.requests = pair.inc.requests := by
  obtain ⟨actor, inbox, _⟩ := stepped.actor_eq
  rw [Incarnation.requests, actor, inbox, Incarnation.requests]

/-- A request is lost with an actor that stops, or on its way to one that has stopped. -/
inductive System.Loses (state next : System) (message : KeyValueMessage) : Prop
  | stops {index : Nat} {inc event stopped} (found : state.incarnations[index]? = some inc) (had : message ∈ inc.requests)
      (stepped : ActorStep inc event stopped) (after : stopped ∈ next.incarnations)
      (gone : stopped.actor.isStopped = true) : System.Loses state next message
  | refused {inc} (found : state.incarnations[state.current]? = some inc) (after : inc ∈ next.incarnations)
      (gone : inc.actor.isStopped = true) : System.Loses state next message

/-- An actor that goes on keeps its requests, but for the one it answers. -/
theorem ActorStep.requests {inc next : Incarnation} {event : ActorEvent} (stepped : ActorStep inc event next) :
    ∃ dropped, (next.requests ++ (event.answered?.map Prod.fst).toList ++ dropped).Perm inc.requests ∧
      ∀ message ∈ dropped, message ∈ inc.requests ∧ next.actor.isStopped = true := by
  cases stepped with
  | start place | takeMap place _ | pass place _ | refuse place _ _ | log place _ _ _ | timeout place _ _
  | heartbeat place =>
    exact ⟨[], by simp [Incarnation.requests, place], fun _ member => nomatch member⟩
  | recv idle front => exact ⟨[], by simp [Incarnation.requests, idle, front], fun _ member => nomatch member⟩
  | answer held =>
    refine ⟨[], ?_, fun _ member => nomatch member⟩
    simp [Incarnation.requests, held, List.perm_append_singleton]
  | panic _ _ _ | close _ _ _ | cancel _ _ =>
    refine ⟨inc.requests, ?_, fun _ member => ⟨member, rfl⟩⟩
    simp [Incarnation.requests, Incarnation.stop]

namespace System
variable {state : System}

theorem count_inFlight (request : KeyValueMessage) :
    state.inFlight.count request =
      state.callers.count request + (state.routerChannel.filterMap RoutingMessage.request?).count request +
        state.router.held.count request + (state.incarnations.flatMap Incarnation.requests).count request := by
  simp only [inFlight, List.count_append]

/-- What replacing an incarnation does to the requests in flight. -/
theorem inFlight_update (state : System) {index : Nat} {inc : Incarnation} (next : Incarnation)
    (found : state.incarnations[index]? = some inc) :
    ((state.update index next).inFlight ++ inc.requests).Perm (state.inFlight ++ next.requests) := by
  have traded := perm_flatMap_set state.incarnations Incarnation.requests index next inc found
  simp only [inFlight, update, List.append_assoc] at traded ⊢
  exact ((traded.append_left _).append_left _).append_left _

theorem mem_update {index : Nat} {inc next : Incarnation} (state : System)
    (found : state.incarnations[index]? = some inc) : next ∈ (state.update index next).incarnations := by
  obtain ⟨inside, _⟩ := List.getElem?_eq_some_iff.mp found
  exact List.mem_set inside next

/-- Heartbeats are not requests. -/
theorem inFlight_beat (state : System) (actor : ActorType) :
    ({ state with routerChannel := state.routerChannel ++ [.heartbeat actor] } : System).inFlight = state.inFlight := by
  simp [inFlight, List.filterMap_cons, RoutingMessage.request?]

theorem inFlight_replace (state : System) : (state.replace.inFlight ++ state.router.held).Perm state.inFlight := by
  have same : (state.incarnations.modify state.current fun inc => { inc with closed := true, aborted := true }).flatMap
      Incarnation.requests = state.incarnations.flatMap Incarnation.requests := by
    rw [List.flatMap_def, List.flatMap_def]
    exact congrArg List.flatten (map_modify_of_eq _ _ _ _ fun _ => rfl)
  have fresh : ([{}] : List Incarnation).flatMap Incarnation.requests = [] := rfl
  have asleep : Router.asleep.held = [] := rfl
  rw [List.perm_iff_count]
  intro request
  simp only [List.count_append, count_inFlight, replace, List.flatMap_append, same, fresh, asleep, List.count_nil]
  omega

theorem acts {index : Nat} {inc next : Incarnation} {event : ActorEvent}
    (found : state.incarnations[index]? = some inc) (stepped : ActorStep inc event next) :
    ∃ dropped, ((state.update index next).inFlight ++ (event.answered?.map Prod.fst).toList ++ dropped).Perm
      state.inFlight ∧ ∀ message ∈ dropped, state.Loses (state.update index next) message := by
  obtain ⟨dropped, kept, lost⟩ := stepped.requests
  refine ⟨dropped, ?_, fun message member => ?_⟩
  swap
  · obtain ⟨had, gone⟩ := lost message member
    exact .stops found had stepped (state.mem_update found) gone
  rw [List.perm_iff_count]
  intro request
  have traded := (inFlight_update state next found).count_eq request
  have kept := kept.count_eq request
  simp only [List.count_append] at traded kept ⊢
  omega

theorem writes {json : Json} {index : Nat} {inc : Incarnation} {next : Pair} {event : WriterEvent}
    (found : state.incarnations[index]? = some inc) (stepped : WriterStep json ⟨inc, state.file⟩ event next) :
    (update { state with file := next.file } index next.inc).inFlight.Perm state.inFlight := by
  have traded := inFlight_update { state with file := next.file } next.inc found
  rw [stepped.requests_eq] at traded
  exact (List.perm_append_right_iff inc.requests).mp traded

/-- What a step drops, when no request is lost in it. -/
theorem lossless {next : System} {answered called : List KeyValueMessage}
    (kept : ∀ request, (next.inFlight ++ answered).count request = (state.inFlight ++ called).count request) :
    ∃ dropped, (next.inFlight ++ answered ++ dropped).Perm (state.inFlight ++ called) ∧
      ∀ message ∈ dropped, state.Loses next message := by
  refine ⟨[], ?_, fun _ member => nomatch member⟩
  rw [List.append_nil]
  exact List.perm_iff_count.mpr kept

end System

/-- Every request stays in flight until it is answered or an actor stops. -/
theorem SystemStep.requests {json : Json} {state next : System} {event : Event}
    (stepped : SystemStep json state event next) :
    ∃ dropped, (next.inFlight ++ event.completed?.toList ++ dropped).Perm (state.inFlight ++ event.called?.toList) ∧
      ∀ message ∈ dropped, state.Loses next message := by
  cases stepped with
  | call fresh =>
    refine System.lossless fun request => ?_
    simp [System.count_inFlight]
    omega
  | @send message waits room =>
    refine System.lossless fun request => ?_
    have moved := (List.perm_cons_erase waits).count_eq request
    simp [System.count_inFlight, RoutingMessage.request?, List.count_cons] at moved ⊢
    omega
  | reset room =>
    exact System.lossless fun request => by simp [System.count_inFlight, List.filterMap_cons, RoutingMessage.request?]
  | routeMessage idle front =>
    refine System.lossless fun request => ?_
    simp [System.count_inFlight, idle, front, RoutingMessage.request?, Router.held, List.count_cons]
    omega
  | routeBeat idle front =>
    refine System.lossless fun request => ?_
    simp [System.count_inFlight, idle, front, List.filterMap_cons, RoutingMessage.request?, Router.held]
  | @routeReset actor rest idle front =>
    refine System.lossless fun request => ?_
    have kept := (System.inFlight_replace { state with routerChannel := rest }).count_eq request
    have same : ({ state with routerChannel := rest } : System).inFlight = state.inFlight := by
      simp [System.inFlight, front, List.filterMap_cons, RoutingMessage.request?]
    have empty : state.router.held = [] := by rw [idle, Router.held]
    simpa [same, empty] using kept
  | @refuse message inc holds found stopped =>
    refine ⟨[message], List.perm_iff_count.mpr fun request => ?_, fun _ _ => ?_⟩
    · simp [System.count_inFlight, holds, Router.held]
      omega
    · exact .refused found (List.mem_of_getElem? found) stopped
  | @forward message inc holds found alive room =>
    refine System.lossless fun request => ?_
    have traded := (System.inFlight_update { state with router := .recv } { inc with inbox := inc.inbox ++ [message] }
      found).count_eq request
    simp [System.count_inFlight, holds, Router.held, Incarnation.requests] at traded ⊢
    omega
  | forwardBeat holds room =>
    exact System.lossless fun request => by simp [System.count_inFlight, holds, Router.held]
  | wakeUp asleep =>
    exact System.lossless fun request => by simp [System.count_inFlight, asleep, Router.held]
  | heartbeat front => exact System.lossless fun request => by simp [System.count_inFlight]
  | actor found stepped _ =>
    obtain ⟨dropped, kept, lost⟩ := System.acts found stepped
    exact ⟨dropped, kept.trans (by simp), lost⟩
  | @actorBeat index inc next found stepped _ =>
    obtain ⟨dropped, kept, lost⟩ := System.acts found stepped
    rw [← System.inFlight_beat _ .keyValue] at kept
    refine ⟨dropped, kept.trans (by simp), fun message member => ?_⟩
    cases lost message member with
    | stops found had stepped after gone => exact .stops found had stepped after gone
    | refused found after gone => exact .refused found after gone
  | writer found stepped _ =>
    have kept := System.writes found stepped
    exact ⟨[], (List.Perm.of_eq (by simp)).trans (kept.trans (by simp)), fun _ member => nomatch member⟩
  | writerBeat found stepped _ =>
    have kept := System.writes found stepped
    rw [← System.inFlight_beat _ .writer] at kept
    exact ⟨[], (List.Perm.of_eq (by simp; rfl)).trans (kept.trans (by simp)), fun _ member => nomatch member⟩

end RustAsyncAwait.KeyValueStore
