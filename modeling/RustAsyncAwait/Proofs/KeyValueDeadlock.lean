import RustAsyncAwait.Proofs.KeyValueRequests
import RustAsyncAwait.Proofs.KeyValueRestart

/-! Deadlock in the ring of router, actor and writer. The router and the actor can
block each other for good, but not while at most 32 requests are in flight. -/

namespace RustAsyncAwait.KeyValueStore
open Library

inductive Party
  | router
  | heartbeat
  | keyValue (index : Nat)
  | writer (index : Nat)

/-- The first party awaits a `send` on the full channel of the second one. -/
inductive BlockedOn (state : System) : Party → Party → Prop
  | inbox {message inc} (holds : state.router = .forward message)
      (found : state.incarnations[state.current]? = some inc) (alive : inc.actor.isStopped = false)
      (full : capacity ≤ inc.inbox.length) : BlockedOn state .router (.keyValue state.current)
  | heartbeats {actor} (holds : state.router = .beat actor) (full : capacity ≤ state.heartbeatChannel.length) :
      BlockedOn state .router .heartbeat
  | log {index inc map message entry} (found : state.incarnations[index]? = some inc)
      (holds : inc.actor = .log map message) (logged : WriterLogMessage.from_key_value_message message = some entry)
      (alive : inc.writer.isEnded = false) (full : capacity ≤ inc.log.length) :
      BlockedOn state (.keyValue index) (.writer index)
  | actorBeat {index inc map} (found : state.incarnations[index]? = some inc) (beats : inc.actor = .heartbeat map)
      (full : capacity ≤ state.routerChannel.length) : BlockedOn state (.keyValue index) .router
  | writerBeat {index inc map} (found : state.incarnations[index]? = some inc) (beats : inc.writer = .heartbeat map)
      (full : capacity ≤ state.routerChannel.length) : BlockedOn state (.writer index) .router

def Deadlocked (state : System) : Prop := Cyclic (BlockedOn state)

/-- The party that takes this step. -/
def Event.party? : Event → Option Party
  | .route | .forward | .wakeUp => some .router
  | .heartbeat => some .heartbeat
  | .actor index _ => some (.keyValue index)
  | .writer index _ => some (.writer index)
  | .call _ | .send _ | .reset _ => none

def Party.rank : Party → Nat
  | keyValue _ => 3
  | writer _ => 2
  | router => 1
  | heartbeat => 0

theorem System.inbox_inFlight {state : System} {index : Nat} {inc : Incarnation}
    (found : state.incarnations[index]? = some inc) :
    state.router.held.length + inc.inbox.length ≤ state.inFlight.length := by
  have part : inc.requests.length ≤ (state.incarnations.flatMap Incarnation.requests).length :=
    (List.sublist_flatten_of_mem (List.mem_map_of_mem (List.mem_of_getElem? found))).length_le
  simp only [Incarnation.requests, List.length_append] at part
  simp only [inFlight, List.length_append]
  omega

/-- With at most 32 requests there is room for the one the router holds. -/
theorem BlockedOn.falls {state : System} (within : state.inFlight.length ≤ capacity) {one other : Party}
    (blocked : BlockedOn state one other) : other.rank < one.rank := by
  cases blocked with
  | inbox holds found alive full =>
    have bounded := System.inbox_inFlight found
    simp only [holds, Router.held, List.length_singleton] at bounded
    omega
  | heartbeats _ _ | log _ _ _ _ _ | actorBeat _ _ _ | writerBeat _ _ _ => simp [Party.rank]

/-- A blocked party does nothing, but for an actor that is aborted. -/
theorem BlockedOn.stuck {json : Json} {state next : System} {one other : Party} {event : Event}
    (blocked : BlockedOn state one other) (stepped : SystemStep json state event next)
    (own : event.party? = some one) : ∃ index, event = .actor index .cancel := by
  cases blocked with
  | inbox holds found alive full =>
    cases stepped with
    | forward _ same _ room =>
      cases found.symm.trans same
      omega
    | _ => simp_all [Event.party?]
  | heartbeats holds full =>
    cases stepped with
    | forwardBeat _ room => omega
    | _ => simp_all [Event.party?]
  | log found holds logged alive full =>
    cases stepped with
    | actor same acts _ =>
      cases own
      cases found.symm.trans same
      cases acts with
      | cancel _ _ => exact ⟨_, rfl⟩
      | log _ _ _ room => omega
      | _ => simp_all
    | actorBeat same acts _ =>
      cases own
      cases found.symm.trans same
      cases acts with
      | heartbeat beats => simp_all
    | _ => cases own
  | actorBeat found beats full =>
    cases stepped with
    | actor same acts _ =>
      cases own
      cases found.symm.trans same
      cases acts with
      | cancel _ _ => exact ⟨_, rfl⟩
      | _ => simp_all
    | actorBeat _ _ room => omega
    | _ => cases own
  | writerBeat found beats full =>
    cases stepped with
    | writer same writes _ =>
      cases own
      cases found.symm.trans same
      cases writes <;> simp_all [WriterActor.writing]
    | writerBeat _ _ room => omega
    | _ => cases own

/-- At most 32 clients wait for an answer at any time. -/
def bounded (json : Json) (file : Option Bytes) : Machine System Event :=
  (store json file).restrict fun state event => event.called? = none ∨ state.inFlight.length < capacity

theorem SystemStep.inFlight_le {json : Json} {state next : System} {event : Event} (stepped : SystemStep json state event next)
    (room : event.called? = none ∨ state.inFlight.length < capacity) (within : state.inFlight.length ≤ capacity) :
    next.inFlight.length ≤ capacity := by
  obtain ⟨dropped, kept, _⟩ := stepped.requests
  have length := kept.length_eq
  simp only [List.length_append] at length
  rcases room with silent | room
  · rw [silent, Option.toList_none, List.length_nil] at length
    omega
  · have one : event.called?.toList.length ≤ 1 := by cases event.called? <;> simp
    omega

theorem bounded_inFlight {json : Json} {file : Option Bytes} {trace : List Event} {state : System}
    (reaches : (bounded json file).Reaches trace state) : state.inFlight.length ≤ capacity := by
  apply reaches.invariant (fun state => state.inFlight.length ≤ capacity)
  · exact Nat.zero_le capacity
  · intro state event next within stepped
    obtain ⟨room, stepped⟩ := Machine.restrict_step.mp stepped
    exact (system_cases (show state.step json event = some next from stepped)).inFlight_le room within

/-- No reachable state has a circle of parties that await a `send` to each other. -/
theorem never_deadlocked {json : Json} {file : Option Bytes} {trace : List Event} {state : System}
    (reaches : (bounded json file).Reaches trace state) : ¬ Deadlocked state :=
  not_cyclic_of_rank Party.rank fun _ _ blocked => blocked.falls (bounded_inFlight reaches)

/-- The actor of a fresh store gets its map. -/
def startUp : List Event :=
  [.actor 0 .start, .writer 0 .open, .writer 0 .create, .writer 0 (.recv [123, 125]), .actor 0 .takeMap]

/-- With 32 requests in the actor's channel, its heartbeat still finds room. -/
theorem never_deadlocked_full_inbox :
    let calls : List Event := (List.range 32).map fun response => .call (.get "" response)
    let sends : List Event := (List.range 32).map fun response => .send (.get "" response)
    let forwards : List Event := (List.range 32).flatMap fun _ => [.route, .forward]
    ∃ state, (bounded textsJson none).Reaches (startUp ++ calls ++ sends ++ [.actor 0 .timeout] ++ forwards) state ∧
      ¬ Deadlocked state := by
  intro calls sends forwards
  have runs : ((bounded textsJson none).runFrom { file := none }
      (startUp ++ calls ++ sends ++ [.actor 0 .timeout] ++ forwards)).isSome = true := by decide +kernel
  obtain ⟨state, reaches⟩ := Option.isSome_iff_exists.mp runs
  exact ⟨state, reaches, never_deadlocked reaches⟩

/-- The router awaits room in the actor's channel, and the actor room in the router's. -/
structure Jammed (state : System) : Prop where
  holds : ∃ message, state.router = .forward message
  beats : ∃ inc map, state.incarnations[state.current]? = some inc ∧ inc.actor = .heartbeat map ∧
    capacity ≤ inc.inbox.length ∧ inc.aborted = false
  full : capacity ≤ state.routerChannel.length

namespace Jammed
variable {json : Json} {state next : System} {event : Event}

theorem blocked (jammed : Jammed state) :
    BlockedOn state .router (.keyValue state.current) ∧ BlockedOn state (.keyValue state.current) .router := by
  obtain ⟨message, holds⟩ := jammed.holds
  obtain ⟨inc, map, found, beats, full, _⟩ := jammed.beats
  exact ⟨.inbox holds found (by simp [beats]) full, .actorBeat found beats jammed.full⟩

theorem deadlocked (jammed : Jammed state) : Deadlocked state := cyclic_pair jammed.blocked.1 jammed.blocked.2

/-- Other parties do not end the jam. -/
theorem others (jammed : Jammed state) {index : Nat} {inc replaced : Incarnation} (file : Option Bytes)
    (found : state.incarnations[index]? = some inc)
    (same : index = state.current → replaced.actor = inc.actor ∧ replaced.inbox = inc.inbox ∧ replaced.aborted = inc.aborted) :
    Jammed (System.update { state with file := file } index replaced) := by
  obtain ⟨last, map, found_last, beats, full, unaborted⟩ := jammed.beats
  have current : (System.update { state with file := file } index replaced).current = state.current := by
    simp [System.current, System.update]
  refine ⟨jammed.holds, ?_, jammed.full⟩
  by_cases own : index = state.current
  · obtain ⟨actor, inbox, aborted⟩ := same own
    subst own
    cases found.symm.trans found_last
    have inside := (List.getElem?_eq_some_iff.mp found).1
    refine ⟨replaced, map, ?_, actor.trans beats, inbox ▸ full, aborted.trans unaborted⟩
    rw [current]
    simp [System.update, inside]
  · refine ⟨last, map, ?_, beats, full, unaborted⟩
    rw [current]
    simpa [System.update, List.getElem?_set, own] using found_last

theorem step (jammed : Jammed state) (stepped : SystemStep json state event next) : Jammed next ∧ event ≠ .route := by
  have idle : event.party? ≠ some .router := by
    intro own
    obtain ⟨index, rfl⟩ := jammed.blocked.1.stuck stepped own
    cases own
  have full := jammed.full
  cases stepped with
  | call _ => exact ⟨⟨jammed.holds, jammed.beats, full⟩, by simp⟩
  | send _ room | reset room => omega
  | routeMessage _ _ | routeBeat _ _ | routeReset _ _ | refuse _ _ _ | forward _ _ _ _ | forwardBeat _ _ | wakeUp _ =>
    exact absurd rfl idle
  | heartbeat _ => exact ⟨⟨jammed.holds, jammed.beats, full⟩, by simp⟩
  | @actor index event inc replaced found acts quiet =>
    refine ⟨jammed.others state.file found ?_, by simp⟩
    intro own
    obtain ⟨last, map, found_last, beats, _, unaborted⟩ := jammed.beats
    subst own
    cases found.symm.trans found_last
    cases acts <;> simp_all
  | actorBeat _ _ room | writerBeat _ _ room => omega
  | @writer index event inc replaced found writes _ =>
    obtain ⟨actor, inbox, _, aborted⟩ := writes.actor_eq
    exact ⟨jammed.others replaced.file found fun _ => ⟨actor, inbox, aborted⟩, by simp⟩

/-- The jam never ends, and the router takes no further message, no `Reset` either. -/
theorem forever (jammed : Jammed state) {json : Json} {file : Option Bytes} {trace : List Event} {final : System}
    (runs : (store json file).runFrom state trace = some final) : Jammed final ∧ .route ∉ trace := by
  induction trace generalizing state with
  | nil => cases runs; exact ⟨jammed, List.not_mem_nil⟩
  | cons event rest ih =>
    obtain ⟨next, stepped, runs⟩ := Option.bind_eq_some_iff.mp runs
    obtain ⟨jammed, other⟩ := jammed.step (system_cases (show state.step json event = some next from stepped))
    obtain ⟨jammed, none_later⟩ := ih jammed runs
    exact ⟨jammed, by simp [Ne.symm other, none_later]⟩

end Jammed

/-- `Jammed` as a test on the state. -/
def System.jammed (state : System) : Bool :=
  match state.router, state.incarnations[state.current]? with
  | .forward _, some inc =>
    match inc.actor with
    | .heartbeat _ => !inc.aborted && decide (capacity ≤ inc.inbox.length) && decide (capacity ≤ state.routerChannel.length)
    | _ => false
  | _, _ => false

theorem jammed_of_test {state : System} (test : state.jammed = true) : Jammed state := by
  unfold System.jammed at test
  split at test
  next message inc holds found =>
    split at test
    next map beats =>
      simp only [Bool.and_eq_true, Bool.not_eq_true', decide_eq_true_eq] at test
      exact ⟨⟨message, holds⟩, ⟨inc, map, found, beats, test.1.2, test.1.1⟩, test.2⟩
    next => cases test
  next => cases test

/-- The actor's timeout comes while the router's channel is full. Before its
heartbeat gets a place the router takes 33 messages, and `fill` says what follows
each of them into the channel. -/
def jam (calls : Nat) (fill : Nat → Event) : List Event :=
  startUp ++ (List.range calls).map (fun response => .call (.get "" response)) ++
    (List.range capacity).map (fun response => .send (.get "" response)) ++ [.actor 0 .timeout] ++
    (List.range capacity).flatMap (fun round => [.route, .forward, fill round]) ++ [.route, fill capacity]

/-- 65 clients block the store: 32 requests are in the actor's channel, the router
holds one, and 32 are in the router's channel. -/
theorem clients_deadlock :
    ¬ ∀ json file trace state, (store json file).Reaches trace state → ¬ Deadlocked state := by
  intro never
  have test : ((store textsJson none).runFrom { file := none } (jam 65 fun round => .send (.get "" (capacity + round)))).any
      System.jammed = true := by decide +kernel
  obtain ⟨state, reaches, jammed⟩ := (Option.any_eq_true _ _).mp test
  exact never _ _ _ _ reaches (jammed_of_test jammed).deadlocked

/-- One request more than `bounded` allows is enough, together with 32 resets. -/
theorem one_more_deadlocks :
    ∃ trace state, ((store textsJson none).restrict fun state event =>
        event.called? = none ∨ state.inFlight.length < capacity + 1).Reaches trace state ∧ Deadlocked state := by
  have test : (((store textsJson none).restrict fun state event =>
      event.called? = none ∨ state.inFlight.length < capacity + 1).runFrom { file := none }
        (jam 33 fun round => if round = 0 then .send (.get "" capacity) else .reset .keyValue)).any System.jammed = true := by
    decide +kernel
  obtain ⟨state, reaches, jammed⟩ := (Option.any_eq_true _ _).mp test
  exact ⟨_, state, reaches, (jammed_of_test jammed).deadlocked⟩

end RustAsyncAwait.KeyValueStore
