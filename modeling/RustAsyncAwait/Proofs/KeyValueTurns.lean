import RustAsyncAwait.Library.Fairness
import RustAsyncAwait.Proofs.KeyValueAnswers
import RustAsyncAwait.Proofs.KeyValueDeadlock
import RustAsyncAwait.Proofs.KeyValueMoves

/-! The router's turns. While at most 32 requests are in flight nothing keeps the
router from its channel, so there is room in it again and again, and every
request that has entered it gets to an actor. -/

namespace RustAsyncAwait.KeyValueStore
open Library

/-- The store where a `Reset` meets a quiet actor, and at most 32 clients wait for an answer at any time. -/
def calm (json : Json) (file : Option Bytes) : Machine System Event :=
  (patient json file).restrict fun state event => event.called? = none ∨ state.inFlight.length < capacity

/-- The party can take a step of the store. -/
def System.able (json : Json) (state : System) (party : Party) : Prop :=
  ∃ event next, event.party? = some party ∧ state.step json event = some next

/-- A party that can take a step of the store again and again takes one again and
again: its task is polled, its timeouts pass, and a channel serves those who wait
for room in turn. -/
def Fair (json : Json) (file : Option Bytes) (schedule : Nat → Event) : Prop :=
  ∀ party, (calm json file).StronglyFair schedule (fun state => state.able json party) (fun event => event.party? = some party)

/-- What holds of every moment of a run. -/
structure Intact (trace : List Event) (state : System) : Prop where
  answering : Answering state
  answered : Answered trace state
  within : state.inFlight.length ≤ capacity
  succession : Succession state

variable {json : Json} {file : Option Bytes} {schedule : Nat → Event} {start : Nat} {state next : System} {event : Event}

theorem calm_step (stepped : (calm json file).step state event = some next) :
    SystemStep json state event next ∧ state.patient event = true ∧
      (event.called? = none ∨ state.inFlight.length < capacity) := by
  obtain ⟨room, stepped⟩ := Machine.restrict_step.mp stepped
  obtain ⟨patient, stepped⟩ := Machine.restrict_step.mp stepped
  exact ⟨system_cases stepped, patient, room⟩

theorem calm_intact {trace : List Event} (reaches : (calm json file).Reaches trace state) : Intact trace state := by
  obtain ⟨answering, numbered, accepted⟩ := reaches_answered reaches.unrestricted
  refine ⟨answering, ⟨numbered.once, accepted⟩, ?_, ?_⟩
  · refine reaches.invariant (fun state => state.inFlight.length ≤ capacity) (Nat.zero_le _) ?_
    intro state event next within stepped
    obtain ⟨stepped, _, room⟩ := calm_step stepped
    exact stepped.inFlight_le room within
  · refine reaches.invariant Succession (.initial file) ?_
    intro state event next succession stepped
    exact succession.step (calm_step stepped).1.moves

theorem intact_states (json : Json) (file : Option Bytes) (schedule : Nat → Event) (count : Nat) :
    Intact ((calm json file).happened schedule count) ((calm json file).states schedule count) :=
  calm_intact (Machine.reaches_states _ _ _)

/-- The heartbeat actor has nobody to wait for. -/
theorem heartbeats_room (fair : Fair json file schedule) (start : Nat) :
    ∃ later, start ≤ later ∧ ((calm json file).states schedule later).heartbeatChannel.length < capacity := by
  by_contra full
  simp only [not_exists, not_and, Nat.not_lt] at full
  have falls (later : Nat) (next : System) (after : start ≤ later)
      (stepped : (calm json file).step ((calm json file).states schedule later) (schedule later) = some next) :
      next.heartbeatChannel.length ≤ ((calm json file).states schedule later).heartbeatChannel.length ∧
        ((schedule later).party? = some .heartbeat →
          next.heartbeatChannel.length < ((calm json file).states schedule later).heartbeatChannel.length) := by
    have filled := full later after
    generalize (calm json file).states schedule later = state at stepped filled ⊢
    generalize schedule later = event at stepped ⊢
    cases (calm_step stepped).1 with
    | forwardBeat _ room => omega
    | heartbeat front => simp [front]
    | _ => exact ⟨Nat.le_refl _, fun own => by simp [Event.party?] at own⟩
  obtain ⟨last, after, idle⟩ := (fair .heartbeat).stops (fun state => state.heartbeatChannel.length) falls
  have filled := full last after
  apply idle last (Nat.le_refl last)
  cases front : ((calm json file).states schedule last).heartbeatChannel with
  | nil =>
    rw [front] at filled
    exact absurd filled (by decide)
  | cons actor rest => exact ⟨.heartbeat, _, rfl, by rw [System.step, front]⟩

/-- Where the router has a message, or one to take, it waits for no room but that of the heartbeats. -/
theorem router_able (within : state.inFlight.length ≤ capacity) (succession : Succession state)
    (busy : state.router = .recv → state.routerChannel ≠ []) (room : state.heartbeatChannel.length < capacity) :
    state.able json .router := by
  cases place : state.router with
  | recv =>
    obtain ⟨message, rest, front⟩ := List.exists_cons_of_ne_nil (busy place)
    cases message with
    | keyValue | heartbeat | reset => exact ⟨.route, _, rfl, by rw [System.step, place, front]⟩
  | forward message =>
    obtain ⟨inc, found⟩ := succession.present
    have bounded := System.inbox_inFlight found
    have vacant : inc.inbox.length < capacity := by
      rw [place, Router.held, List.length_singleton] at bounded
      omega
    cases stopped : inc.actor.isStopped with
    | true => exact ⟨.forward, _, rfl, by simp only [System.step, place, found, stopped, if_true]; rfl⟩
    | false =>
      refine ⟨.forward, System.update { state with router := .recv } state.current { inc with inbox := inc.inbox ++ [message] },
        rfl, ?_⟩
      simp only [System.step, place, found, stopped, vacant, Bool.false_eq_true, if_false, if_true]
  | beat actor => exact ⟨.forward, _, rfl, by simp only [System.step, place, room, if_true]; rfl⟩
  | asleep => exact ⟨.wakeUp, _, rfl, by rw [System.step, place]⟩

/-- While its channel is not empty when it comes to it, the router can act again and again. -/
theorem router_turns (fair : Fair json file schedule) (busy : ∀ later, start ≤ later →
      ((calm json file).states schedule later).router = .recv → ((calm json file).states schedule later).routerChannel ≠ [])
    {middle : Nat} (after : start ≤ middle) :
    ∃ later, middle ≤ later ∧ ((calm json file).states schedule later).able json .router := by
  obtain ⟨later, behind, room⟩ := heartbeats_room fair middle
  have intact := intact_states json file schedule later
  exact ⟨later, behind, router_able intact.within intact.succession (busy later (Nat.le_trans after behind)) room⟩

/-- How far the router is from having taken what is in its channel. -/
def System.load (state : System) : Nat :=
  2 * state.routerChannel.length + match state.router with
    | .recv => 0
    | .forward _ | .beat _ | .asleep => 1

/-- There is room in the router's channel again and again. -/
theorem router_room (fair : Fair json file schedule) (start : Nat) :
    ∃ later, start ≤ later ∧ ((calm json file).states schedule later).routerChannel.length < capacity := by
  by_contra full
  simp only [not_exists, not_and, Nat.not_lt] at full
  have falls (later : Nat) (next : System) (after : start ≤ later)
      (stepped : (calm json file).step ((calm json file).states schedule later) (schedule later) = some next) :
      next.load ≤ ((calm json file).states schedule later).load ∧
        ((schedule later).party? = some .router → next.load < ((calm json file).states schedule later).load) := by
    have filled := full later after
    generalize (calm json file).states schedule later = state at stepped filled ⊢
    generalize schedule later = event at stepped ⊢
    cases (calm_step stepped).1 with
    | send _ room | reset room | actorBeat _ _ room | writerBeat _ _ room => omega
    | call | heartbeat | actor | writer => exact ⟨Nat.le_refl _, fun own => by simp [Event.party?] at own⟩
    | routeMessage idle front | routeBeat idle front | routeReset idle front =>
      simp only [System.load, System.replace, idle, front, List.length_cons]
      omega
    | refuse holds | forward holds | forwardBeat holds | wakeUp holds =>
      simp only [System.load, System.update, holds]
      omega
  obtain ⟨last, after, idle⟩ := (fair .router).stops System.load falls
  obtain ⟨later, behind, able⟩ := router_turns fair (fun later behind _ => by
    have filled := full later behind
    intro empty
    rw [empty] at filled
    exact absurd filled (by decide)) after
  exact idle later behind able

/-- The request is in the router's channel or in its hands. -/
def System.Routing (state : System) (message : KeyValueMessage) : Prop :=
  .keyValue message ∈ state.routerChannel ∨ state.router = .forward message

theorem mem_accepted {message : KeyValueMessage} :
    message ∈ state.accepted ↔ state.Routing message ∨
      ∃ (index : Nat) (inc : Incarnation), state.incarnations[index]? = some inc ∧ message ∈ inc.requests := by
  have queued : message ∈ state.routerChannel.filterMap RoutingMessage.request? ↔ .keyValue message ∈ state.routerChannel := by
    rw [List.mem_filterMap]
    constructor
    · intro found
      obtain ⟨entry, member, is_request⟩ := found
      cases entry with
      | keyValue other => cases is_request; exact member
      | heartbeat | reset => cases is_request
    · exact fun member => ⟨_, member, rfl⟩
  have held : message ∈ state.router.held ↔ state.router = .forward message := by
    cases state.router with
    | forward other => simp [Router.held, eq_comm]
    | recv | beat | asleep => simp [Router.held]
  have had : message ∈ state.incarnations.flatMap Incarnation.requests ↔
      ∃ (index : Nat) (inc : Incarnation), state.incarnations[index]? = some inc ∧ message ∈ inc.requests := by
    rw [List.mem_flatMap]
    constructor
    · intro among
      obtain ⟨inc, member, had⟩ := among
      obtain ⟨index, found⟩ := List.getElem?_of_mem member
      exact ⟨index, inc, found, had⟩
    · intro placed
      obtain ⟨index, inc, found, had⟩ := placed
      exact ⟨inc, List.mem_of_getElem? found, had⟩
  rw [System.accepted, List.mem_append, List.mem_append, queued, held, had, System.Routing]

/-- A request that has been accepted is in one place. -/
theorem Intact.accepted_nodup {trace : List Event} (intact : Intact trace state) : state.accepted.Nodup := by
  obtain ⟨unique, whole⟩ := intact.answered
  exact (List.nodup_append.mp (whole.nodup_iff.mpr unique)).2.1

/-- The steps that the router has to take before it holds the request. -/
def System.ahead (state : System) (message : KeyValueMessage) : Nat :=
  let before := 2 * state.routerChannel.idxOf (.keyValue message)
  match state.router with
  | .recv => before + 1
  | .forward held => if held = message then 0 else before + 2
  | .beat _ | .asleep => before + 2

theorem ahead_falls {trace : List Event} {message : KeyValueMessage} (intact : Intact trace state) (waits : state.Routing message)
    (still : next.Routing message) (stepped : SystemStep json state event next) :
    next.ahead message ≤ state.ahead message ∧ (event.party? = some .router → next.ahead message < state.ahead message) := by
  have once : state.router = .forward message → .keyValue message ∉ state.routerChannel := by
    intro holds queued
    have unique := intact.accepted_nodup
    rw [System.accepted, List.append_assoc] at unique
    apply List.disjoint_of_nodup_append unique (List.mem_filterMap.mpr ⟨_, queued, rfl⟩)
    simp [holds, Router.held]
  have appended (entry : RoutingMessage) :
      System.ahead { state with routerChannel := state.routerChannel ++ [entry] } message ≤ state.ahead message := by
    rcases waits with queued | holds
    · simp only [System.ahead, List.idxOf_append_of_mem queued]
      exact Nat.le_refl _
    · simp [System.ahead, holds]
  cases stepped with
  | call | heartbeat | actor | writer => exact ⟨Nat.le_refl _, fun own => by simp [Event.party?] at own⟩
  | send | reset | actorBeat | writerBeat => exact ⟨appended _, fun own => by simp [Event.party?] at own⟩
  | @routeMessage first rest idle front =>
    have behind : System.ahead { state with router := .forward first, routerChannel := rest } message < state.ahead message := by
      by_cases same : first = message
      · simp [System.ahead, idle, same]
      · have other : RoutingMessage.keyValue first ≠ .keyValue message := by simpa using same
        simp only [System.ahead, idle, front, if_neg same, List.idxOf_cons_ne rest other]
        omega
    exact ⟨Nat.le_of_lt behind, fun _ => behind⟩
  | @routeBeat actor rest idle front =>
    have other : RoutingMessage.heartbeat actor ≠ .keyValue message := by simp
    simp only [System.ahead, idle, front, List.idxOf_cons_ne rest other]
    omega
  | @routeReset actor rest idle front =>
    have other : RoutingMessage.reset actor ≠ .keyValue message := by simp
    simp only [System.ahead, System.replace, idle, front, List.idxOf_cons_ne rest other]
    omega
  | @refuse held _ holds | @forward held _ holds =>
    -- the router has another request in its hands
    have queued : .keyValue message ∈ state.routerChannel := by
      rcases still with queued | same
      · exact queued
      · cases same
    have other : held ≠ message := fun same => once (same ▸ holds) queued
    simp only [System.ahead, System.update, holds, if_neg other]
    exact ⟨Nat.le_succ _, fun _ => Nat.lt_succ_self _⟩
  | forwardBeat holds | wakeUp holds =>
    simp only [System.ahead, holds]
    omega

/-- Every request that has entered the router's channel gets to an actor. -/
theorem routed (fair : Fair json file schedule) (message : KeyValueMessage) (start : Nat) :
    ∃ later, start ≤ later ∧ ¬ ((calm json file).states schedule later).Routing message := by
  by_contra always
  simp only [not_exists, not_and, not_not] at always
  obtain ⟨last, after, idle⟩ := (fair .router).stops (fun state => state.ahead message)
    (fun later next after stepped => by
      have still := always (later + 1) (Nat.le_succ_of_le after)
      rw [Machine.states, Machine.turn_some stepped] at still
      exact ahead_falls (intact_states json file schedule later) (always later after) still (calm_step stepped).1)
  obtain ⟨later, behind, able⟩ := router_turns fair (fun later behind place empty => by
    rcases always later behind with queued | holds
    · rw [empty] at queued
      cases queued
    · cases holds.symm.trans place) after
  exact idle later behind able

end RustAsyncAwait.KeyValueStore
