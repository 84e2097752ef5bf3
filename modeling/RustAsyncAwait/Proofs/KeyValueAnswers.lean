import RustAsyncAwait.Proofs.KeyValueRequests
import RustAsyncAwait.Proofs.KeyValueRestart

/-! Answers across resets. A `Reset` drops what the aborted actor has not begun to
answer; a request that was accepted at a better moment is answered. -/

namespace RustAsyncAwait.KeyValueStore
open Library

/-- The requests that have entered the router's channel and are on their way. -/
def System.accepted (state : System) : List KeyValueMessage :=
  state.routerChannel.filterMap RoutingMessage.request? ++ state.router.held ++
    state.incarnations.flatMap Incarnation.requests

theorem System.length_inFlight (state : System) : state.inFlight.length = state.callers.length + state.accepted.length := by
  simp only [System.inFlight, System.accepted, List.length_append]
  omega

/-- No request enters the router's channel twice, and each that has is on its way
or has been answered, once. -/
def Answered (trace : List Event) (state : System) : Prop :=
  (trace.filterMap Event.sent?).Nodup ∧
    (trace.filterMap Event.completed? ++ state.accepted).Perm (trace.filterMap Event.sent?)

/-- An abort now would take effect only after the answer to the request in hand. -/
def Incarnation.quiet (inc : Incarnation) : Bool :=
  inc.inbox.isEmpty && (inc.actor.held.isEmpty || !inc.actor.cancellable)

/-- A `Reset` is routed to a quiet actor, and no `File::create` fails under an actor
that has not been aborted. -/
def System.patient (state : System) : Event → Bool
  | .route =>
    match state.router, state.routerChannel with
    | .recv, .reset _ :: _ => state.incarnations[state.current]?.all Incarnation.quiet
    | _, _ => true
  | .writer index .fail => state.incarnations[index]?.all fun inc =>
      inc.aborted || match inc.writer with
        | .create _ => false
        | _ => true
  | _ => true

def patient (json : Json) (file : Option Bytes) : Machine System Event :=
  (store json file).restrict fun state event => state.patient event = true

/-- Between the start of a writer and its first message. -/
def WriterActor.early : WriterActor → Bool
  | .open | .read _ | .create _ | .recv _ | .heartbeat _ => true
  | _ => false

/-- An actor that has not been aborted goes on, and gets its map. -/
structure Alive (inc : Incarnation) : Prop where
  running : inc.actor.isStopped = false
  opened : inc.closed = false
  waits : inc.reply = none → inc.actor = .start ∧ inc.writer = .unspawned ∨
    inc.actor = .awaitMap ∧ inc.log = [.get] ∧ inc.writer.early = true

namespace Alive
variable {inc next : Incarnation}

theorem initial : Alive {} := ⟨rfl, rfl, fun _ => .inl ⟨rfl, rfl⟩⟩

theorem received (alive : Alive inc) (inbox : List KeyValueMessage) : Alive { inc with inbox := inbox } :=
  ⟨alive.running, alive.opened, alive.waits⟩

theorem replied (alive : Alive inc) (past : inc.actor ≠ .start) (served : inc.actor ≠ .awaitMap) : inc.reply ≠ none := by
  intro silent
  rcases alive.waits silent with ⟨start, _⟩ | ⟨waits, _⟩
  · exact past start
  · exact served waits

theorem actor (alive : Alive inc) (kept : inc.aborted = false) {event : ActorEvent} (stepped : ActorStep inc event next) :
    Alive next := by
  cases stepped with
  | start fresh => exact ⟨rfl, alive.opened, fun _ => .inr ⟨rfl, rfl, rfl⟩⟩
  | takeMap waits replied => exact ⟨rfl, alive.opened, fun silent => by simp [replied] at silent⟩
  | recv place _ | pass place _ | refuse place _ _ | log place _ _ _ | answer place | timeout place _ _ | heartbeat place =>
    exact ⟨rfl, alive.opened, fun silent => absurd silent (alive.replied (by simp [place]) (by simp [place]))⟩
  | panic waits silent ended =>
    rcases alive.waits silent with ⟨_, place⟩ | ⟨_, _, place⟩ <;> simp [ended, WriterActor.early] at place
  | close _ _ closed => exact absurd closed (by simp [alive.opened])
  | cancel aborted _ => exact absurd aborted (by simp [kept])

theorem writer {json : Json} {file : Option Bytes} {event : WriterEvent} {next : Pair} (alive : Alive inc)
    (created : ∀ map, event = .fail → inc.writer ≠ .create map) (stepped : WriterStep json ⟨inc, file⟩ event next) :
    Alive next.inc := by
  obtain ⟨actor, _, closed, _⟩ := stepped.actor_eq
  refine ⟨actor ▸ alive.running, closed ▸ alive.opened, ?_⟩
  intro silent
  -- before the first message the writer moves between early places, and that message is the `get`
  have early : inc.reply = none → inc.writer ≠ .unspawned →
      inc.actor = .awaitMap ∧ inc.log = [.get] ∧ inc.writer.early = true := by
    intro silent spawned
    exact (alive.waits silent).resolve_left fun start => spawned start.2
  cases stepped with
  | «open» place =>
    obtain ⟨waits, log, _⟩ := early silent (by rw [place]; simp)
    exact .inr ⟨waits, log, by cases file <;> rfl⟩
  | read place _ _ | parse place _ _ | create place | timeout place _ _ | heartbeat place =>
    obtain ⟨waits, log, _⟩ := early silent (by rw [place]; simp)
    exact .inr ⟨waits, log, rfl⟩
  | unreadable place =>
    obtain ⟨waits, log, _⟩ := early silent (by rcases place with place | ⟨_, place⟩ <;> rw [place] <;> simp)
    exact .inr ⟨waits, log, rfl⟩
  | @recv map entry rest contents place front printed =>
    simp only at place front silent
    split at silent
    next => cases silent
    next other =>
      obtain ⟨_, log, _⟩ := early silent (by rw [place]; simp)
      rw [log] at front
      cases front
      exact absurd rfl other
  | setLen place | seek place | write place _ _ | flush place =>
    obtain ⟨_, _, place'⟩ := early silent (by rw [place]; simp)
    rw [place] at place'
    cases place'
  | close _ _ stopped =>
    rw [alive.running] at stopped
    cases stopped
  | fail writing =>
    obtain ⟨_, _, place⟩ := early silent (by intro same; rw [same] at writing; cases writing)
    simp only at writing
    cases at_place : inc.writer with
    | create map => exact absurd at_place (created map rfl)
    | setLen | seek | write =>
      rw [at_place] at place
      cases place
    | unspawned | «open» | read | recv | heartbeat | ended =>
      rw [at_place] at writing
      cases writing

end Alive

namespace Incarnation
variable {inc next : Incarnation}

theorem quiet_iff : inc.quiet = true ↔ inc.inbox = [] ∧ (inc.actor.held = [] ∨ inc.actor.cancellable = false) := by
  simp [quiet]

/-- A quiet actor answers what it has in hand before it can be dropped. -/
theorem quiet_actor (quiet : inc.quiet = true) {event : ActorEvent} (stepped : ActorStep inc event next) :
    next.quiet = true ∧ (next.actor.isStopped = true → inc.requests = []) := by
  rw [quiet_iff] at quiet ⊢
  obtain ⟨empty, held⟩ := quiet
  cases stepped with
  | start | takeMap | timeout | heartbeat | answer => exact ⟨⟨empty, .inl rfl⟩, fun stopped => by cases stopped⟩
  | recv _ front =>
    rw [front] at empty
    cases empty
  | pass place unlogged => exact ⟨⟨empty, .inr rfl⟩, fun stopped => by cases stopped⟩
  | refuse place logged | log place logged => exact ⟨⟨empty, .inr rfl⟩, fun stopped => by cases stopped⟩
  | panic place | close place =>
    exact ⟨⟨rfl, .inl rfl⟩, fun _ => by simp [requests, empty, place]⟩
  | cancel _ awaits =>
    refine ⟨⟨rfl, .inl rfl⟩, fun _ => ?_⟩
    rw [requests, empty, held.resolve_right (by simp [awaits])]
    rfl

/-- Either it goes on, or it has been aborted when it was quiet. -/
def Answers (inc : Incarnation) : Prop :=
  (inc.aborted = false → Alive inc) ∧ (inc.aborted = true → inc.quiet = true)

theorem Answers.actor (answers : inc.Answers) {event : ActorEvent} (stepped : ActorStep inc event next) :
    next.Answers ∧ next.aborted = inc.aborted ∧ (next.actor.isStopped = true → inc.requests = []) := by
  have same : next.aborted = inc.aborted := by cases stepped <;> rfl
  cases aborted : inc.aborted with
  | false =>
    have alive := (answers.1 aborted).actor aborted stepped
    refine ⟨⟨fun _ => alive, fun now => ?_⟩, same.trans aborted, fun stopped => ?_⟩
    · rw [same, aborted] at now
      cases now
    · rw [alive.running] at stopped
      cases stopped
  | true =>
    obtain ⟨quiet, lost⟩ := quiet_actor (answers.2 aborted) stepped
    refine ⟨⟨fun now => ?_, fun _ => quiet⟩, same.trans aborted, lost⟩
    rw [same, aborted] at now
    cases now

theorem Answers.writer {json : Json} {file : Option Bytes} {event : WriterEvent} {next : Pair} (answers : inc.Answers)
    (created : inc.aborted = false → ∀ map, event = .fail → inc.writer ≠ .create map)
    (stepped : WriterStep json ⟨inc, file⟩ event next) : next.inc.Answers ∧ next.inc.aborted = inc.aborted := by
  obtain ⟨actor, inbox, _, same⟩ := stepped.actor_eq
  refine ⟨⟨fun kept => ?_, fun aborted => ?_⟩, same⟩
  · rw [same] at kept
    exact (answers.1 kept).writer (created kept) stepped
  · rw [same] at aborted
    have quiet := answers.2 aborted
    rw [quiet_iff] at quiet ⊢
    rw [inbox, actor]
    exact quiet

end Incarnation

/-- Every actor answers its requests, and the router's current actor goes on. -/
structure Answering (state : System) : Prop where
  answers : ∀ inc ∈ state.incarnations, inc.Answers
  current : ∀ inc, state.incarnations[state.current]? = some inc → inc.aborted = false

namespace Answering
variable {json : Json} {state next : System}

theorem initial (file : Option Bytes) : Answering { file } := by
  constructor
  · intro inc member
    rw [List.mem_singleton.mp member]
    exact ⟨fun _ => .initial, fun aborted => nomatch aborted⟩
  · intro inc found
    obtain ⟨_, rfl⟩ := singleton_getElem?.mp found
    rfl

theorem found_answers (answering : Answering state) {index : Nat} {inc : Incarnation}
    (found : state.incarnations[index]? = some inc) : inc.Answers := answering.answers inc (List.mem_of_getElem? found)

theorem update (answering : Answering state) {index : Nat} {inc moved : Incarnation}
    (found : state.incarnations[index]? = some inc) (answers : moved.Answers) (same : moved.aborted = inc.aborted)
    (after : next.incarnations = state.incarnations.set index moved) : Answering next := by
  constructor
  · intro other member
    rw [after] at member
    rcases List.mem_or_eq_of_mem_set member with old | rfl
    · exact answering.answers other old
    · exact answers
  · intro other at_current
    have last : next.current = state.current := by simp [System.current, after]
    rw [last, after, List.getElem?_set] at at_current
    split at at_current
    next here =>
      split at at_current
      next =>
        cases at_current
        rw [same]
        exact answering.current inc (here ▸ found)
      next => cases at_current
    next => exact answering.current other at_current

theorem replace (answering : Answering state)
    (quiet : ∀ inc, state.incarnations[state.current]? = some inc → inc.quiet = true) : Answering state.replace := by
  constructor
  · intro other member
    rcases List.mem_append.mp member with old | new
    · obtain ⟨index, at_index⟩ := List.getElem?_of_mem old
      rw [List.getElem?_modify] at at_index
      obtain ⟨inc, found, rfl⟩ := Option.map_eq_some_iff.mp at_index
      split
      next here =>
        refine ⟨fun kept => (nomatch kept), fun _ => ?_⟩
        exact quiet inc (here ▸ found)
      next => exact answering.found_answers found
    · rw [List.mem_singleton.mp new]
      exact ⟨fun _ => .initial, fun aborted => nomatch aborted⟩
  · intro other at_current
    have last : state.replace.current = state.incarnations.length := by simp [System.current, System.replace]
    rw [last, System.replace] at at_current
    simp only [List.getElem?_append_right, List.length_modify, Nat.le_refl, Nat.sub_self, List.getElem?_cons_zero,
      Option.some.injEq] at at_current
    rw [← at_current]

theorem keep (answering : Answering state) (same : next.incarnations = state.incarnations) : Answering next := by
  have last : next.current = state.current := by simp [System.current, same]
  exact ⟨same ▸ answering.answers, by rw [last, same]; exact answering.current⟩

theorem step {event : Event} (answering : Answering state) (patient : state.patient event = true)
    (stepped : SystemStep json state event next) : Answering next := by
  cases stepped with
  | call | send | reset | routeMessage | routeBeat | refuse | forwardBeat | wakeUp | heartbeat => exact answering.keep rfl
  | @routeReset actor rest idle front =>
    have routed : Answering { state with routerChannel := rest } := answering.keep rfl
    apply routed.replace
    intro inc found
    simp only [System.patient, idle, front] at patient
    rw [show state.incarnations[state.current]? = some inc from found] at patient
    exact patient
  | @forward message inc holds found alive room =>
    have kept := answering.current inc found
    have received : Incarnation.Answers { inc with inbox := inc.inbox ++ [message] } := by
      refine ⟨fun _ => ((answering.found_answers found).1 kept).received _, fun aborted => ?_⟩
      rw [show inc.aborted = true from aborted] at kept
      cases kept
    exact answering.update found received rfl rfl
  | actor found stepped _ | actorBeat found stepped _ =>
    obtain ⟨answers, same, _⟩ := (answering.found_answers found).actor stepped
    exact answering.update found answers same rfl
  | @writer index event inc moved found stepped _ =>
    obtain ⟨answers, same⟩ := (answering.found_answers found).writer (by
      intro kept map fails place
      subst fails
      simp [System.patient, found, kept, place] at patient) stepped
    exact answering.update found answers same rfl
  | writerBeat found stepped _ =>
    obtain ⟨answers, same⟩ := (answering.found_answers found).writer (fun _ _ fails => by cases fails) stepped
    exact answering.update found answers same rfl

/-- Nothing is lost where every actor answers. -/
theorem loses (answering : Answering state) {message : KeyValueMessage} : ¬ state.Loses next message := by
  intro lost
  cases lost with
  | stops found had stepped _ gone =>
    obtain ⟨_, _, empty⟩ := (answering.found_answers found).actor stepped
    rw [empty gone] at had
    cases had
  | refused found _ gone =>
    have alive := (answering.found_answers found).1 (answering.current _ found)
    rw [alive.running] at gone
    cases gone

end Answering

/-- A request leaves its client when it enters the router's channel. -/
theorem SystemStep.callers {json : Json} {state next : System} {event : Event} (stepped : SystemStep json state event next) :
    (next.callers ++ event.sent?.toList).Perm (state.callers ++ event.called?.toList) := by
  cases stepped with
  | call => simp
  | send waits =>
    have moved := (List.perm_append_singleton _ _).trans (List.perm_cons_erase waits).symm
    simpa using moved
  | _ => exact .refl _

/-- The clients number their calls, and each sends what it has called. -/
structure Numbered (trace : List Event) (state : System) : Prop where
  fresh : (trace.filterMap Event.called?).map KeyValueMessage.response = List.range state.calls
  sent : (trace.filterMap Event.sent? ++ state.callers).Perm (trace.filterMap Event.called?)

namespace Numbered
variable {json : Json} {trace : List Event} {state next : System} {event : Event}

theorem once (numbered : Numbered trace state) : (trace.filterMap Event.sent?).Nodup := by
  have called := called_nodup numbered.fresh
  exact (List.nodup_append.mp (numbered.sent.nodup_iff.mpr called)).1

theorem step (numbered : Numbered trace state) (stepped : SystemStep json state event next) :
    Numbered (trace ++ [event]) next := by
  refine ⟨stepped.fresh numbered.fresh, ?_⟩
  have sent := numbered.sent
  have callers := stepped.callers
  rw [filterMap_snoc, filterMap_snoc, List.perm_iff_count]
  intro request
  have sent := sent.count_eq request
  have callers := callers.count_eq request
  simp only [List.count_append] at sent callers ⊢
  omega

end Numbered

theorem reaches_answered {json : Json} {file : Option Bytes} {trace : List Event} {state : System}
    (reaches : (patient json file).Reaches trace state) :
    Answering state ∧ Numbered trace state ∧
      (trace.filterMap Event.completed? ++ state.accepted).Perm (trace.filterMap Event.sent?) := by
  refine reaches.trace_invariant (fun trace state => Answering state ∧ Numbered trace state ∧
    (trace.filterMap Event.completed? ++ state.accepted).Perm (trace.filterMap Event.sent?)) ?_ ?_
  · exact ⟨.initial file, ⟨rfl, .refl _⟩, .refl _⟩
  · intro trace state event next _ tracked stepped
    obtain ⟨answering, numbered, accepted⟩ := tracked
    obtain ⟨patient, stepped⟩ := Machine.restrict_step.mp stepped
    have stepped := system_cases (show state.step json event = some next from stepped)
    refine ⟨answering.step patient stepped, numbered.step stepped, ?_⟩
    obtain ⟨dropped, kept, lost⟩ := stepped.requests
    have nothing : dropped = [] := List.eq_nil_iff_forall_not_mem.mpr fun message member =>
      answering.loses (lost message member)
    have callers := stepped.callers
    subst nothing
    rw [filterMap_snoc, filterMap_snoc, List.perm_iff_count]
    intro request
    have accepted := accepted.count_eq request
    have kept := kept.count_eq request
    have callers := callers.count_eq request
    simp only [System.accepted, System.count_inFlight, List.count_append, List.count_nil] at accepted kept callers ⊢
    omega

/-- Every request that the router's channel accepts is answered once or still on
its way, across any number of resets that meet a quiet actor. -/
theorem patient_answered {json : Json} {file : Option Bytes} {trace : List Event} {state : System}
    (reaches : (patient json file).Reaches trace state) : Answered trace state := by
  obtain ⟨_, numbered, accepted⟩ := reaches_answered reaches
  exact ⟨numbered.once, accepted⟩

/-- A client's `set` is in the channel of the actor that a `Reset` aborts. -/
theorem reset_drops_request :
    ¬ ∀ json file trace state, (store json file).Reaches trace state → Answered trace state := by
  intro always
  obtain ⟨state, reaches, empty⟩ : ∃ state, (store textsJson none).Reaches
      [.call (.set "a" [1] 0), .send (.set "a" [1] 0), .route, .forward, .reset .keyValue, .route, .actor 0 .cancel]
      state ∧ state.accepted = [] := ⟨_, rfl, rfl⟩
  obtain ⟨_, kept⟩ := always _ _ _ _ reaches
  rw [empty] at kept
  exact absurd kept.length_eq (by decide)

section Drops
variable {json : Json} {file : Option Bytes} {state : System} {index : Nat} {inc moved : Incarnation}

private theorem update_found (found : state.incarnations[index]? = some inc) :
    (state.update index moved).incarnations[index]? = some moved := by
  simp [System.update, (List.getElem?_eq_some_iff.mp found).1]

private theorem replace_found (found : state.incarnations[state.current]? = some inc) :
    state.replace.incarnations[state.current]? = some { inc with closed := true, aborted := true } := by
  have inside := (List.getElem?_eq_some_iff.mp found).1
  rw [System.replace, List.getElem?_append_left (by rw [List.length_modify]; exact inside), List.getElem?_modify_eq, found]
  rfl

/-- A step of one actor, and then a run from the incarnation it has become. -/
private theorem runs_actor (found : state.incarnations[index]? = some inc) {event : ActorEvent}
    (moves : inc.actorStep event = some moved) (quiet : event ≠ .heartbeat) {events : List Event} {last : Incarnation}
    (rest : (store json file).runFrom (state.update index moved) events =
      some ((state.update index moved).update index last)) :
    (store json file).runFrom state (.actor index event :: events) = some (state.update index last) := by
  have stepped : (store json file).step state (.actor index event) = some (state.update index moved) := by
    simp [store, System.step, found, moves, quiet]
  have twice : (state.update index moved).update index last = state.update index last := by
    simp [System.update]
  rw [Machine.runFrom_cons, stepped, Option.bind_some, rest, twice]

private theorem cancels (found : state.incarnations[index]? = some inc) (aborted : inc.aborted = true)
    (awaits : inc.actor.cancellable = true) :
    (store json file).runFrom state [.actor index .cancel] = some (state.update index inc.stop) := by
  simp [store, System.step, found, Incarnation.actorStep, aborted, awaits]

/-- An aborted actor that is not quiet can stop before it has answered all of its requests. -/
theorem aborted_stops (found : state.incarnations[index]? = some inc) (aborted : inc.aborted = true)
    (running : inc.actor.isStopped = false) (loud : inc.quiet = false) :
    ∃ events, (store json file).runFrom state events = some (state.update index inc.stop) ∧
      events.filterMap Event.sent? = [] ∧ (events.filterMap Event.completed?).length < inc.requests.length := by
  cases awaits : inc.actor.cancellable with
  | true =>
    refine ⟨_, cancels found aborted awaits, rfl, ?_⟩
    apply List.length_pos_iff.mpr
    intro nothing
    obtain ⟨held, empty⟩ := List.append_eq_nil_iff.mp nothing
    rw [Incarnation.quiet_iff.mpr ⟨empty, .inl held⟩] at loud
    cases loud
  | false =>
    have waiting : 0 < inc.inbox.length := by
      simpa [Incarnation.quiet, awaits, List.length_pos_iff] using loud
    cases place : inc.actor with
    | start | awaitMap | recv | heartbeat =>
      rw [place] at awaits
      cases awaits
    | stopped =>
      rw [place] at running
      cases running
    | answer map message =>
      let answered : Incarnation := { inc with actor := .recv (message.apply map) }
      have answers : inc.actorStep (.answer message (message.answer map)) = some answered := by
        simp [Incarnation.actorStep, place, answered]
      have drops := @cancels json file _ index answered (update_found found) aborted rfl
      refine ⟨_, runs_actor found answers (by simp) drops, rfl, ?_⟩
      show 1 < inc.requests.length
      simpa [Incarnation.requests, place] using waiting
    | log map message =>
      have unlogged : WriterLogMessage.from_key_value_message message = none := by
        simpa [place, KeyValueActor.cancellable] using awaits
      let passed : Incarnation := { inc with actor := .answer map message }
      let answered : Incarnation := { inc with actor := .recv (message.apply map) }
      have passes : inc.actorStep .log = some passed := by simp [Incarnation.actorStep, place, unlogged, passed]
      have answers : passed.actorStep (.answer message (message.answer map)) = some answered := by
        simp [Incarnation.actorStep, passed, answered]
      have at_passed : (state.update index passed).incarnations[index]? = some passed := update_found found
      have drops := @cancels json file _ index answered (update_found at_passed) aborted rfl
      have finishes := @runs_actor json file _ index passed answered at_passed _ answers (by simp) _ _ drops
      refine ⟨_, runs_actor found passes (by simp) finishes, rfl, ?_⟩
      show 1 < inc.requests.length
      simpa [Incarnation.requests, place] using waiting

/-- By steps of its own, it drops a request. -/
theorem aborted_drops (found : state.incarnations[index]? = some inc) (aborted : inc.aborted = true)
    (running : inc.actor.isStopped = false) (loud : inc.quiet = false) :
    ∃ events final, (store json file).runFrom state events = some final ∧ events.filterMap Event.sent? = [] ∧
      (events.filterMap Event.completed?).length + final.accepted.length < state.accepted.length := by
  obtain ⟨events, runs, unsent, fewer⟩ := @aborted_stops json file _ _ _ found aborted running loud
  refine ⟨events, _, runs, unsent, ?_⟩
  have moved := (System.inFlight_update state inc.stop found).length_eq
  have gone : inc.stop.requests = [] := rfl
  have callers : (state.update index inc.stop).callers = state.callers := rfl
  rw [gone, List.append_nil, List.length_append, System.length_inFlight, System.length_inFlight, callers] at moved
  omega

/-- After a `Reset` that breaks the condition, the aborted actor can drop a request. -/
theorem reset_drops {trace : List Event} {next : System} (reaches : (patient json file).Reaches trace state)
    (hasty : state.patient .route = false) (stepped : state.step json .route = some next) :
    ∃ events final, (store json file).runFrom next events = some final ∧
      ¬ Answered (trace ++ .route :: events) final := by
  obtain ⟨answering, _, accepted⟩ := reaches_answered reaches
  have routed := system_cases stepped
  have kept : next.inFlight.length = state.inFlight.length := by
    obtain ⟨dropped, kept, lost⟩ := routed.requests
    have nothing : dropped = [] := List.eq_nil_iff_forall_not_mem.mpr fun message member =>
      answering.loses (lost message member)
    simpa [nothing] using kept.length_eq
  obtain ⟨inc, found, loud⟩ : ∃ inc, state.incarnations[state.current]? = some inc ∧ inc.quiet = false := by
    simp only [System.patient] at hasty
    split at hasty
    · exact (Option.all_eq_false ..).mp hasty
    · cases hasty
  have alive := (answering.found_answers found).1 (answering.current inc found)
  cases routed with
  | routeMessage idle front | routeBeat idle front => simp [System.patient, idle, front] at hasty
  | @routeReset actor rest idle front =>
    have at_old := @replace_found { state with routerChannel := rest } inc found
    obtain ⟨events, final, runs, unsent, fewer⟩ := @aborted_drops json file _ _ _ at_old rfl alive.running loud
    refine ⟨events, final, runs, fun answered => ?_⟩
    have sum := answered.2.length_eq
    have before := accepted.length_eq
    have callers : (System.replace { state with routerChannel := rest }).callers = state.callers := rfl
    rw [List.filterMap_append, List.filterMap_append, List.filterMap_cons_none rfl, List.filterMap_cons_none rfl, unsent,
      List.append_nil, List.length_append, List.length_append] at sum
    rw [List.length_append] at before
    rw [System.length_inFlight, System.length_inFlight, callers] at kept
    omega

end Drops

end RustAsyncAwait.KeyValueStore
