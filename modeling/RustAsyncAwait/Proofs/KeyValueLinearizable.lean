import RustAsyncAwait.Proofs.KeyValueProgress

/-! Linearizability of the store without resets. The order is that of the answers:
one actor answers them all, and a request is sent once and not after its answer. -/

namespace RustAsyncAwait.KeyValueStore
open Library

/-- What `load_map` returns at start-up. An error of the file gives the empty map. -/
def startMap (json : Json) (file : Option Bytes) (trace : List Event) : Map :=
  if .writer 0 .fail ∈ trace then ∅ else loaded json file

/-- Nobody sends a `Reset`, and no error of the file ends a writer. -/
def System.lively (state : System) : Event → Bool
  | .reset _ => false
  | .writer index .fail => state.incarnations[index]?.any fun inc => inc.writer.loading
  | _ => true

def lively (json : Json) (file : Option Bytes) : Machine System Event :=
  (store json file).restrict fun state event => state.lively event = true

/-- The only incarnation, after answering `history`. -/
structure Serving (json : Json) (start : Map) (history : List (KeyValueMessage × Answer)) (pair : Pair) : Prop where
  legal : hashMap.Legal start history
  synced : Synced json (hashMap.after start history) pair
  unanswered : pair.inc.writer.loading = true → history = []
  opened : pair.inc.closed = false
  kept : pair.inc.aborted = false
  running : pair.inc.actor.isStopped = false

namespace Serving
variable {json : Json} {start : Map} {history : List (KeyValueMessage × Answer)} {pair : Pair}

theorem initial (json : Json) (file : Option Bytes) : Serving json (loaded json file) [] { file } :=
  ⟨trivial, synced_initial json file, fun _ => rfl, rfl, rfl, rfl⟩

theorem unstopped (serving : Serving json start history pair) : pair.inc.actor ≠ .stopped := by
  intro stopped
  have running := serving.running
  rw [stopped] at running
  cases running

theorem received (serving : Serving json start history pair) (inbox : List KeyValueMessage) :
    Serving json start history { pair with inc := { pair.inc with inbox := inbox } } :=
  ⟨serving.legal, serving.synced.received inbox pair.inc.closed pair.inc.aborted, serving.unanswered, serving.opened,
    serving.kept, serving.running⟩

theorem actor (serving : Serving json start history pair) {event : ActorEvent} {next : Incarnation}
    (stepped : ActorStep pair.inc event next) :
    Serving json start (history ++ event.answered?.toList) { pair with inc := next } := by
  obtain ⟨legal, synced⟩ := serving.synced.answers serving.legal stepped
  cases stepped with
  | start fresh =>
    have unspawned := (serving.synced.fresh fresh).1
    have nothing := serving.unanswered (by rw [unspawned]; rfl)
    exact ⟨legal, synced, fun _ => by simp [nothing], serving.opened, serving.kept, rfl⟩
  | takeMap place _ | recv place _ | pass place _ | refuse place _ _ | log place _ _ _ | timeout place _ _
  | heartbeat place =>
    refine ⟨legal, synced, fun loading => ?_, serving.opened, serving.kept, rfl⟩
    simpa using serving.unanswered loading
  | answer held =>
    refine ⟨legal, synced, fun loading => ?_, serving.opened, serving.kept, rfl⟩
    obtain ⟨_, finished⟩ := serving.synced.settled (by rw [held]; rfl)
    exact absurd loading (by simp [finished])
  | panic _ _ ended => exact absurd ended (serving.synced.unended serving.unstopped)
  | close _ _ closed => exact absurd closed (by simp [serving.opened])
  | cancel aborted _ => exact absurd aborted (by simp [serving.kept])

theorem writer (serving : Serving json start history pair) {event : WriterEvent} {next : Pair}
    (stepped : WriterStep json pair event next) (succeeds : event ≠ .fail) : Serving json start history next := by
  obtain ⟨actor, _, closed, aborted⟩ := stepped.actor_eq
  refine ⟨serving.legal, serving.synced.writer stepped succeeds, fun loading => ?_, closed.trans serving.opened,
    aborted.trans serving.kept, by rw [actor]; exact serving.running⟩
  cases stepped with
  | «open» place | read place _ _ => exact serving.unanswered (by rw [place]; rfl)
  | unreadable _ | fail _ => exact absurd rfl succeeds
  | _ => cases loading

/-- An error while loading leaves the store with the empty map. -/
theorem unreadable (serving : Serving json start history pair)
    (loading : pair.inc.writer = .open ∨ ∃ contents, pair.inc.writer = .read contents) :
    Serving json ∅ history (pair.setWriter (.create ∅)) := by
  have nothing := serving.unanswered (by rcases loading with place | ⟨contents, place⟩ <;> rw [place] <;> rfl)
  subst nothing
  exact ⟨trivial, serving.synced.unreadable loading, fun _ => rfl, serving.opened, serving.kept, serving.running⟩

end Serving

/-- After this trace, there is one incarnation and no `Reset` on its way. -/
def Served (json : Json) (file : Option Bytes) (trace : List Event) (state : System) : Prop :=
  (∀ actor, .reset actor ∉ state.routerChannel) ∧
    ∃ inc, state.incarnations = [inc] ∧
      Serving json (startMap json file trace) (responses Event.answered? trace) ⟨inc, state.file⟩

section Step
variable {json : Json} {file : Option Bytes} {trace : List Event} {state next : System} {event : Event}

theorem startMap_snoc (succeeds : event ≠ .writer 0 .fail) :
    startMap json file (trace ++ [event]) = startMap json file trace := by
  simp [startMap, Ne.symm succeeds]

private theorem Serving.later {pair : Pair}
    (serving : Serving json (startMap json file trace) (responses Event.answered? trace) pair)
    (unanswered : event.answered? = none) (succeeds : event ≠ .writer 0 .fail) :
    Serving json (startMap json file (trace ++ [event])) (responses Event.answered? (trace ++ [event])) pair := by
  rw [startMap_snoc succeeds, responses_snoc, unanswered, Option.toList_none, List.append_nil]
  exact serving

theorem Served.step (served : Served json file trace state) (lives : state.lively event = true)
    (stepped : SystemStep json state event next) : Served json file (trace ++ [event]) next := by
  obtain ⟨unreset, inc, single, serving⟩ := served
  have last : state.current = 0 := by simp [System.current, single]
  cases stepped with
  | call _ => exact ⟨unreset, inc, single, serving.later rfl (by simp)⟩
  | send _ _ => exact ⟨by simpa using unreset, inc, single, serving.later rfl (by simp)⟩
  | reset _ => cases lives
  | routeMessage _ front | routeBeat _ front =>
    rw [front] at unreset
    exact ⟨fun actor member => unreset actor (List.mem_cons_of_mem _ member), inc, single, serving.later rfl (by simp)⟩
  | @routeReset actor rest idle front =>
    rw [front] at unreset
    exact absurd (List.mem_cons_self ..) (unreset actor)
  | refuse _ _ _ | forwardBeat _ _ | wakeUp _ | heartbeat _ =>
    exact ⟨unreset, inc, single, serving.later rfl (by simp)⟩
  | @forward message _ holds found alive room =>
    rw [last, single] at found
    obtain ⟨_, rfl⟩ := singleton_getElem?.mp found
    refine ⟨unreset, { inc with inbox := inc.inbox ++ [message] }, ?_, (serving.received _).later rfl (by simp)⟩
    simp [System.update, last, single]
  | @actor index event _ moved found stepped _ =>
    rw [single] at found
    obtain ⟨rfl, rfl⟩ := singleton_getElem?.mp found
    refine ⟨unreset, moved, by simp [System.update, single], ?_⟩
    rw [startMap_snoc (by simp), responses_snoc]
    exact serving.actor stepped
  | @actorBeat index _ moved found stepped _ =>
    rw [single] at found
    obtain ⟨rfl, rfl⟩ := singleton_getElem?.mp found
    refine ⟨by simpa [System.update] using unreset, moved, by simp [System.update, single], ?_⟩
    rw [startMap_snoc (by simp), responses_snoc]
    exact serving.actor stepped
  | @writer index event _ moved found stepped _ =>
    rw [single] at found
    obtain ⟨rfl, rfl⟩ := singleton_getElem?.mp found
    refine ⟨unreset, moved.inc, by simp [System.update, single], ?_⟩
    by_cases fails : event = .fail
    · subst fails
      have loading : inc.writer.loading = true := by simpa [System.lively, single] using lives
      have start : startMap json file (trace ++ [.writer 0 .fail]) = ∅ := by simp [startMap]
      rw [start, responses_snoc]
      simp only [Event.answered?, Option.toList_none, List.append_nil]
      cases stepped with
      | unreadable loads => exact serving.unreadable loads
      | fail writing =>
        simp only at writing
        cases place : inc.writer <;> simp [place, WriterActor.loading, WriterActor.writing] at loading writing
    · exact (serving.writer stepped fails).later rfl (by simpa using fails)
  | @writerBeat index _ moved found stepped _ =>
    rw [single] at found
    obtain ⟨rfl, rfl⟩ := singleton_getElem?.mp found
    exact ⟨by simpa [System.update] using unreset, moved.inc, by simp [System.update, single],
      (serving.writer stepped (by simp)).later rfl (by simp)⟩

/-- Every request called so far is in flight or answered, once. -/
structure Accounted (trace : List Event) (state : System) : Prop where
  fresh : (trace.filterMap Event.called?).map KeyValueMessage.response = List.range state.calls
  conserved : ((responses Event.answered? trace).map Prod.fst ++ state.inFlight).Perm (trace.filterMap Event.called?)
  unsent : ∀ answer send operation result, [answer, send].Sublist trace → answer.answered? = some (operation, result) →
    send.sent? ≠ some operation

theorem Accounted.nodup (accounted : Accounted trace state) : (trace.filterMap Event.called?).Nodup :=
  called_nodup accounted.fresh

theorem Accounted.step (accounted : Accounted trace state) (stepped : SystemStep json state event next)
    (running : ∀ inc ∈ next.incarnations, inc.actor.isStopped = false) : Accounted (trace ++ [event]) next := by
  refine ⟨stepped.fresh accounted.fresh, ?_, ?_⟩
  · obtain ⟨dropped, kept, lost⟩ := stepped.requests
    have nothing : dropped = [] := by
      apply List.eq_nil_iff_forall_not_mem.mpr
      intro message member
      cases lost message member with
      | stops _ _ _ after gone | refused _ after gone =>
        rw [running _ after] at gone
        cases gone
    subst nothing
    have conserved := accounted.conserved
    rw [responses_snoc, filterMap_snoc, List.map_append, event.completed_toList, List.perm_iff_count]
    intro request
    have kept := kept.count_eq request
    have conserved := conserved.count_eq request
    simp only [List.count_append, List.count_nil] at kept conserved ⊢
    omega
  · intro answer send operation result before answered sent
    rcases before_snoc.mp before with earlier | ⟨member, rfl⟩
    · exact accounted.unsent answer send operation result earlier answered sent
    · have waits : operation ∈ state.inFlight := by
        cases stepped with
        | send waits _ =>
          cases sent
          simp [System.inFlight, waits]
        | _ => cases sent
      have done : operation ∈ (responses Event.answered? trace).map Prod.fst :=
        List.mem_map.mpr ⟨(operation, result), List.mem_filterMap.mpr ⟨answer, member, answered⟩, rfl⟩
      have once := accounted.conserved.nodup_iff.mpr accounted.nodup
      exact List.disjoint_of_nodup_append once done waits

theorem lively_run (reaches : (lively json file).Reaches trace state) :
    Served json file trace state ∧ Accounted trace state := by
  refine reaches.trace_invariant (fun trace state => Served json file trace state ∧ Accounted trace state) ?_ ?_
  · exact ⟨⟨fun _ => List.not_mem_nil, {}, rfl, .initial json file⟩, rfl, .refl _, fun _ _ _ _ before => by simp at before⟩
  · intro trace state event next _ tracked stepped
    obtain ⟨served, accounted⟩ := tracked
    obtain ⟨lives, stepped⟩ := Machine.restrict_step.mp stepped
    have stepped := system_cases (show state.step json event = some next from stepped)
    have served := served.step lives stepped
    refine ⟨served, accounted.step stepped ?_⟩
    obtain ⟨_, inc, single, serving⟩ := served
    intro other member
    rw [single, List.mem_singleton] at member
    rw [member]
    exact serving.running

end Step

section Answers
variable {json : Json} {file : Option Bytes} {schedule : Nat → Event} {start : Nat} {message : KeyValueMessage}

/-- Where at most 32 requests are in flight, such a run is one of those in which
every request is answered. -/
theorem lively_calm {trace : List Event} {state : System} (reaches : ((lively json file).restrict fun state event =>
    event.called? = none ∨ state.inFlight.length < capacity).Reaches trace state) : (calm json file).Reaches trace state := by
  suffices both : (calm json file).Reaches trace state ∧ ∀ actor, .reset actor ∉ state.routerChannel from both.1
  have first : (calm json file).Reaches [] { file } ∧ ∀ actor, RoutingMessage.reset actor ∉ ({ file } : System).routerChannel :=
    ⟨.nil, fun _ => List.not_mem_nil⟩
  refine reaches.trace_invariant
    (fun trace state => (calm json file).Reaches trace state ∧ ∀ actor, .reset actor ∉ state.routerChannel) first ?_
  intro trace state event next _ held stepped
  obtain ⟨reached, unreset⟩ := held
  obtain ⟨room, stepped⟩ := Machine.restrict_step.mp stepped
  obtain ⟨lives, moves⟩ := Machine.restrict_step.mp stepped
  have patient : state.patient event = true := by
    unfold System.patient
    split
    · split
      next actor rest idle front => exact absurd (front ▸ List.mem_cons_self ..) (unreset actor)
      next => rfl
    · -- a writer that loads is not at `File::create`
      next index =>
      obtain ⟨inc, found, loads⟩ := (Option.any_eq_true ..).mp lives
      rw [found, Option.all_some]
      cases place : inc.writer with
      | create => simp [place, WriterActor.loading] at loads
      | _ => simp
    · rfl
  refine ⟨reached.snoc (Machine.restrict_step.mpr ⟨room, Machine.restrict_step.mpr ⟨patient, moves⟩⟩), fun actor => ?_⟩
  cases system_cases (show state.step json event = some next from moves) with
  | reset => cases lives
  | call | forward | refuse | forwardBeat | wakeUp | heartbeat | actor | writer => exact unreset actor
  | send | actorBeat | writerBeat =>
    rw [List.mem_append, List.mem_singleton]
    intro either
    rcases either with queued | new
    · exact unreset actor queued
    · cases new
  | routeMessage _ front | routeBeat _ front | routeReset _ front =>
    rw [front] at unreset
    exact fun member => unreset actor (List.mem_cons_of_mem _ member)

/-- A client that waits for room in the router's channel gets it. -/
def Attended (json : Json) (file : Option Bytes) (schedule : Nat → Event) : Prop :=
  ∀ message, (calm json file).StronglyFair schedule
    (fun state => message ∈ state.callers ∧ state.routerChannel.length < capacity) fun event => event = .send message

theorem call_sent (fair : Fair json file schedule) (attended : Attended json file schedule)
    (called : message ∈ ((calm json file).happened schedule start).filterMap Event.called?) :
    ∃ sent, start ≤ sent ∧ message ∈ ((calm json file).happened schedule sent).filterMap Event.sent? := by
  by_contra unsent
  simp only [not_exists, not_and] at unsent
  have waits (later : Nat) (behind : start ≤ later) : message ∈ ((calm json file).states schedule later).callers := by
    obtain ⟨_, numbered, _⟩ := reaches_answered (Machine.reaches_states (calm json file) schedule later).unrestricted
    have among := numbered.sent.symm.subset (((Machine.happened_prefix_of_le behind).filterMap _).subset called)
    exact (List.mem_append.mp among).resolve_left (unsent later behind)
  obtain ⟨later, behind, sends, next, stepped⟩ := attended message start fun middle behind => by
    obtain ⟨later, beyond, room⟩ := router_room fair middle
    exact ⟨later, beyond, waits later (Nat.le_trans behind beyond), room⟩
  apply unsent (later + 1) (Nat.le_succ_of_le behind)
  rw [Machine.happened_succ, stepped, sends, Option.isSome_some, if_pos rfl, List.filterMap_append]
  exact List.mem_append_right _ (List.mem_singleton_self message)

/-- Where at most 32 requests are in flight, every call is answered, and once. -/
theorem calls_answered (prints : ∀ map, ∃ contents, json.to_string map contents = true) (fair : Fair json file schedule)
    (attended : Attended json file schedule)
    (called : message ∈ ((calm json file).happened schedule start).filterMap Event.called?) :
    ∃ answered, start ≤ answered ∧ ∀ later, answered ≤ later →
      (((calm json file).happened schedule later).filterMap Event.completed?).count message = 1 := by
  obtain ⟨sent, after, member⟩ := call_sent fair attended called
  obtain ⟨answered, behind, once⟩ := accepted_answered prints fair member
  exact ⟨answered, Nat.le_trans after behind, once⟩

end Answers

/-- The answers are those of a sequential map that gets the requests in the order
of the answers. Every request is answered at most once and none is lost, and
`calls_answered` has the answer. -/
theorem answers_linearize {json : Json} {file : Option Bytes} {trace : List Event} {state : System}
    (reaches : (lively json file).Reaches trace state) :
    ∃ order, Linearizes Event.sent? Event.answered? hashMap (startMap json file trace) trace order ∧
      (trace.filterMap Event.called?).Nodup ∧
      (order.map Prod.fst ++ state.inFlight).Perm (trace.filterMap Event.called?) := by
  obtain ⟨⟨_, _, _, serving⟩, accounted⟩ := lively_run reaches
  exact ⟨_, linearizes_responses serving.legal accounted.unsent, accounted.nodup, accounted.conserved⟩

/-- The `get` overtakes the `set` on its way to the router, behind a heartbeat. -/
theorem answers_linearize_overtaken :
    let trace : List Event := [.actor 0 .start, .writer 0 .open, .writer 0 (.read 2), .writer 0 .parse, .writer 0 .create,
      .writer 0 (.recv [123, 125]), .actor 0 .takeMap, .actor 0 .timeout, .actor 0 .heartbeat, .call (.set "a" [1] 0),
      .call (.get "a" 1), .send (.get "a" 1), .send (.set "a" [1] 0), .route, .forward, .route, .forward, .heartbeat,
      .route, .forward, .actor 0 .recv, .actor 0 .log, .actor 0 (.answer (.get "a" 1) (.found none)), .actor 0 .recv,
      .actor 0 .log, .actor 0 (.answer (.set "a" [1] 0) .done)]
    ∃ order, Linearizes Event.sent? Event.answered? hashMap (startMap textsJson (some [123, 125]) trace) trace order ∧
      (trace.filterMap Event.called?).Nodup ∧
      (order.map Prod.fst ++ []).Perm [.set "a" [1] 0, .get "a" 1] := by
  intro trace
  obtain ⟨state, reaches, empty⟩ : ∃ state, (lively textsJson (some [123, 125])).Reaches trace state ∧ state.inFlight = [] :=
    ⟨_, rfl, rfl⟩
  have linearized := answers_linearize reaches
  rw [empty] at linearized
  exact linearized

end RustAsyncAwait.KeyValueStore
