import RustAsyncAwait.Proofs.KeyValueRequests
import RustAsyncAwait.Proofs.KeyValueRestart

/-! Acknowledged writes across resets. They survive as long as no writer loads the
file before the writers of earlier incarnations are done with it. -/

namespace RustAsyncAwait.KeyValueStore
open Library

def KeyValueMessage.writes (key : String) : KeyValueMessage → Bool
  | get _ _ => false
  | delete other _ | set other _ _ => other == key

/-- A `get` called after the answer to a `set` finds its value, unless a write of
the same key was answered in between. -/
def Survives (trace : List Event) : Prop :=
  ∀ before acknowledged between got after key value response request result,
    trace = before ++ [acknowledged] ++ between ++ [got] ++ after →
    acknowledged.answered? = some (.set key value response, .done) → .call (.get key request) ∈ between →
    (∀ event ∈ between, ∀ message, event.completed? = some message → message.writes key = false) →
    got.answered? = some (.get key request, result) → result = .found (some value)

def Event.succeeds : Event → Bool
  | .writer _ .fail => false
  | _ => true

/-- The actor has stopped, and the writer has written what it was sent. -/
def Incarnation.settled (inc : Incarnation) : Bool :=
  inc.actor.isStopped && inc.log.isEmpty &&
    match inc.writer with
    | .unspawned | .recv _ | .heartbeat _ | .ended => true
    | _ => false

/-- A writer opens, reads and parses the file when all earlier incarnations are settled. -/
def System.orderly (state : System) : Event → Bool
  | .writer index .open | .writer index (.read _) | .writer index .parse =>
    (state.incarnations.take index).all Incarnation.settled
  | event => event.succeeds

def orderly (json : Json) (file : Option Bytes) : Machine System Event :=
  (store json file).restrict fun state event => state.orderly event = true

theorem after_unwritten {key : String} {history : List (KeyValueMessage × Answer)}
    (unwritten : ∀ entry ∈ history, entry.1.writes key = false) (map : Map) :
    (hashMap.after map history)[key]? = map[key]? := by
  induction history generalizing map with
  | nil => rfl
  | cons entry rest ih =>
    obtain ⟨message, result⟩ := entry
    have other := unwritten _ (List.mem_cons_self ..)
    have rest := ih (fun entry member => unwritten entry (List.mem_cons_of_mem _ member)) (message.apply map)
    rw [show hashMap.after map ((message, result) :: _) = hashMap.after (message.apply map) _ from rfl, rest]
    cases message with
    | get _ _ => rfl
    | delete _ _ | set _ _ _ =>
      simp only [KeyValueMessage.writes, beq_eq_false_iff_ne] at other
      simp [KeyValueMessage.apply, HashMap.get_erase, HashMap.get_insert, other]

/-- A run whose answers are those of a sequential map. -/
theorem survives_of_legal {start : Map} {trace : List Event} (legal : hashMap.Legal start (responses Event.answered? trace)) :
    Survives trace := by
  intro before acknowledged between got after key value response request result split acked _ unwritten found
  have answers : responses Event.answered? trace =
      (responses Event.answered? before ++ [(.set key value response, .done)] ++ responses Event.answered? between) ++
        [(.get key request, result)] ++ responses Event.answered? after := by
    simp only [responses, split, List.filterMap_append, List.filterMap_cons, List.filterMap_nil, acked, found]
  rw [answers, hashMap.legal_append, hashMap.legal_append] at legal
  obtain ⟨⟨_, result_eq, _⟩, _⟩ := legal
  rw [result_eq]
  have others : ∀ entry ∈ responses Event.answered? between, entry.1.writes key = false := by
    intro entry member
    obtain ⟨event, inside, answered⟩ := List.mem_filterMap.mp member
    exact unwritten event inside entry.1 (by rw [Event.completed?, answered, Option.map_some])
  show Answer.found _ = _
  rw [hashMap.after_append, after_unwritten others, hashMap.after_append]
  show Answer.found ((hashMap.after start _).insert key value)[key]? = _
  simp

section Step
variable {json : Json} {map : Map}

/-- An incarnation that has not loaded the file, in step with whatever it holds. -/
def Waiting (json : Json) (inc : Incarnation) : Prop :=
  (inc.writer = .unspawned ∨ inc.writer = .open) ∧ ∀ file, Synced json (loaded json file) ⟨inc, file⟩

theorem Waiting.initial (json : Json) : Waiting json {} := ⟨.inl rfl, synced_initial json⟩

theorem Waiting.loading {inc : Incarnation} (waiting : Waiting json inc) : inc.writer.loading = true := by
  rcases waiting.1 with place | place <;> rw [place] <;> rfl

theorem Waiting.actor {inc next : Incarnation} {event : ActorEvent} (waiting : Waiting json inc)
    (stepped : ActorStep inc event next) : event.answered? = none ∧ Waiting json next := by
  have hasnt := ((waiting.2 none).unloaded waiting.loading).1
  have moved := fun file => (waiting.2 file).actor stepped
  cases stepped with
  | start fresh => exact ⟨rfl, .inr rfl, moved⟩
  | answer held => simp [held, KeyValueActor.map?] at hasnt
  | takeMap _ _ | panic _ _ _ | recv _ _ | pass _ _ | refuse _ _ _ | log _ _ _ _ | timeout _ _ _ | heartbeat _
  | close _ _ _ | cancel _ _ => exact ⟨rfl, waiting.1, moved⟩

theorem Waiting.opens {inc : Incarnation} {file : Option Bytes} {event : WriterEvent} {next : Pair}
    (waiting : Waiting json inc) (stepped : WriterStep json ⟨inc, file⟩ event next) (succeeds : event ≠ .fail) :
    event = .open := by
  have places := waiting.1
  cases stepped <;> simp_all

/-- A settled incarnation has left its map in the file. -/
theorem Synced.settled_file {pair : Pair} (synced : Synced json map pair) (settled : pair.inc.settled = true)
    (round_trip : ∀ map contents, json.to_string map contents = true → json.from_str contents = some map) :
    loaded json pair.file = map := by
  simp only [Incarnation.settled, Bool.and_eq_true, List.isEmpty_iff] at settled
  obtain ⟨⟨stopped, empty⟩, idle⟩ := settled
  have reloaded : ∀ held contents, json.to_string held contents = true → pair.file = some contents →
      loaded json pair.file = held := by
    intro held contents printed file
    rw [file, loaded, Option.elim_some, load_map, round_trip held contents printed, Option.getD_some]
  have stored := synced.stored
  have logged : pair.inc.actor.logged map = map := by
    cases place : pair.inc.actor <;> simp [place] at stopped ⊢; rfl
  cases place : pair.inc.writer with
  | unspawned => simpa only [Stored, place] using stored
  | recv held | heartbeat held =>
    have replayed := synced.replayed held (by rw [place]; rfl)
    rw [empty, logged] at replayed
    have same : held = map := replayed
    simp only [Stored, place, empty, List.not_mem_nil, false_or] at stored
    obtain ⟨contents, printed, file⟩ := stored
    exact (reloaded held contents printed file).trans same
  | ended =>
    simp only [Stored, place] at stored
    obtain ⟨_, _, contents, printed, file⟩ := stored
    exact reloaded map contents printed file
  | «open» | read _ | create _ | setLen _ _ | seek _ _ | write _ _ _ => simp [place] at idle

/-- A settled incarnation does not touch the file. -/
theorem settled_writer {pair next : Pair} {event : WriterEvent} (settled : pair.inc.settled = true)
    (stepped : WriterStep json pair event next) : next.inc.settled = true ∧ next.file = pair.file := by
  simp only [Incarnation.settled, Bool.and_eq_true, List.isEmpty_iff] at settled ⊢
  obtain ⟨⟨stopped, empty⟩, idle⟩ := settled
  cases stepped with
  | heartbeat _ | close _ _ _ => exact ⟨⟨⟨stopped, empty⟩, rfl⟩, rfl⟩
  | timeout _ _ alive => exact Bool.noConfusion (stopped.symm.trans alive)
  | recv _ front _ => rw [empty] at front; cases front
  | «open» place | read place _ _ | parse place _ _ | create place | setLen place | seek place | write place _ _
  | flush place => simp [place] at idle
  | unreadable loading => rcases loading with place | ⟨contents, place⟩ <;> simp [place] at idle
  | fail writing => cases place : pair.inc.writer <;> simp [place, WriterActor.writing] at idle writing

/-- Where an incarnation stands when the one at `loader` was the last to load the file. -/
structure Placed (json : Json) (map : Map) (file : Option Bytes) (loader index : Nat) (inc : Incarnation) : Prop where
  past : index < loader → inc.settled = true
  present : index = loader → Synced json map ⟨inc, file⟩
  future : loader < index → Waiting json inc

namespace Placed
variable {file : Option Bytes} {loader index : Nat} {inc : Incarnation}

theorem received (placed : Placed json map file loader index inc) (inbox : List KeyValueMessage) (closed aborted : Bool) :
    Placed json map file loader index { inc with inbox := inbox, closed := closed, aborted := aborted } :=
  ⟨placed.past, fun same => (placed.present same).received inbox closed aborted,
    fun later => ⟨(placed.future later).1, fun file => ((placed.future later).2 file).received inbox closed aborted⟩⟩

/-- Only the last to load the file depends on it. -/
theorem frame (placed : Placed json map file loader index inc) (other : index ≠ loader) (map' : Map)
    (file' : Option Bytes) : Placed json map' file' loader index inc :=
  ⟨placed.past, fun same => absurd same other, placed.future⟩

end Placed

/-- The answers are those of a sequential map, and the incarnation at `loader` has them all. -/
structure Handover (json : Json) (start : Map) (history : List (KeyValueMessage × Answer)) (loader : Nat)
    (state : System) : Prop where
  legal : hashMap.Legal start history
  inside : loader < state.incarnations.length
  placed : ∀ index inc, state.incarnations[index]? = some inc →
    Placed json (hashMap.after start history) state.file loader index inc

namespace Handover
variable {start : Map} {history : List (KeyValueMessage × Answer)} {loader : Nat} {state : System}

/-- One incarnation is replaced, and the others keep their places. -/
theorem update (handover : Handover json start history loader state) {index : Nat} {next : Incarnation}
    {history' : List (KeyValueMessage × Answer)} {file : Option Bytes} (legal : hashMap.Legal start history')
    (placed : Placed json (hashMap.after start history') file loader index next)
    (frame : index = loader ∨ hashMap.after start history' = hashMap.after start history ∧ file = state.file) :
    Handover json start history' loader (System.update { state with file := file } index next) := by
  refine ⟨legal, by simpa [System.update] using handover.inside, ?_⟩
  intro place item found_item
  simp only [System.update, List.getElem?_set] at found_item
  split at found_item
  next same =>
    subst same
    simp only [Option.ite_none_right_eq_some, Option.some.injEq] at found_item
    rw [← found_item.2]
    exact placed
  next other =>
    have kept := handover.placed place item found_item
    rcases frame with same | ⟨map_eq, file_eq⟩
    · exact kept.frame (fun loads => other (same.trans loads.symm)) _ _
    · rw [map_eq]
      exact file_eq ▸ kept

theorem keep (handover : Handover json start history loader state) {next : System}
    (incarnations : next.incarnations = state.incarnations) (file : next.file = state.file) :
    Handover json start history loader next := by
  refine ⟨handover.legal, incarnations ▸ handover.inside, ?_⟩
  rw [incarnations, file]
  exact handover.placed

theorem silent (handover : Handover json start history loader state) {event : Event} (unanswered : event.answered? = none) :
    Handover json start (history ++ event.answered?.toList) loader state := by
  rw [unanswered, Option.toList_none, List.append_nil]
  exact handover

theorem actor (handover : Handover json start history loader state) {index : Nat} {inc next : Incarnation}
    {event : ActorEvent} (found : state.incarnations[index]? = some inc) (stepped : ActorStep inc event next) :
    Handover json start (history ++ event.answered?.toList) loader (state.update index next) := by
  have placed := handover.placed index inc found
  rcases Nat.lt_trichotomy index loader with earlier | rfl | later
  · have settled := placed.past earlier
    simp only [Incarnation.settled, Bool.and_eq_true] at settled
    have alive := stepped.alive
    cases place : inc.actor <;> simp [place] at settled alive
  · obtain ⟨legal, synced⟩ := (placed.present rfl).answers handover.legal stepped
    refine handover.update legal ⟨?_, fun _ => synced, ?_⟩ (.inl rfl)
    · exact fun before => absurd before (Nat.lt_irrefl _)
    · exact fun after => absurd after (Nat.lt_irrefl _)
  · obtain ⟨silent, waiting⟩ := (placed.future later).actor stepped
    rw [silent, Option.toList_none, List.append_nil]
    refine handover.update handover.legal ⟨?_, ?_, fun _ => waiting⟩ (.inr ⟨rfl, rfl⟩)
    · exact fun before => absurd before (Nat.lt_asymm later)
    · exact fun same => absurd same (Nat.ne_of_gt later)

/-- A later incarnation can take over the file when all before it are settled. -/
theorem takeOver (handover : Handover json start history loader state)
    (round_trip : ∀ map contents, json.to_string map contents = true → json.from_str contents = some map)
    {index : Nat} (later : loader < index) (inside : index < state.incarnations.length)
    (settled : ∀ earlier inc, earlier < index → state.incarnations[earlier]? = some inc → inc.settled = true) :
    Handover json start history index state := by
  refine ⟨handover.legal, inside, fun place inc found => ⟨fun before => settled place inc before found, ?_, ?_⟩⟩
  · intro same
    subst same
    have last_found := List.getElem?_eq_getElem handover.inside
    have last := (handover.placed loader _ last_found).present rfl
    have file := last.settled_file (settled loader _ later last_found) round_trip
    rw [← file]
    exact ((handover.placed place inc found).future later).2 state.file
  · exact fun after => (handover.placed place inc found).future (Nat.lt_trans later after)

private theorem loader_writes (handover : Handover json start history loader state) {inc : Incarnation} {next : Pair}
    {event : WriterEvent} (found : state.incarnations[loader]? = some inc)
    (stepped : WriterStep json ⟨inc, state.file⟩ event next) (succeeds : event ≠ .fail) :
    Handover json start history loader (System.update { state with file := next.file } loader next.inc) := by
  have synced := ((handover.placed loader inc found).present rfl).writer stepped succeeds
  refine handover.update handover.legal ⟨?_, fun _ => synced, ?_⟩ (.inl rfl)
  · exact fun before => absurd before (Nat.lt_irrefl _)
  · exact fun after => absurd after (Nat.lt_irrefl _)

theorem writer (handover : Handover json start history loader state)
    (round_trip : ∀ map contents, json.to_string map contents = true → json.from_str contents = some map)
    {index : Nat} {inc : Incarnation} {next : Pair} {event : WriterEvent} (found : state.incarnations[index]? = some inc)
    (stepped : WriterStep json ⟨inc, state.file⟩ event next) (orderly : state.orderly (.writer index event) = true) :
    ∃ loader, Handover json start history loader (System.update { state with file := next.file } index next.inc) := by
  have succeeds : event ≠ .fail := by
    intro fails
    subst fails
    cases orderly
  have placed := handover.placed index inc found
  rcases Nat.lt_trichotomy index loader with earlier | rfl | later
  · obtain ⟨settled, file⟩ := settled_writer (placed.past earlier) stepped
    refine ⟨loader, handover.update handover.legal ⟨fun _ => settled, ?_, ?_⟩ (.inr ⟨rfl, file⟩)⟩
    · exact fun same => absurd same (Nat.ne_of_lt earlier)
    · exact fun after => absurd after (Nat.lt_asymm earlier)
  · exact ⟨index, handover.loader_writes found stepped succeeds⟩
  · have opens : event = .open := (placed.future later).opens stepped succeeds
    subst opens
    have all_settled := List.all_eq_true.mp orderly
    refine ⟨index, (handover.takeOver round_trip later (List.getElem?_eq_some_iff.mp found).1 ?_).loader_writes found
      stepped succeeds⟩
    intro earlier item before found_item
    exact all_settled item (List.mem_of_getElem? (by rw [List.getElem?_take_of_lt before]; exact found_item))

theorem replace (handover : Handover json start history loader state) : Handover json start history loader state.replace := by
  have length : state.incarnations.length ≤ state.replace.incarnations.length := by
    simp [System.replace]
  refine ⟨handover.legal, Nat.lt_of_lt_of_le handover.inside length, ?_⟩
  intro index inc found
  simp only [System.replace, List.getElem?_append, List.length_modify] at found
  split at found
  · rw [List.getElem?_modify] at found
    obtain ⟨old, found_old, rfl⟩ := Option.map_eq_some_iff.mp found
    have placed := handover.placed index old found_old
    split
    · exact placed.received old.inbox true true
    · exact placed
  next outside =>
    have new : inc = {} := by
      have member := List.mem_of_getElem? found
      simpa using member
    have later : loader < index := Nat.lt_of_lt_of_le handover.inside (Nat.le_of_not_lt outside)
    subst new
    refine ⟨?_, ?_, fun _ => .initial json⟩
    · exact fun before => absurd before (Nat.lt_asymm later)
    · exact fun same => absurd same (Nat.ne_of_gt later)

end Handover

theorem Handover.step {start : Map} {history : List (KeyValueMessage × Answer)} {loader : Nat} {state next : System}
    {event : Event} (handover : Handover json start history loader state)
    (round_trip : ∀ map contents, json.to_string map contents = true → json.from_str contents = some map)
    (orderly : state.orderly event = true) (stepped : SystemStep json state event next) :
    ∃ loader, Handover json start (history ++ event.answered?.toList) loader next := by
  cases stepped with
  | actor found stepped _ => exact ⟨loader, handover.actor found stepped⟩
  | actorBeat found stepped _ => exact ⟨loader, (handover.actor found stepped).keep rfl rfl⟩
  | writer found stepped _ =>
    obtain ⟨loader, moved⟩ := handover.writer round_trip found stepped orderly
    exact ⟨loader, moved.silent rfl⟩
  | writerBeat found stepped _ =>
    obtain ⟨loader, moved⟩ := handover.writer round_trip found stepped orderly
    exact ⟨loader, (moved.silent rfl).keep rfl rfl⟩
  | @forward message inc holds found alive room =>
    have placed := (handover.placed _ inc found).received (inc.inbox ++ [message]) inc.closed inc.aborted
    have moved := handover.update handover.legal placed (.inr ⟨rfl, rfl⟩)
    exact ⟨loader, (moved.silent rfl).keep rfl rfl⟩
  | @routeReset actor rest _ _ =>
    have kept : Handover json start history loader { state with routerChannel := rest } := handover.keep rfl rfl
    exact ⟨loader, kept.replace.silent rfl⟩
  | call _ | send _ _ | reset _ | routeMessage _ _ | routeBeat _ _ | refuse _ _ _ | forwardBeat _ _ | wakeUp _
  | heartbeat _ =>
    exact ⟨loader, (handover.silent rfl).keep rfl rfl⟩

theorem orderly_run {file : Option Bytes} {trace : List Event} {state : System}
    (round_trip : ∀ map contents, json.to_string map contents = true → json.from_str contents = some map)
    (reaches : (orderly json file).Reaches trace state) :
    ∃ loader, Handover json (loaded json file) (responses Event.answered? trace) loader state := by
  apply reaches.trace_invariant fun trace state =>
    ∃ loader, Handover json (loaded json file) (responses Event.answered? trace) loader state
  · refine ⟨0, trivial, Nat.zero_lt_one, ?_⟩
    intro index inc found
    obtain ⟨rfl, rfl⟩ := singleton_getElem?.mp found
    refine ⟨?_, fun _ => synced_initial json file, ?_⟩
    · exact fun before => absurd before (Nat.lt_irrefl _)
    · exact fun after => absurd after (Nat.lt_irrefl _)
  · intro trace state event next _ held stepped
    obtain ⟨loader, handover⟩ := held
    obtain ⟨guard, stepped⟩ := Machine.restrict_step.mp stepped
    rw [responses_snoc]
    exact handover.step round_trip guard (system_cases (show state.step json event = some next from stepped))

end Step

/-- Resets keep every acknowledged write if the writers hand over the file in order. -/
theorem writes_survive {json : Json}
    (round_trip : ∀ map contents, json.to_string map contents = true → json.from_str contents = some map)
    {file : Option Bytes} {trace : List Event} {state : System} (reaches : (orderly json file).Reaches trace state) :
    Survives trace := by
  obtain ⟨_, handover⟩ := orderly_run round_trip reaches
  exact survives_of_legal handover.legal

/-- The store starts without a file, and answers a `set`. -/
def acknowledged : List Event :=
  [.actor 0 .start, .writer 0 .open, .writer 0 .create, .writer 0 (.recv [123, 125]), .actor 0 .takeMap,
    .writer 0 .setLen, .writer 0 .seek, .writer 0 (.write 2), .writer 0 .flush, .call (.set "a" [1] 0),
    .send (.set "a" [1] 0), .route, .forward, .actor 0 .recv, .actor 0 .log, .actor 0 (.answer (.set "a" [1] 0) .done)]

/-- A `Reset` ends the actor and starts the next one. -/
def resetting : List Event := [.reset .keyValue, .route, .actor 0 .cancel, .wakeUp, .actor 1 .start]

def getting (result : Answer) : List Event :=
  [.actor 1 .takeMap, .call (.get "a" 1), .send (.get "a" 1), .route, .forward, .actor 1 .recv, .actor 1 .log,
    .actor 1 (.answer (.get "a" 1) result)]

/-- The old writer writes the `set` out before the new one loads. -/
theorem writes_survive_drained :
    let drain : List Event := [.writer 0 (.recv [123, 34, 97, 34, 58, 91, 49, 93, 125]), .writer 0 .setLen,
      .writer 0 .seek, .writer 0 (.write 9), .writer 0 .flush]
    let load : List Event := [.writer 1 .open, .writer 1 (.read 9), .writer 1 .parse, .writer 1 .create,
      .writer 1 (.recv [123, 34, 97, 34, 58, 91, 49, 93, 125])]
    Survives (acknowledged ++ resetting ++ drain ++ load ++ getting (.found (some [1]))) := by
  intro drain load
  have runs : ((orderly textsJson none).runFrom { file := none }
      (acknowledged ++ resetting ++ drain ++ load ++ getting (.found (some [1])))).isSome = true := by decide +kernel
  obtain ⟨state, reaches⟩ := Option.isSome_iff_exists.mp runs
  exact writes_survive textsJson_round_trip reaches

/-- The new incarnation loads the file while the `set` is still in the old log. -/
theorem reset_loses_write :
    ¬ ∀ json : Json, (∀ map contents, json.to_string map contents = true → json.from_str contents = some map) →
      ∀ file trace state, ((store json file).restrict fun _ event => event.succeeds = true).Reaches trace state →
        Survives trace := by
  intro always
  let load : List Event := [.writer 1 .open, .writer 1 (.read 2), .writer 1 .parse, .writer 1 .create,
    .writer 1 (.recv [123, 125])]
  have runs : (((store textsJson none).restrict fun _ event => event.succeeds = true).runFrom { file := none }
      (acknowledged ++ resetting ++ load ++ getting (.found none))).isSome = true := by decide +kernel
  obtain ⟨state, reaches⟩ := Option.isSome_iff_exists.mp runs
  have survives := always textsJson textsJson_round_trip none _ state reaches
  have lost := survives (acknowledged.take 15) (.actor 0 (.answer (.set "a" [1] 0) .done))
    (resetting ++ load ++ (getting (.found none)).take 7) (.actor 1 (.answer (.get "a" 1) (.found none))) []
    "a" [1] 0 1 (.found none) rfl rfl (by decide) (by decide) rfl
  cases lost

end RustAsyncAwait.KeyValueStore
