import RustAsyncAwait.EventBus
import Mathlib.Data.List.Nodup
import Mathlib.Data.List.TakeWhile
import Mathlib.Tactic.Common

/-! Exactly-once delivery in the order of the sends. It rests on the ids: while
the counter has not wrapped, no live id is dead or in the collector's copy. -/

namespace RustAsyncAwait.EventBus
open Library

variable {T : Type}

/-- All that one step can do, with the guards it passed. -/
inductive Step : State T → Event T → State T → Prop
  | subscribe {state} (free : state.collector = .idle) : Step state (.subscribe state.count) state.subscribe
  | send {state event} (free : state.collector = .idle) : Step state (.send event) (state.send event)
  | poll {state id queue} (free : state.collector = .idle) (live : id ∈ state.handles)
      (found : state.chamber[id]? = some queue) : Step state (.poll id) (state.poll id queue)
  | panic {state id} (free : state.collector = .idle) (live : id ∈ state.handles)
      (missing : state.chamber[id]? = none) : Step state (.panic id) state
  | drop {state id} (live : id ∈ state.handles) :
      Step state (.drop id) ({ state with handles := state.handles.erase id }.unsubscribe id)
  | lock {state} (free : state.collector = .idle) : Step state .lock { state with collector := .locked }
  | clone {state} (locked : state.collector = .locked) :
      Step state .clone { state with collector := .cloned state.dead_ids }
  | clear {state dead_ids} (cloned : state.collector = .cloned dead_ids) :
      Step state .clear { state with dead_ids := [], collector := .removing dead_ids }
  | remove {state id rest} (removing : state.collector = .removing (id :: rest)) :
      Step state (.remove id) { state with chamber := state.chamber.erase id, collector := .removing rest }
  | unlock {state} (removed : state.collector = .removing []) : Step state .unlock { state with collector := .idle }

theorem step_cases {state next : State T} {event : Event T} (stepped : step state event = some next) :
    Step state event next := by
  cases event with
  | subscribe id =>
    simp only [step, Option.ite_none_right_eq_some, Option.some.injEq] at stepped
    obtain ⟨⟨free, rfl⟩, rfl⟩ := stepped
    exact .subscribe free
  | send event =>
    simp only [step, Option.ite_none_right_eq_some, Option.some.injEq] at stepped
    obtain ⟨free, rfl⟩ := stepped
    exact .send free
  | poll id =>
    simp only [step, Option.ite_none_right_eq_some, Option.map_eq_some_iff] at stepped
    obtain ⟨⟨free, live⟩, queue, found, rfl⟩ := stepped
    exact .poll free live found
  | panic id =>
    simp only [step, Option.ite_none_right_eq_some, Option.some.injEq] at stepped
    obtain ⟨⟨free, live, missing⟩, rfl⟩ := stepped
    exact .panic free live missing
  | drop id =>
    simp only [step, Option.ite_none_right_eq_some, Option.some.injEq] at stepped
    obtain ⟨live, rfl⟩ := stepped
    exact .drop live
  | lock =>
    simp only [step, Option.ite_none_right_eq_some, Option.some.injEq] at stepped
    obtain ⟨free, rfl⟩ := stepped
    exact .lock free
  | clone =>
    simp only [step, Option.ite_none_right_eq_some, Option.some.injEq] at stepped
    obtain ⟨locked, rfl⟩ := stepped
    exact .clone locked
  | clear =>
    simp only [step] at stepped
    split at stepped
    next dead_ids cloned => cases stepped; exact .clear cloned
    next => cases stepped
  | remove id =>
    simp only [step] at stepped
    split at stepped
    next dead rest removing =>
      simp only [Option.ite_none_right_eq_some, Option.some.injEq] at stepped
      obtain ⟨rfl, rfl⟩ := stepped
      exact .remove removing
    next => cases stepped
  | unlock =>
    simp only [step, Option.ite_none_right_eq_some, Option.some.injEq] at stepped
    obtain ⟨removed, rfl⟩ := stepped
    exact .unlock removed

def Event.subscribes (id : Nat) : Event T → Bool
  | .subscribe other => other == id
  | _ => false

def Event.sent? : Event T → Option T
  | .send event => some event
  | _ => none

def subscriptions (trace : List (Event T)) : Nat :=
  trace.countP fun event => match event with | .subscribe _ => true | _ => false

/-- The events sent since the id was handed out, in the order in which the sends
took the chamber lock. -/
def sentSince (id : Nat) (trace : List (Event T)) : List T :=
  (trace.dropWhile fun event => !event.subscribes id).filterMap Event.sent?

/-- The events that the polls of one handle have returned. -/
def returnedTo (id : Nat) (state : State T) : List T :=
  state.returned.filterMap fun entry => if entry.1 = id then entry.2 else none

private theorem subscribes_iff {id : Nat} {event : Event T} : event.subscribes id = true ↔ event = .subscribe id := by
  cases event <;> simp [Event.subscribes]

theorem sentSince_snoc {id : Nat} {trace : List (Event T)} (subscribed : .subscribe id ∈ trace) (event : Event T) :
    sentSince id (trace ++ [event]) = sentSince id trace ++ event.sent?.toList := by
  have started : trace.dropWhile (fun event => !event.subscribes id) ≠ [] := by
    intro empty
    have quiet := List.dropWhile_eq_nil_iff.mp empty _ subscribed
    simp [Event.subscribes] at quiet
  simp only [sentSince, List.dropWhile_append, List.isEmpty_iff, started, if_false, List.filterMap_append]
  cases event <;> rfl

theorem sentSince_new {id : Nat} {trace : List (Event T)} (new : .subscribe id ∉ trace) :
    sentSince id (trace ++ [.subscribe id]) = [] := by
  have quiet : ∀ event ∈ trace, (!event.subscribes id) = true := by
    intro event member
    simp only [Bool.not_eq_true', ← Bool.not_eq_true, subscribes_iff]
    intro same
    subst same
    exact new member
  rw [sentSince, List.dropWhile_append_of_pos quiet]
  simp [Event.subscribes, Event.sent?]

/-- The events of two ids are ends of one sequence. -/
theorem sentSince_comparable (first second : Nat) (trace : List (Event T)) :
    sentSince first trace <:+ sentSince second trace ∨ sentSince second trace <:+ sentSince first trace := by
  have one : trace.dropWhile (fun event => !event.subscribes first) <:+ trace := List.dropWhile_suffix _
  have other : trace.dropWhile (fun event => !event.subscribes second) <:+ trace := List.dropWhile_suffix _
  rcases List.suffix_or_suffix_of_suffix one other with shorter | longer
  · exact .inl (shorter.filterMap _)
  · exact .inr (longer.filterMap _)

/-- The joint invariant of the ids handed out, the chamber, the dead ids and the
collector's copy. -/
structure Joint (trace : List (Event T)) (state : State T) : Prop where
  count : state.count = subscriptions trace
  known : ∀ id, .subscribe id ∈ trace → id < state.count
  distinct : state.handles.Nodup
  subscribed : ∀ id ∈ state.handles, .subscribe id ∈ trace
  dead : ∀ id, id ∈ state.dead_ids ∨ id ∈ state.collector.copy → id ∉ state.handles ∧ id < state.count
  polled : ∀ entry ∈ state.returned, entry.1 < state.count
  queue : ∀ id ∈ state.handles, ∃ queue, state.chamber[id]? = some queue ∧
    returnedTo id state ++ queue = sentSince id trace

private theorem Joint.initial : Joint [] ({} : State T) := by
  constructor <;> simp [subscriptions, Collector.copy]

theorem returnedTo_poll (state : State T) (id other : Nat) (queue : List T) :
    returnedTo other (state.poll id queue) =
      returnedTo other state ++ if id = other then queue.head?.toList else [] := by
  simp only [returnedTo, State.poll, List.filterMap_append]
  by_cases same : id = other <;> cases queue <;> simp [same]

/-- Ids that were never handed out have no events. -/
theorem Joint.unreturned {trace : List (Event T)} {state : State T} (joint : Joint trace state) :
    returnedTo state.count state = [] := by
  apply List.filterMap_eq_nil_iff.mpr
  intro entry member
  exact if_neg (Nat.ne_of_lt (joint.polled entry member))

/-- Steps that hand out no id and send nothing keep what every handle is owed. -/
private theorem Joint.frame {trace : List (Event T)} {state next : State T} {event : Event T} (joint : Joint trace state)
    (count : next.count = state.count) (silent : ∀ id, event ≠ .subscribe id) (unsent : event.sent? = none)
    (handles : next.handles.Sublist state.handles)
    (dead : ∀ id, id ∈ next.dead_ids ∨ id ∈ next.collector.copy → id ∉ next.handles ∧ id < state.count)
    (polled : ∀ entry ∈ next.returned, entry.1 < state.count)
    (queue : ∀ id ∈ next.handles, ∀ queue, state.chamber[id]? = some queue →
      ∃ left, next.chamber[id]? = some left ∧ returnedTo id next ++ left = returnedTo id state ++ queue) :
    Joint (trace ++ [event]) next := by
  have counted : subscriptions (trace ++ [event]) = subscriptions trace := by
    cases event with
    | subscribe id => exact absurd rfl (silent id)
    | _ => simp [subscriptions]
  constructor
  · rw [count, counted, joint.count]
  · intro id member
    rw [count]
    apply joint.known id
    simpa [(silent id).symm] using member
  · exact joint.distinct.sublist handles
  · exact fun id live => List.mem_append_left _ (joint.subscribed id (handles.subset live))
  · simpa only [count] using dead
  · simpa only [count] using polled
  · intro id live
    have old := handles.subset live
    obtain ⟨stored, found, owed⟩ := joint.queue id old
    obtain ⟨left, kept, same⟩ := queue id live stored found
    refine ⟨left, kept, ?_⟩
    rw [sentSince_snoc (joint.subscribed id old), unsent, same, owed]
    simp

private theorem Joint.subscribe {trace : List (Event T)} {state : State T} (joint : Joint trace state)
    (fewer : state.count + 1 < u32Size) :
    Joint (trace ++ [.subscribe state.count]) state.subscribe := by
  have count : state.subscribe.count = state.count + 1 := Nat.mod_eq_of_lt fewer
  have new : .subscribe state.count ∉ trace := fun member => Nat.lt_irrefl _ (joint.known _ member)
  have unheld : state.count ∉ state.handles := fun live => new (joint.subscribed _ live)
  constructor
  · simp [count, joint.count, subscriptions]
  · intro id member
    rw [count]
    rcases List.mem_append.mp member with member | member
    · exact Nat.lt_succ_of_lt (joint.known id member)
    · have same : id = state.count := by simpa using member
      omega
  · simpa [State.subscribe] using joint.distinct.concat unheld
  · intro id live
    rcases List.mem_append.mp live with live | live
    · exact List.mem_append_left _ (joint.subscribed id live)
    · rw [List.mem_singleton.mp live]
      exact List.mem_append_right _ (List.mem_singleton_self _)
  · intro id dead
    obtain ⟨gone, older⟩ := joint.dead id dead
    rw [count]
    refine ⟨?_, Nat.lt_succ_of_lt older⟩
    have other : id ≠ state.count := Nat.ne_of_lt older
    simp [State.subscribe, gone, other]
  · intro entry member
    rw [count]
    exact Nat.lt_succ_of_lt (joint.polled entry member)
  · intro id live
    rcases List.mem_append.mp live with live | live
    · have other : state.count ≠ id := fun same => unheld (same ▸ live)
      obtain ⟨queue, found, owed⟩ := joint.queue id live
      refine ⟨queue, by simpa [State.subscribe, other] using found, ?_⟩
      rw [sentSince_snoc (joint.subscribed id live), ← owed]
      exact (List.append_nil _).symm
    · rw [List.mem_singleton.mp live]
      refine ⟨[], by simp [State.subscribe], ?_⟩
      rw [sentSince_new new, List.append_nil]
      exact joint.unreturned

private theorem Joint.send {trace : List (Event T)} {state : State T} (joint : Joint trace state) (event : T) :
    Joint (trace ++ [.send event]) (state.send event) := by
  constructor
  · simpa [subscriptions, State.send] using joint.count
  · simpa [State.send] using joint.known
  · exact joint.distinct
  · exact fun id live => List.mem_append_left _ (joint.subscribed id live)
  · exact joint.dead
  · exact joint.polled
  · intro id live
    obtain ⟨queue, found, owed⟩ := joint.queue id live
    refine ⟨queue ++ [event], by simp [State.send, found], ?_⟩
    rw [sentSince_snoc (joint.subscribed id live), ← owed, ← List.append_assoc]
    rfl

private theorem Joint.step {trace : List (Event T)} {state next : State T} {event : Event T} (joint : Joint trace state)
    (stepped : Step state event next) (fewer : subscriptions (trace ++ [event]) < u32Size) :
    Joint (trace ++ [event]) next := by
  cases stepped with
  | subscribe free =>
    apply joint.subscribe
    simpa [subscriptions, joint.count] using fewer
  | send free => exact joint.send _
  | @poll id queue free live found =>
    refine joint.frame rfl (by simp) rfl (List.Sublist.refl _) joint.dead ?_ ?_
    · intro entry member
      rcases List.mem_append.mp member with member | member
      · exact joint.polled entry member
      · rw [List.mem_singleton.mp member]
        exact joint.known id (joint.subscribed id live)
    · intro other held stored present
      rw [returnedTo_poll]
      by_cases same : id = other
      · subst same
        rw [found] at present
        cases present
        refine ⟨queue.tail, by simp [State.poll], ?_⟩
        cases queue <;> simp
      · exact ⟨stored, by simpa [State.poll, same] using present, by simp [same]⟩
  | panic free live missing =>
    obtain ⟨queue, found, _⟩ := joint.queue _ live
    rw [missing] at found
    cases found
  | @drop id live =>
    refine joint.frame rfl (by simp) rfl List.erase_sublist ?_ joint.polled (fun _ _ queue found => ⟨queue, found, rfl⟩)
    intro other dead
    simp only [State.unsubscribe, List.mem_append, List.mem_singleton] at dead
    by_cases same : other = id
    · subst same
      exact ⟨joint.distinct.not_mem_erase, joint.known _ (joint.subscribed _ live)⟩
    · obtain ⟨gone, older⟩ := joint.dead other (by simpa [same] using dead)
      exact ⟨fun held => gone (List.mem_of_mem_erase held), older⟩
  | lock free =>
    refine joint.frame rfl (by simp) rfl (List.Sublist.refl _) ?_ joint.polled (fun _ _ queue found => ⟨queue, found, rfl⟩)
    simpa [free, Collector.copy] using joint.dead
  | clone locked =>
    refine joint.frame rfl (by simp) rfl (List.Sublist.refl _) ?_ joint.polled (fun _ _ queue found => ⟨queue, found, rfl⟩)
    intro id dead
    exact joint.dead id (.inl (by simpa [Collector.copy] using dead))
  | clear cloned =>
    refine joint.frame rfl (by simp) rfl (List.Sublist.refl _) ?_ joint.polled (fun _ _ queue found => ⟨queue, found, rfl⟩)
    intro id dead
    exact joint.dead id (.inr (by simpa [cloned, Collector.copy] using dead))
  | @remove dead rest removing =>
    refine joint.frame rfl (by simp) rfl (List.Sublist.refl _) ?_ joint.polled ?_
    · intro id doomed
      apply joint.dead id
      rw [removing]
      exact doomed.imp_right (List.mem_cons_of_mem _)
    · intro id live queue found
      have gone := (joint.dead dead (.inr (by simp [removing, Collector.copy]))).1
      have other : dead ≠ id := fun same => gone (same ▸ live)
      exact ⟨queue, by simpa [other] using found, rfl⟩
  | unlock removed =>
    refine joint.frame rfl (by simp) rfl (List.Sublist.refl _) ?_ joint.polled (fun _ _ queue found => ⟨queue, found, rfl⟩)
    intro id dead
    exact joint.dead id (.inl (by simpa [Collector.copy] using dead))

theorem joint {trace : List (Event T)} {state : State T} (reaches : (eventBus T).Reaches trace state)
    (fewer : subscriptions trace < u32Size) : Joint trace state := by
  refine reaches.trace_invariant (fun trace state => subscriptions trace < u32Size → Joint trace state) ?_ ?_ fewer
  · exact fun _ => .initial
  · intro trace state event next _ earlier stepped fewer
    have before : subscriptions trace < u32Size := by
      apply Nat.lt_of_le_of_lt _ fewer
      simp [subscriptions]
    exact (earlier before).step (step_cases stepped) fewer

/-- What the bus owes its handles in a state reached by `trace`. -/
structure Delivered (trace : List (Event T)) (state : State T) : Prop where
  received : ∀ id ∈ state.handles, ∃ queue, state.chamber[id]? = some queue ∧
    returnedTo id state ++ queue = sentSince id trace
  unpanicked : ∀ id, .panic id ∉ trace
  agreed : ∀ first ∈ state.handles, ∀ second ∈ state.handles,
    sentSince first trace <:+ sentSince second trace ∨ sentSince second trace <:+ sentSince first trace

private theorem unpanicked {trace : List (Event T)} {state : State T} (reaches : (eventBus T).Reaches trace state)
    (fewer : subscriptions trace < u32Size) (id : Nat) : .panic id ∉ trace := by
  refine reaches.trace_invariant (fun trace _ => subscriptions trace < u32Size → .panic id ∉ trace) ?_ ?_ fewer
  · simp
  · intro trace state event next reached earlier stepped fewer member
    have before : subscriptions trace < u32Size := by
      apply Nat.lt_of_le_of_lt _ fewer
      simp [subscriptions]
    rcases List.mem_append.mp member with member | member
    · exact earlier before member
    · obtain rfl := List.mem_singleton.mp member
      cases step_cases (show step state (.panic id) = some next from stepped) with
      | panic free live missing =>
        obtain ⟨queue, found, _⟩ := (joint reached before).queue id live
        rw [missing] at found
        cases found

/-- Every live handle gets every event sent since its subscription, once and in
the order of the sends, whatever the other handles and the collector do. -/
theorem events_delivered {trace : List (Event T)} {state : State T} (reaches : (eventBus T).Reaches trace state)
    (fewer : subscriptions trace < u32Size) : Delivered trace state :=
  ⟨(joint reaches fewer).queue, unpanicked reaches fewer, fun first _ second _ => sentSince_comparable first second trace⟩

/-- Two handles take some of their events around a drop and a round of the collector. -/
theorem events_delivered_around_drop :
    let trace : List (Event Nat) := [.subscribe 0, .send 1, .subscribe 1, .send 2, .poll 0, .subscribe 2, .lock, .drop 2,
      .clone, .clear, .remove 2, .unlock, .poll 1, .send 3, .poll 0]
    ∃ state, (eventBus Nat).Reaches trace state ∧ Delivered trace state := by
  intro trace
  have runs : ((eventBus Nat).runFrom (eventBus Nat).init trace).isSome = true := by decide
  obtain ⟨state, reaches⟩ := Option.isSome_iff_exists.mp runs
  exact ⟨state, reaches, events_delivered reaches (by decide)⟩

end RustAsyncAwait.EventBus
