import RustAsyncAwait.EventBusConsumers
import RustAsyncAwait.Proofs.EventBusDelivery
import RustAsyncAwait.Library.Lists
import RustAsyncAwait.Library.Fairness

/-! Every consumer prints what is sent after it has subscribed, up to the first
3.0, and leaves its loop with that. -/

namespace RustAsyncAwait.EventBusConsumers
open Library EventBus

variable {T : Type} {three : T → Bool} {state next : State T} {event : Event T} {trace : List (Event T)}
  {bus after : EventBus.State T} {own : List (EventBus.Event T)} {moved : EventBus.Event T}

def Event.subscribes (consumer : Nat) : Event T → Bool
  | .subscribe other => other == consumer
  | _ => false

def Event.sent? : Event T → Option T
  | .send event => some event
  | _ => none

/-- The events sent since this consumer has subscribed. -/
def sentAfter (consumer : Nat) (trace : List (Event T)) : List T := seenFrom (Event.subscribes consumer) Event.sent? trace

theorem subscribes_iff {consumer : Nat} : event.subscribes consumer = true ↔ event = .subscribe consumer := by
  cases event <;> simp [Event.subscribes]

theorem sentAfter_snoc {consumer : Nat} (subscribed : .subscribe consumer ∈ trace) (event : Event T) :
    sentAfter consumer (trace ++ [event]) = sentAfter consumer trace ++ event.sent?.toList :=
  seenFrom_snoc ⟨_, subscribed, subscribes_iff.mpr rfl⟩ Event.sent? event

theorem sentAfter_new {consumer : Nat} (new : .subscribe consumer ∉ trace) :
    sentAfter consumer (trace ++ [.subscribe consumer]) = [] := by
  refine seenFrom_first (fun event member => ?_) Event.sent? (subscribes_iff.mpr rfl)
  rw [← Bool.not_eq_true, subscribes_iff]
  intro same
  exact new (same ▸ member)

/-- All that one step can do. -/
inductive Step (three : T → Bool) (state : State T) : Event T → State T → Prop
  | subscribes {index : Nat} {printed : List T} {bus : EventBus.State T}
      (here : state.consumers[index]? = some ⟨.starting, printed⟩)
      (moved : EventBus.step state.bus (.subscribe state.bus.count) = some bus) :
      Step three state (.subscribe index) (state.set bus index ⟨.looping state.bus.count, printed⟩)
  | polls {index id : Nat} {printed queue : List T} {bus : EventBus.State T}
      (here : state.consumers[index]? = some ⟨.looping id, printed⟩) (found : state.bus.chamber[id]? = some queue)
      (moved : EventBus.step state.bus (.poll id) = some bus) :
      Step three state (.poll index)
        (state.set bus index (Consumer.receive three ⟨.looping id, printed⟩ id queue.head?))
  | panics {index id : Nat} {printed : List T} {bus : EventBus.State T}
      (here : state.consumers[index]? = some ⟨.looping id, printed⟩) (missing : state.bus.chamber[id]? = none)
      (moved : EventBus.step state.bus (.panic id) = some bus) :
      Step three state (.poll index) (state.set bus index ⟨.panicking id, printed⟩)
  | drops {index id : Nat} {place : Place} {printed : List T} {bus : EventBus.State T}
      (here : state.consumers[index]? = some ⟨place, printed⟩) (left : place = .breaking id ∨ place = .panicking id)
      (moved : EventBus.step state.bus (.drop id) = some bus) :
      Step three state (.drop index) (state.set bus index ⟨.ended id, printed⟩)
  | sends {event : T} {bus : EventBus.State T} (moved : EventBus.step state.bus (.send event) = some bus) :
      Step three state (.send event) { state with bus }
  | collects {event : EventBus.Event T} {bus : EventBus.State T} (round : collects event = true)
      (moved : EventBus.step state.bus event = some bus) : Step three state (.collect event) { state with bus }

theorem consumer_cases (stepped : step three state event = some next) : Step three state event next := by
  cases event with
  | subscribe index =>
    simp only [step] at stepped
    split at stepped
    · rename_i here
      obtain ⟨bus, moved, rfl⟩ := Option.map_eq_some_iff.mp stepped
      exact .subscribes here moved
    · cases stepped
  | poll index =>
    simp only [step] at stepped
    split at stepped
    · rename_i id printed here
      split at stepped
      · rename_i queue found
        obtain ⟨bus, moved, rfl⟩ := Option.map_eq_some_iff.mp stepped
        exact .polls here found moved
      · rename_i missing
        obtain ⟨bus, moved, rfl⟩ := Option.map_eq_some_iff.mp stepped
        exact .panics here missing moved
    · cases stepped
  | drop index =>
    simp only [step] at stepped
    split at stepped
    · rename_i here
      obtain ⟨bus, moved, rfl⟩ := Option.map_eq_some_iff.mp stepped
      exact .drops here (.inl rfl) moved
    · rename_i here
      obtain ⟨bus, moved, rfl⟩ := Option.map_eq_some_iff.mp stepped
      exact .drops here (.inr rfl) moved
    · cases stepped
  | send event =>
    simp only [step] at stepped
    obtain ⟨bus, moved, rfl⟩ := Option.map_eq_some_iff.mp stepped
    exact .sends moved
  | collect event =>
    simp only [step] at stepped
    obtain ⟨round, stepped⟩ := Option.ite_none_right_eq_some.mp stepped
    obtain ⟨bus, moved, rfl⟩ := Option.map_eq_some_iff.mp stepped
    exact .collects round moved

/-- Only its own drop takes a handle away. -/
theorem handle_stays {id : Nat} (stepped : EventBus.step bus moved = some after) (held : id ∈ bus.handles)
    (kept : moved ≠ .drop id) : id ∈ after.handles := by
  cases step_cases stepped with
  | subscribe => exact List.mem_append_left _ held
  | @drop other =>
    refine (List.mem_erase_of_ne ?_).mpr held
    intro same
    exact kept (same ▸ rfl)
  | send | poll | panic | lock | clone | clear | remove | unlock => exact held

/-- Only its own polls return events to a handle. -/
theorem returned_stays {id : Nat} (stepped : EventBus.step bus moved = some after) (other : moved ≠ .poll id) :
    returnedTo id after = returnedTo id bus := by
  cases step_cases stepped with
  | @poll polled queue =>
    have apart : polled ≠ id := fun same => other (same ▸ rfl)
    rw [returnedTo_poll, if_neg apart, List.append_nil]
  | subscribe | send | panic | drop | lock | clone | clear | remove | unlock => rfl

/-- The handle of a consumer. -/
def Place.handle : Place → Option Nat
  | .looping id | .breaking id | .panicking id => some id
  | .starting | .ended _ => none

/-- A consumer stops with the first 3.0. -/
def Stopped (three : T → Bool) (printed : List T) : Prop :=
  ∃ before last, printed = before ++ [last] ∧ three last = true ∧ ∀ event ∈ before, three event = false

/-- What a consumer has read of the events sent to it. -/
inductive Reads (three : T → Bool) (bus : EventBus.State T) (own : List (EventBus.Event T)) (trace : List (Event T))
    (index : Nat) : Consumer T → Prop
  | starting (unsubscribed : .subscribe index ∉ trace) : Reads three bus own trace index ⟨.starting, []⟩
  | looping {id : Nat} {printed : List T} (subscribed : .subscribe index ∈ trace) (held : id ∈ bus.handles)
      (returned : returnedTo id bus = printed) (same : sentSince id own = sentAfter index trace)
      (on : ∀ event ∈ printed, three event = false) : Reads three bus own trace index ⟨.looping id, printed⟩
  | breaking {id : Nat} {printed : List T} (subscribed : .subscribe index ∈ trace) (held : id ∈ bus.handles)
      (stopped : Stopped three printed) (read : printed <+: sentAfter index trace) :
      Reads three bus own trace index ⟨.breaking id, printed⟩
  | ended {id : Nat} {printed : List T} (subscribed : .subscribe index ∈ trace) (stopped : Stopped three printed)
      (read : printed <+: sentAfter index trace) : Reads three bus own trace index ⟨.ended id, printed⟩

/-- A step of somebody else. -/
theorem Reads.other {index : Nat} {consumer : Consumer T} (reads : Reads three bus own trace index consumer)
    (joint : Joint own bus) (stepped : EventBus.step bus moved = some after) (sent : moved.sent? = event.sent?)
    (silent : event ≠ .subscribe index)
    (apart : ∀ id, consumer.place.handle = some id → moved ≠ .poll id ∧ moved ≠ .drop id) :
    Reads three after (own ++ [moved]) (trace ++ [event]) index consumer := by
  have longer (subscribed : .subscribe index ∈ trace) {printed : List T} (read : printed <+: sentAfter index trace) :
      printed <+: sentAfter index (trace ++ [event]) := by
    rw [sentAfter_snoc subscribed]
    exact read.trans (List.prefix_append _ _)
  cases reads with
  | starting unsubscribed =>
    refine .starting fun member => ?_
    rcases List.mem_append.mp member with member | member
    · exact unsubscribed member
    · exact silent (List.mem_singleton.mp member).symm
  | looping subscribed held returned same on =>
    obtain ⟨unpolled, kept⟩ := apart _ rfl
    refine .looping (List.mem_append_left _ subscribed) (handle_stays stepped held kept) ?_ ?_ on
    · rw [returned_stays stepped unpolled, returned]
    · rw [sentSince_snoc (joint.subscribed _ held), sentAfter_snoc subscribed, same, sent]
  | breaking subscribed held stopped read =>
    exact .breaking (List.mem_append_left _ subscribed) (handle_stays stepped held (apart _ rfl).2) stopped
      (longer subscribed read)
  | ended subscribed stopped read => exact .ended (List.mem_append_left _ subscribed) stopped (longer subscribed read)

/-- The consumers over the run of their bus. -/
structure Follows (three : T → Bool) (consumers : Nat) (own : List (EventBus.Event T)) (trace : List (Event T))
    (state : State T) : Prop where
  reaches : (eventBus T).Reaches own state.bus
  subscribed : subscriptions own + state.consumers.countP (fun consumer => consumer.place = .starting) = consumers
  reads : ∀ index consumer, state.consumers[index]? = some consumer → Reads three state.bus own trace index consumer
  apart : ∀ (first second : Nat) (one other : Consumer T) (id : Nat), state.consumers[first]? = some one → state.consumers[second]? = some other →
    one.place.handle = some id → other.place.handle = some id → first = second

namespace Follows
variable {consumers : Nat}

theorem joint (follows : Follows three consumers own trace state) (few : consumers < u32Size) : Joint own state.bus := by
  refine EventBus.joint follows.reaches ?_
  have subscribed := follows.subscribed
  omega

theorem init : Follows three consumers [] [] (consume_event_bus three consumers).init := by
  refine ⟨.nil, ?_, ?_, ?_⟩
  · simp [consume_event_bus, subscriptions, List.countP_replicate]
  · intro index consumer here
    rw [(List.mem_replicate.mp (List.mem_of_getElem? here)).2]
    exact .starting (by simp)
  · intro first second one other id at_first _ held _
    rw [(List.mem_replicate.mp (List.mem_of_getElem? at_first)).2] at held
    cases held

/-- A step with which one consumer moves on. -/
theorem moves (follows : Follows three consumers own trace state) (few : consumers < u32Size)
    (stepped : EventBus.step state.bus moved = some after) (sent : moved.sent? = event.sent?) {index : Nat}
    {old new : Consumer T} (here : state.consumers[index]? = some old)
    (silent : ∀ other, event = .subscribe other → other = index)
    (own_moves : ∀ id, moved = .poll id ∨ moved = .drop id → old.place.handle = some id)
    (handle : ∀ id, new.place.handle = some id → old.place.handle = some id ∨ id ∉ state.bus.handles)
    (counted : subscriptions (own ++ [moved]) + (if new.place = .starting then 1 else 0) =
      subscriptions own + (if old.place = .starting then 1 else 0))
    (reads : Reads three after (own ++ [moved]) (trace ++ [event]) index new) :
    Follows three consumers (own ++ [moved]) (trace ++ [event]) (state.set after index new) := by
  have held {other id : Nat} {consumer : Consumer T} (at_other : state.consumers[other]? = some consumer)
      (handle : consumer.place.handle = some id) : id ∈ state.bus.handles := by
    have reads := follows.reads other consumer at_other
    cases reads with
    | starting | ended => cases handle
    | looping _ held | breaking _ held => cases handle; exact held
  have alone {other id : Nat} {consumer : Consumer T} (at_other : state.consumers[other]? = some consumer)
      (handles : consumer.place.handle = some id) (also : new.place.handle = some id) : index = other := by
    rcases handle id also with own_handle | unheld
    · exact follows.apart index other _ _ id here at_other own_handle handles
    · exact absurd (held at_other handles) unheld
  refine ⟨follows.reaches.snoc stepped, ?_, ?_, ?_⟩
  · have traded := countP_set (fun consumer : Consumer T => consumer.place = .starting) state.consumers index new old here
    have subscribed := follows.subscribed
    simp only [decide_eq_true_eq] at traded
    simp only [State.set]
    omega
  · intro other consumer at_other
    simp only [State.set, getElem?_set_found here] at at_other
    split at at_other
    · rename_i same
      cases at_other
      exact same ▸ reads
    · rename_i different
      refine (follows.reads other consumer at_other).other (follows.joint few) stepped sent ?_ ?_
      · exact fun same => different (silent other same).symm
      · intro id handle
        constructor <;> intro same
        · exact different (follows.apart index other _ _ id here at_other (own_moves id (.inl same)) handle)
        · exact different (follows.apart index other _ _ id here at_other (own_moves id (.inr same)) handle)
  · intro first second one other id at_first at_second handles also
    simp only [State.set, getElem?_set_found here] at at_first at_second
    split at at_first <;> split at at_second
    · omega
    · rename_i same _
      cases at_first
      exact same ▸ alone at_second also handles
    · rename_i _ same
      cases at_second
      exact same ▸ (alone at_first handles also).symm
    · exact follows.apart first second one other id at_first at_second handles also

/-- A step of the bus alone. -/
theorem idles (follows : Follows three consumers own trace state) (few : consumers < u32Size)
    (stepped : EventBus.step state.bus moved = some after) (sent : moved.sent? = event.sent?)
    (silent : ∀ index, event ≠ .subscribe index) (counted : subscriptions (own ++ [moved]) = subscriptions own)
    (apart : ∀ id, moved ≠ .poll id ∧ moved ≠ .drop id) :
    Follows three consumers (own ++ [moved]) (trace ++ [event]) { state with bus := after } := by
  refine ⟨follows.reaches.snoc stepped, by rw [counted]; exact follows.subscribed, ?_, follows.apart⟩
  intro index consumer here
  exact (follows.reads index consumer here).other (follows.joint few) stepped sent (silent index) fun id _ => apart id

/-- The handle of a consumer that reads has its queue, with what it has not read yet. -/
theorem queue (follows : Follows three consumers own trace state) (few : consumers < u32Size) {index id : Nat} {printed : List T}
    (here : state.consumers[index]? = some ⟨.looping id, printed⟩) :
    ∃ queue, state.bus.chamber[id]? = some queue ∧ printed ++ queue = sentAfter index trace := by
  cases follows.reads index _ here with
  | looping subscribed held returned same on =>
    obtain ⟨queue, found, owed⟩ := (follows.joint few).queue id held
    exact ⟨queue, found, by rw [← returned, owed, same]⟩

theorem step (follows : Follows three consumers own trace state) (few : consumers < u32Size)
    (stepped : Step three state event next) :
    ∃ moved, Follows three consumers (own ++ [moved]) (trace ++ [event]) next := by
  have joint := follows.joint few
  have unsubscribed {moved : EventBus.Event T} (silent : ∀ id, moved ≠ .subscribe id) :
      subscriptions (own ++ [moved]) = subscriptions own := by
    cases moved with
    | subscribe id => exact absurd rfl (silent id)
    | send | poll | panic | drop | lock | clone | clear | remove | unlock => simp [subscriptions]
  cases stepped with
  | @subscribes index printed bus here moved =>
    have new : .subscribe state.bus.count ∉ own := fun member => Nat.lt_irrefl _ (joint.known _ member)
    have unheld : state.bus.count ∉ state.bus.handles := fun held => new (joint.subscribed _ held)
    cases follows.reads index _ here with
    | starting unsubscribed =>
      refine ⟨_, follows.moves few moved rfl here (by simp) (by simp) ?_ (by simp [subscriptions]) ?_⟩
      · intro id handle
        cases handle
        exact .inr unheld
      · refine .looping (List.mem_append_right _ (List.mem_singleton_self _)) ?_ ?_ ?_ (by simp)
        · cases step_cases moved
          exact List.mem_append_right _ (List.mem_singleton_self _)
        · rw [returned_stays moved (by simp), joint.unreturned]
        · rw [sentSince_new new, sentAfter_new unsubscribed]
  | @polls index id printed queue bus here found moved =>
    obtain ⟨stored, present, owed⟩ := follows.queue few here
    cases found.symm.trans present
    cases follows.reads index _ here with
    | looping subscribed held returned same on =>
      have polled : returnedTo id bus = printed ++ queue.head?.toList := by
        cases step_cases moved with
        | poll _ _ also =>
          cases also.symm.trans found
          rw [returnedTo_poll, if_pos rfl, returned]
      have still_held := handle_stays moved held (by simp)
      have same : sentSince id (own ++ [.poll id]) = sentAfter index (trace ++ [.poll index]) := by
        rw [sentSince_snoc (joint.subscribed id held), sentAfter_snoc subscribed, same]
        rfl
      have still_subscribed : .subscribe index ∈ trace ++ [.poll index] := List.mem_append_left _ subscribed
      refine ⟨_, follows.moves few moved rfl here (by simp) ?_ ?_ ?_ ?_⟩
      · intro other either
        rcases either with same | same
        · cases same
          rfl
        · cases same
      · intro other handle
        left
        cases queue with
        | nil => exact handle
        | cons event rest =>
          simp only [List.head?_cons, Consumer.receive] at handle
          split at handle <;> exact handle
      · cases queue with
        | nil => simp [Consumer.receive, subscriptions]
        | cons event rest =>
          simp only [List.head?_cons, Consumer.receive]
          split <;> simp [subscriptions]
      · cases queue with
        | nil => exact .looping still_subscribed still_held (by simpa using polled) same on
        | cons event rest =>
          simp only [List.head?_cons, Option.toList_some] at polled
          simp only [List.head?_cons, Consumer.receive]
          split
          · rename_i last
            refine .breaking still_subscribed still_held ⟨printed, event, rfl, last, on⟩ ?_
            rw [sentAfter_snoc subscribed, ← owed]
            exact ⟨rest, by simp [Event.sent?]⟩
          · rename_i more
            refine .looping still_subscribed still_held polled same ?_
            intro other member
            rcases List.mem_append.mp member with member | member
            · exact on other member
            · rw [List.mem_singleton.mp member]
              exact Bool.eq_false_iff.mpr more
  | @panics index id printed bus here missing moved =>
    obtain ⟨queue, found, _⟩ := follows.queue few here
    cases missing.symm.trans found
  | @drops index id place printed bus here left moved =>
    refine ⟨_, follows.moves few moved rfl here (by simp) ?_ (by simp [Place.handle]) ?_ ?_⟩
    · intro other either
      rcases either with same | same
      · cases same
      · cases same
        rcases left with rfl | rfl <;> rfl
    · rcases left with rfl | rfl <;> simp [subscriptions]
    · have reads := follows.reads index _ here
      rcases left with rfl | rfl
      · cases reads with
        | breaking subscribed held stopped read =>
          refine .ended (List.mem_append_left _ subscribed) stopped ?_
          rw [sentAfter_snoc subscribed]
          exact read.trans (List.prefix_append _ _)
      · cases reads
  | sends moved => exact ⟨_, follows.idles few moved rfl (by simp) (unsubscribed (by simp)) (by simp)⟩
  | @collects round bus collected moved =>
    refine ⟨_, follows.idles few moved ?_ (by simp) (unsubscribed ?_) ?_⟩ <;>
      cases round <;> simp_all [collects, EventBus.Event.sent?, Event.sent?]

end Follows

section Runs
variable {consumers : Nat}

theorem follows_run (few : consumers < u32Size) (reaches : (consume_event_bus three consumers).Reaches trace state) :
    ∃ own, Follows three consumers own trace state := by
  refine reaches.trace_invariant (fun trace state => ∃ own, Follows three consumers own trace state) ⟨[], .init⟩ ?_
  intro trace state event next _ earlier stepped
  obtain ⟨own, follows⟩ := earlier
  obtain ⟨moved, follows⟩ := follows.step few (consumer_cases stepped)
  exact ⟨_, follows⟩

/-- What a consumer has printed, of the events sent since it subscribed. -/
def Prints (three : T → Bool) (trace : List (Event T)) (state : State T) (index : Nat) : Consumer T → Prop
  | ⟨.starting, printed⟩ => .subscribe index ∉ trace ∧ printed = []
  | ⟨.looping id, printed⟩ => ∃ queue, state.bus.chamber[id]? = some queue ∧
      printed ++ queue = sentAfter index trace ∧ ∀ event ∈ printed, three event = false
  | ⟨.breaking _, printed⟩ | ⟨.ended _, printed⟩ =>
      (∃ event ∈ sentAfter index trace, three event = true) ∧ printed = through three (sentAfter index trace)
  | ⟨.panicking _, _⟩ => False

theorem Stopped.through {printed events : List T} (stopped : Stopped three printed) (read : printed <+: events) :
    (∃ event ∈ events, three event = true) ∧ printed = through three events := by
  obtain ⟨before, last, rfl, stop, on⟩ := stopped
  obtain ⟨rest, rfl⟩ := read
  refine ⟨⟨last, by simp, stop⟩, ?_⟩
  rw [List.append_assoc, List.singleton_append, through_append on stop]

/-- Whatever the consumers, the collector and the sender do to each other, a
consumer prints every event sent after it subscribed, once and in order, as far
as the first 3.0; and it is out of its loop, without a panic, only with that. -/
theorem consumers_print (few : consumers < u32Size) (reaches : (consume_event_bus three consumers).Reaches trace state)
    {index : Nat} {consumer : Consumer T} (here : state.consumers[index]? = some consumer) :
    Prints three trace state index consumer := by
  obtain ⟨own, follows⟩ := follows_run few reaches
  cases follows.reads index consumer here with
  | starting unsubscribed => exact ⟨unsubscribed, rfl⟩
  | looping subscribed held returned same on =>
    obtain ⟨queue, found, owed⟩ := follows.queue few here
    exact ⟨queue, found, owed, on⟩
  | breaking _ _ stopped read | ended _ stopped read => exact stopped.through read

/-- The second consumer subscribes after the first send, and has still a 3 to read. -/
theorem consumers_print_late :
    let trace : List (Event Nat) := [.subscribe 0, .send 1, .subscribe 1, .send 2, .poll 1, .send 3, .poll 0, .poll 0,
      .collect .lock, .collect .clone, .collect .clear, .collect .unlock, .poll 0, .drop 0]
    ∃ state, (consume_event_bus (· == 3) 2).Reaches trace state ∧ Prints (· == 3) trace state 0 ⟨.ended 0, [1, 2, 3]⟩ ∧
      Prints (· == 3) trace state 1 ⟨.looping 1, [2]⟩ := by
  intro trace
  have runs : ((consume_event_bus (· == 3) 2).runFrom (consume_event_bus (· == 3) 2).init trace).map
      (fun state => state.consumers.map fun consumer => (consumer.place, consumer.printed)) =
        some [(.ended 0, [1, 2, 3]), (.looping 1, [2])] := by decide
  obtain ⟨⟨bus, consumers⟩, reaches, same⟩ := Option.map_eq_some_iff.mp runs
  match consumers, same with
  | [⟨_, _⟩, ⟨_, _⟩], rfl =>
    exact ⟨_, reaches, consumers_print (by decide) reaches rfl, consumers_print (by decide) reaches rfl⟩

/-- The consumer is in its loop. -/
def Loops (index : Nat) (state : State T) : Prop := ∃ id printed, state.consumers[index]? = some ⟨.looping id, printed⟩

/-- The consumer is out of its loop. -/
def Left (index : Nat) (state : State T) : Prop :=
  ∃ id printed, state.consumers[index]? = some ⟨.breaking id, printed⟩ ∨ state.consumers[index]? = some ⟨.ended id, printed⟩

/-- The poll of this consumer gets the chamber lock again and again while it is in its loop. -/
def Fair (three : T → Bool) (consumers index : Nat) (schedule : Nat → Event T) : Prop :=
  let states := (consume_event_bus three consumers).traced.states schedule
  ∀ start, (∀ later, start ≤ later → Loops index (states later).2) → ∃ later, start ≤ later ∧
    schedule later = .poll index ∧ ∃ next, step three (states later).2 (schedule later) = some next

/-- A step of somebody else, or what the poll has returned. -/
theorem loop_cases {index id : Nat} {printed : List T} (here : state.consumers[index]? = some ⟨.looping id, printed⟩)
    (stepped : Step three state event next) :
    (next.consumers[index]? = some ⟨.looping id, printed⟩ ∧ event ≠ .poll index) ∨
      (∃ queue, event = .poll index ∧ state.bus.chamber[id]? = some queue ∧
        next.consumers[index]? = some (Consumer.receive three ⟨.looping id, printed⟩ id queue.head?)) ∨
      next.consumers[index]? = some ⟨.panicking id, printed⟩ := by
  have apart {other : Nat} {old new : Consumer T} {bus : EventBus.State T} (there : state.consumers[other]? = some old)
      (different : other ≠ index) : (state.set bus other new).consumers[index]? = some ⟨.looping id, printed⟩ :=
    (List.getElem?_set_ne different).trans here
  cases stepped with
  | @subscribes other _ _ there =>
    refine .inl ⟨apart there ?_, by simp⟩
    intro same
    cases (same ▸ there).symm.trans here
  | @polls other polled _ queue _ there found =>
    by_cases same : other = index
    · subst same
      cases there.symm.trans here
      exact .inr (.inl ⟨queue, rfl, found, by simp only [State.set]; rw [getElem?_set_found here, if_pos rfl]⟩)
    · exact .inl ⟨apart there same, by simp [same]⟩
  | @panics other _ _ _ there =>
    by_cases same : other = index
    · subst same
      cases there.symm.trans here
      exact .inr (.inr (by simp only [State.set]; rw [getElem?_set_found here, if_pos rfl]))
    · exact .inl ⟨apart there same, by simp [same]⟩
  | @drops other _ place _ _ there left =>
    refine .inl ⟨apart there ?_, by simp⟩
    intro same
    cases (same ▸ there).symm.trans here
    rcases left with left | left <;> cases left
  | sends | collects => exact .inl ⟨here, by simp⟩

/-- A consumer that has left its loop can only drop its handle. -/
theorem Left.step {index : Nat} (left : Left index state) (stepped : Step three state event next) : Left index next := by
  obtain ⟨id, printed, here⟩ := left
  have apart {other : Nat} {new : Consumer T} {bus : EventBus.State T} (different : other ≠ index) :
      Left index (state.set bus other new) :=
    ⟨id, printed, here.imp (List.getElem?_set_ne different).trans (List.getElem?_set_ne different).trans⟩
  have busy {other : Nat} {old : Consumer T} (there : state.consumers[other]? = some old)
      (in_ : ∀ id, old.place ≠ .breaking id ∧ old.place ≠ .ended id) : other ≠ index := by
    intro same
    rcases here with here | here <;> cases (same ▸ there).symm.trans here
    · exact (in_ id).1 rfl
    · exact (in_ id).2 rfl
  cases stepped with
  | subscribes there => exact apart (busy there (by simp))
  | polls there => exact apart (busy there (by simp))
  | panics there => exact apart (busy there (by simp))
  | @drops other dropped place read bus there left =>
    by_cases same : other = index
    · subst same
      exact ⟨dropped, read, .inr (by simp only [State.set]; rw [getElem?_set_found there, if_pos rfl])⟩
    · exact apart same
  | sends | collects => exact ⟨id, printed, here⟩

/-- A consumer in its loop stays there or leaves it. -/
theorem Follows.loops_or_left {own : List (EventBus.Event T)} (follows : Follows three consumers own trace state)
    (few : consumers < u32Size) {index : Nat} (loops : Loops index state) (stepped : Step three state event next) :
    Loops index next ∨ Left index next := by
  obtain ⟨id, printed, here⟩ := loops
  rcases loop_cases here stepped with ⟨same, _⟩ | ⟨queue, _, _, received⟩ | panicked
  · exact .inl ⟨id, printed, same⟩
  · cases queue with
    | nil => exact .inl ⟨id, printed, received⟩
    | cons event rest =>
      simp only [List.head?_cons, Consumer.receive] at received
      split at received
      · exact .inr ⟨id, _, .inl received⟩
      · exact .inl ⟨id, _, received⟩
  · obtain ⟨moved, also⟩ := follows.step few stepped
    cases also.reads index _ panicked

/-- A consumer that has a 3.0 to read. -/
structure Awaits (three : T → Bool) (consumers index : Nat) (pair : List (Event T) × State T) : Prop where
  follows : ∃ own, Follows three consumers own pair.1 pair.2
  loops : Loops index pair.2
  sent : ∃ event ∈ sentAfter index pair.1, three event = true

/-- How many events it has to read before that. -/
def unread (three : T → Bool) (index : Nat) (pair : List (Event T) × State T) : Nat :=
  (sentAfter index pair.1).findIdx three - ((pair.2.consumers[index]?.map Consumer.printed).getD []).length

/-- A consumer has not got further than the first 3.0. -/
theorem Follows.read_le {own : List (EventBus.Event T)} (follows : Follows three consumers own trace state) (few : consumers < u32Size)
    {index id : Nat} {printed : List T} (here : state.consumers[index]? = some ⟨.looping id, printed⟩) :
    printed.length ≤ (sentAfter index trace).findIdx three := by
  obtain ⟨queue, _, owed⟩ := follows.queue few here
  cases follows.reads index _ here with
  | looping _ _ _ _ on =>
    rw [← owed, List.findIdx_append, List.findIdx_eq_length.mpr on]
    simp

/-- More events behind the first 3.0 do not matter. -/
theorem findIdx_sent {index : Nat} (subscribed : .subscribe index ∈ trace)
    (sent : ∃ event ∈ sentAfter index trace, three event = true) (event : Event T) :
    (sentAfter index (trace ++ [event])).findIdx three = (sentAfter index trace).findIdx three := by
  rw [sentAfter_snoc subscribed, List.findIdx_append, if_pos (List.findIdx_lt_length.mpr sent)]

theorem Awaits.step (few : consumers < u32Size) {index : Nat} {pair later : List (Event T) × State T} {event : Event T}
    (awaits : Awaits three consumers index pair) (stepped : (consume_event_bus three consumers).traced.step pair event = some later) :
    Left index later.2 ∨ Awaits three consumers index later ∧ unread three index later ≤ unread three index pair ∧
      (event = .poll index → unread three index later < unread three index pair) := by
  obtain ⟨trace, state⟩ := pair
  obtain ⟨longer, next⟩ := later
  obtain ⟨rfl, stepped_⟩ := Machine.traced_step.mp stepped
  have cases_ := consumer_cases stepped_
  obtain ⟨⟨own, follows⟩, ⟨id, printed, here⟩, sent⟩ := awaits
  obtain ⟨moved, also⟩ := follows.step few cases_
  have subscribed : .subscribe index ∈ trace := by
    cases follows.reads index _ here with
    | looping subscribed => exact subscribed
  have still_sent : ∃ event_ ∈ sentAfter index (trace ++ [event]), three event_ = true := by
    obtain ⟨three_, member, stop⟩ := sent
    exact ⟨three_, by rw [sentAfter_snoc subscribed]; exact List.mem_append_left _ member, stop⟩
  have far := findIdx_sent subscribed sent event
  have now : unread three index (trace, state) = (sentAfter index trace).findIdx three - printed.length := by
    simp [unread, here]
  rcases loop_cases here cases_ with ⟨same, other⟩ | ⟨queue, rfl, found, received⟩ | panicked
  · refine .inr ⟨⟨⟨_, also⟩, ⟨id, printed, same⟩, still_sent⟩, Nat.le_of_eq ?_, fun own => absurd own other⟩
    simp [unread, same, here, far]
  · obtain ⟨stored, present, owed⟩ := follows.queue few here
    cases found.symm.trans present
    cases queue with
    | nil =>
      -- the 3.0 is not among what has been printed
      obtain ⟨event, member, stop⟩ := sent
      rw [← owed, List.append_nil] at member
      cases follows.reads index _ here with
      | looping _ _ _ _ on => exact absurd stop (by simp [on event member])
    | cons event rest =>
      simp only [List.head?_cons, Consumer.receive] at received
      split at received
      · exact .inl ⟨id, _, .inl received⟩
      · have read := also.read_le few received
        have then_ : unread three index (trace ++ [.poll index], next) =
            (sentAfter index trace).findIdx three - (printed.length + 1) := by
          simp [unread, received, far]
        rw [far, List.length_append, List.length_singleton] at read
        refine .inr ⟨⟨⟨_, also⟩, ⟨id, _, received⟩, still_sent⟩, ?_, fun _ => ?_⟩ <;> omega
  · cases also.reads index _ panicked

/-- A consumer leaves its loop just when a 3.0 is sent after it has subscribed.
One that subscribes later polls its empty queue for ever. -/
theorem consumers_leave (few : consumers < u32Size) {schedule : Nat → Event T} {index : Nat}
    (fair : Fair three consumers index schedule) {start : Nat} :
    let states := (consume_event_bus three consumers).traced.states schedule
    Loops index (states start).2 → ((∃ later, start ≤ later ∧ Left index (states later).2) ↔
      ∃ later, start ≤ later ∧ ∃ event ∈ sentAfter index (states later).1, three event = true) := by
  intro states loops
  have reaches (count : Nat) := (consume_event_bus three consumers).states_traced schedule count
  constructor
  · intro left
    obtain ⟨later, after, id, printed, left⟩ := left
    rcases left with here | here
    · exact ⟨later, after, (consumers_print few (reaches later) here).1⟩
    · exact ⟨later, after, (consumers_print few (reaches later) here).1⟩
  · intro sent
    obtain ⟨later, after, sent⟩ := sent
    have stays : Loops index (states later).2 ∨ Left index (states later).2 := by
      refine (Machine.states_keep (fun pair : List (Event T) × State T =>
        (∃ own, Follows three consumers own pair.1 pair.2) ∧ (Loops index pair.2 ∨ Left index pair.2)) ?_
        ⟨follows_run few (reaches start), .inl loops⟩ after).2
      intro pair event later held stepped
      obtain ⟨⟨own, follows⟩, either⟩ := held
      obtain ⟨longer, stepped⟩ := Machine.traced_step.mp stepped
      have cases_ := consumer_cases stepped
      rw [longer]
      obtain ⟨moved, also⟩ := follows.step few cases_
      refine ⟨⟨_, also⟩, ?_⟩
      rcases either with loops | left
      · exact follows.loops_or_left few loops cases_
      · exact .inr (left.step cases_)
    rcases stays with loops | left
    · have leads : (consume_event_bus three consumers).traced.LeadsTo schedule (Awaits three consumers index)
          fun pair => Left index pair.2 := by
        refine .of_rank (unread three index) (fun _ event => event = .poll index) ?_ ?_
        · exact fun pair event next awaits stepped => awaits.step few stepped
        · intro start always
          obtain ⟨later, after, offers, next, stepped⟩ := fair start fun later after => (always later after).loops
          exact ⟨later, after, offers, _, Machine.traced_step.mpr ⟨rfl, stepped⟩⟩
      obtain ⟨last, on, left⟩ := leads later ⟨follows_run few (reaches later), loops, sent⟩
      exact ⟨last, Nat.le_trans after on, left⟩
    · exact ⟨later, after, left⟩

/-- One consumer reads a 1 and a 3. -/
def reads_three (count : Nat) : Event Nat := [.subscribe 0, .send 1, .send 3].getD count (.poll 0)

theorem fair_reads_three : Fair (· == 3) 1 0 reads_three := by
  intro start always
  have loops (count : Nat) (after : 5 ≤ count) : reads_three (count + 1) = reads_three count := by
    simp only [reads_three, List.getD_eq_getElem?_getD]
    rw [List.getElem?_eq_none (Nat.le_succ_of_le (Nat.le_trans (by decide) after)),
      List.getElem?_eq_none (Nat.le_trans (by decide) after)]
  have back : (consume_event_bus (· == 3) 1).traced.states reads_three (5 + 1) =
    (consume_event_bus (· == 3) 1).traced.states reads_three 5 := rfl
  have left : ((consume_event_bus (· == 3) 1).traced.states reads_three 5).2.consumers[0]? = some ⟨.breaking 0, [1, 3]⟩ := rfl
  obtain ⟨id, printed, here⟩ := always (5 + 1 * start) (by omega)
  rw [(Machine.states_periodic loops back (Nat.le_refl 5) start).1, left] at here
  cases here

theorem consumers_leave_three :
    let states := (consume_event_bus (· == 3) 1).traced.states reads_three
    Loops 0 (states 1).2 ∧ ((∃ later, 1 ≤ later ∧ Left 0 (states later).2) ↔
      ∃ later, 1 ≤ later ∧ ∃ event ∈ sentAfter 0 (states later).1, (event == 3) = true) :=
  ⟨⟨0, [], rfl⟩, consumers_leave (by decide) fair_reads_three ⟨0, [], rfl⟩⟩

end Runs

end RustAsyncAwait.EventBusConsumers
