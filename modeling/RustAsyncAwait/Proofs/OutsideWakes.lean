import RustAsyncAwait.MyFuture
import RustAsyncAwait.Library.Fairness

/-! When the future is completed. The trigger task loops until it finds a waker,
and holds the mutex without which no poll can leave one. -/

namespace RustAsyncAwait.MyFuture
open Library

inductive Step (data : List UInt8) (state : State) : Event → State → Prop
  | send (unsent : state.sent = false) : Step data state .send { state with sent := true }
  | stores (open_ : state.outcome = none) (free : state.trigger_task ≠ .loop) (nothing : state.state.data = none) :
      Step data state .poll { state with state.waker := true, scheduled := false }
  | returns {stored : List UInt8} (open_ : state.outcome = none) (free : state.trigger_task ≠ .loop)
      (some_ : state.state.data = some stored) :
      Step data state .poll
        { state with
          state.data := none
          scheduled := false
          outcome := some (match from_utf8 stored with
            | some text => .ready text
            | none => .panicked) }
  | recv (waits : state.trigger_task = .recv) (sent : state.sent = true) :
      Step data state .trigger { state with trigger_task := .lock }
  | lock (waits : state.trigger_task = .lock) :
      Step data state .trigger { state with state.data := some data, trigger_task := .loop }
  | wakes (loops : state.trigger_task = .loop) (waker : state.state.waker = true) :
      Step data state .trigger { state with state.waker := false, scheduled := true, trigger_task := .finished }
  | spins (loops : state.trigger_task = .loop) (none : state.state.waker = false) : Step data state .trigger state

theorem step_cases {data : List UInt8} {state next : State} {event : Event} (stepped : state.step data event = some next) :
    Step data state event next := by
  cases event with
  | send =>
    obtain ⟨unsent, stepped⟩ := Option.ite_none_left_eq_some.mp stepped
    cases stepped
    exact .send (Bool.not_eq_true _ ▸ unsent)
  | poll =>
    obtain ⟨⟨open_, free⟩, stepped⟩ := Option.ite_none_right_eq_some.mp stepped
    cases stepped
    cases stored : state.state.data with
    | none =>
      rw [State.poll, stored]
      exact .stores open_ free stored
    | some bytes =>
      rw [State.poll, stored]
      exact .returns open_ free stored
  | trigger =>
    simp only [State.step, State.trigger] at stepped
    cases place : state.trigger_task with
    | recv =>
      simp only [place] at stepped
      obtain ⟨sent, stepped⟩ := Option.ite_none_right_eq_some.mp stepped
      cases stepped
      exact .recv place sent
    | lock =>
      simp only [place] at stepped
      cases stepped
      exact .lock place
    | loop =>
      cases waker : state.state.waker with
      | true =>
        simp only [place, waker, if_true] at stepped
        cases stepped
        exact .wakes place waker
      | false =>
        simp only [place, waker, Bool.false_eq_true, if_false] at stepped
        cases stepped
        exact .spins place waker
    | finished =>
      simp only [place] at stepped
      cases stepped

variable {data : List UInt8} {schedule : Nat → Event}

/-- Those who wait for ever for their turn get it: `main` with its message, a
task that is scheduled, and the trigger task. -/
structure Fair (data : List UInt8) (schedule : Nat → Event) : Prop where
  send : ∀ start, (∀ later, start ≤ later → ((my_future data).states schedule later).sent = false) →
    ∃ later, start ≤ later ∧ schedule later = .send
  poll : ∀ start, (∀ later, start ≤ later → ((my_future data).states schedule later).scheduled = true) →
    ∃ later, start ≤ later ∧ schedule later = .poll
  trigger : ∀ start, (∀ later, start ≤ later → ((my_future data).states schedule later).trigger_task ≠ .finished) →
    ∃ later, start ≤ later ∧ schedule later = .trigger

/-- The trigger task leaves its loop, and the future is ready with what it has stored. -/
structure Completes (text : String) (schedule : Nat → Event) : Prop where
  finished : ∃ count, ((my_future (as_bytes text)).states schedule count).trigger_task = .finished
  ready : ∃ start, ∀ later, start ≤ later →
    ((my_future (as_bytes text)).states schedule later).outcome = some (.ready text)

/-- The trigger task has not locked the state yet. -/
def State.unlocked (state : State) : Prop := state.trigger_task = .recv ∨ state.trigger_task = .lock

/-- Some poll locks the state before the trigger task does. -/
def PolledFirst (data : List UInt8) (schedule : Nat → Event) : Prop :=
  ∃ count, schedule count = .poll ∧ ((my_future data).states schedule count).unlocked

/-! ## After a poll has left its waker -/

/-- There is a waker, and the trigger task stands here. -/
structure Awaits (place : TriggerTask) (stored : Option (List UInt8)) (state : State) : Prop where
  place : state.trigger_task = place
  stored : state.state.data = stored
  waker : state.state.waker = true
  open_ : state.outcome = none

/-- The task has been woken, and the data waits for its poll. -/
structure Woken (data : List UInt8) (state : State) : Prop where
  finished : state.trigger_task = .finished
  stored : state.state.data = some data
  scheduled : state.scheduled = true
  open_ : state.outcome = none

/-- The future has returned. -/
def Returned (text : String) (state : State) : Prop :=
  state.trigger_task = .finished ∧ state.outcome = some (.ready text)

theorem leads_sent (fair : Fair data schedule) :
    (my_future data).LeadsTo schedule (fun state => Awaits .recv none state ∧ state.sent = false)
      (fun state => Awaits .recv none state ∧ state.sent = true) := by
  refine .of_event .send ?_ ?_ ?_
  · intro state other next holds stepped
    obtain ⟨awaits, unsent⟩ := holds
    cases step_cases stepped with
    | send => exact .inr ⟨⟨awaits.place, awaits.stored, awaits.waker, awaits.open_⟩, rfl⟩
    | stores => exact .inl ⟨⟨awaits.place, awaits.stored, rfl, awaits.open_⟩, unsent⟩
    | returns _ _ some_ => cases awaits.stored.symm.trans some_
    | recv _ sent => cases unsent.symm.trans sent
    | lock waits => cases awaits.place.symm.trans waits
    | wakes loops | spins loops => cases awaits.place.symm.trans loops
  · intro state holds
    obtain ⟨awaits, unsent⟩ := holds
    refine ⟨{ state with sent := true }, by simp [my_future, State.step, unsent], ?_, rfl⟩
    exact ⟨awaits.place, awaits.stored, awaits.waker, awaits.open_⟩
  · intro start always
    exact fair.send start fun later after => (always later after).2

theorem leads_received (fair : Fair data schedule) :
    (my_future data).LeadsTo schedule (fun state => Awaits .recv none state ∧ state.sent = true) (Awaits .lock none) := by
  refine .of_event .trigger ?_ ?_ ?_
  · intro state other next holds stepped
    obtain ⟨awaits, sent⟩ := holds
    cases step_cases stepped with
    | send unsent => cases unsent.symm.trans sent
    | stores => exact .inl ⟨⟨awaits.place, awaits.stored, rfl, awaits.open_⟩, sent⟩
    | returns _ _ some_ => cases awaits.stored.symm.trans some_
    | recv => exact .inr ⟨rfl, awaits.stored, awaits.waker, awaits.open_⟩
    | lock waits => cases awaits.place.symm.trans waits
    | wakes loops | spins loops => cases awaits.place.symm.trans loops
  · intro state holds
    obtain ⟨awaits, sent⟩ := holds
    refine ⟨{ state with trigger_task := .lock }, by simp [my_future, State.step, State.trigger, awaits.place, sent], ?_⟩
    exact ⟨rfl, awaits.stored, awaits.waker, awaits.open_⟩
  · intro start always
    exact fair.trigger start fun later after => by simp [(always later after).1.place]

theorem leads_locked (fair : Fair data schedule) :
    (my_future data).LeadsTo schedule (Awaits .lock none) (Awaits .loop (some data)) := by
  refine .of_event .trigger ?_ ?_ ?_
  · intro state other next awaits stepped
    cases step_cases stepped with
    | send => exact .inl ⟨awaits.place, awaits.stored, awaits.waker, awaits.open_⟩
    | stores => exact .inl ⟨awaits.place, awaits.stored, rfl, awaits.open_⟩
    | returns _ _ some_ => cases awaits.stored.symm.trans some_
    | recv waits => cases awaits.place.symm.trans waits
    | lock => exact .inr ⟨rfl, rfl, awaits.waker, awaits.open_⟩
    | wakes loops | spins loops => cases awaits.place.symm.trans loops
  · intro state awaits
    refine ⟨{ state with state.data := some data, trigger_task := .loop },
      by simp [my_future, State.step, State.trigger, awaits.place], ?_⟩
    exact ⟨rfl, rfl, awaits.waker, awaits.open_⟩
  · intro start always
    exact fair.trigger start fun later after => by simp [(always later after).place]

/-- The first round of the loop finds the waker. -/
theorem leads_woken (fair : Fair data schedule) :
    (my_future data).LeadsTo schedule (Awaits .loop (some data)) (Woken data) := by
  refine .of_event .trigger ?_ ?_ ?_
  · intro state other next awaits stepped
    cases step_cases stepped with
    | send => exact .inl ⟨awaits.place, awaits.stored, awaits.waker, awaits.open_⟩
    | stores _ free | returns _ free => exact absurd awaits.place free
    | recv waits | lock waits => cases awaits.place.symm.trans waits
    | wakes => exact .inr ⟨rfl, awaits.stored, rfl, awaits.open_⟩
    | spins _ none => cases awaits.waker.symm.trans none
  · intro state awaits
    refine ⟨{ state with state.waker := false, scheduled := true, trigger_task := .finished },
      by simp [my_future, State.step, State.trigger, awaits.place, awaits.waker], ?_⟩
    exact ⟨rfl, awaits.stored, rfl, awaits.open_⟩
  · intro start always
    exact fair.trigger start fun later after => by simp [(always later after).place]

theorem leads_returned {text : String} (fair : Fair (as_bytes text) schedule) :
    (my_future (as_bytes text)).LeadsTo schedule (Woken (as_bytes text)) (Returned text) := by
  have decoded : from_utf8 (as_bytes text) = some text := from_utf8_eq_some.mpr rfl
  refine .of_event .poll ?_ ?_ ?_
  · intro state other next woken stepped
    cases step_cases stepped with
    | send => exact .inl ⟨woken.finished, woken.stored, woken.scheduled, woken.open_⟩
    | stores _ _ nothing => cases woken.stored.symm.trans nothing
    | returns _ _ some_ =>
      cases woken.stored.symm.trans some_
      exact .inr ⟨woken.finished, by simp [decoded]⟩
    | recv waits | lock waits => cases woken.finished.symm.trans waits
    | wakes loops | spins loops => cases woken.finished.symm.trans loops
  · intro state woken
    refine ⟨state.poll, by simp [my_future, State.step, woken.open_, woken.finished], ?_⟩
    simp [State.poll, Returned, woken.stored, woken.finished, decoded]
  · intro start always
    exact fair.poll start fun later after => (always later after).scheduled

theorem leads_completed {text : String} (fair : Fair (as_bytes text) schedule) :
    (my_future (as_bytes text)).LeadsTo schedule (fun state => state.unlocked ∧ Awaits state.trigger_task none state)
      (Returned text) := by
  have from_lock := ((leads_locked fair).trans (leads_woken fair)).trans (leads_returned fair)
  have from_received := (leads_received fair).trans from_lock
  have from_recv := ((leads_sent fair).trans from_received).either from_received
  refine Machine.LeadsTo.trans (.now ?_) (from_recv.either from_lock)
  intro state holds
  obtain ⟨unlocked, awaits⟩ := holds
  rcases unlocked with recv | lock
  · rw [recv] at awaits
    cases sent : state.sent with
    | false => exact .inl (.inl ⟨awaits, rfl⟩)
    | true => exact .inl (.inr ⟨awaits, rfl⟩)
  · rw [lock] at awaits
    exact .inr awaits

/-- Until the trigger task locks the state there is no data, and the future has not returned. -/
def Untouched (state : State) : Prop := state.unlocked → state.state.data = none ∧ state.outcome = none

theorem states_untouched (data : List UInt8) (schedule : Nat → Event) (count : Nat) : Untouched ((my_future data).states schedule count) := by
  refine Machine.states_keep Untouched ?_ (fun _ => ⟨rfl, rfl⟩) (Nat.zero_le count)
  intro state event next untouched stepped
  cases step_cases stepped with
  | send => exact untouched
  | stores _ _ nothing => exact fun unlocked => ⟨nothing, (untouched unlocked).2⟩
  | returns _ _ some_ =>
    intro unlocked
    cases (untouched unlocked).1.symm.trans some_
  | recv waits => exact fun _ => untouched (.inl waits)
  | lock | wakes =>
    intro unlocked
    rcases unlocked with recv | lock
    · cases recv
    · cases lock
  | spins loops =>
    intro unlocked
    rcases unlocked with recv | lock
    · cases loops.symm.trans recv
    · cases loops.symm.trans lock

theorem stores_waker {state : State} (untouched : Untouched state) (unlocked : state.unlocked) :
    (my_future data).turn state .poll = { state with state.waker := true, scheduled := false } := by
  obtain ⟨nothing, open_⟩ := untouched unlocked
  have free : state.trigger_task ≠ .loop := by
    rcases unlocked with recv | lock
    · simp [recv]
    · simp [lock]
  apply Machine.turn_some
  simp [my_future, State.step, State.poll, open_, free, nothing]

/-! ## Without such a poll -/

/-- No poll has left a waker, and none can once the trigger task has the mutex. -/
def Stuck (state : State) : Prop := (state.unlocked ∨ state.trigger_task = .loop) ∧ state.state.waker = false

theorem Stuck.step {state next : State} {event : Event} (stuck : Stuck state) (late : event = .poll → ¬ state.unlocked)
    (stepped : Step data state event next) : Stuck next := by
  obtain ⟨place, none⟩ := stuck
  cases stepped with
  | send => exact ⟨place, none⟩
  | stores _ free | returns _ free =>
    rcases place with unlocked | loops
    · exact absurd unlocked (late rfl)
    · exact absurd loops free
  | recv => exact ⟨.inl (.inr rfl), none⟩
  | lock => exact ⟨.inr rfl, none⟩
  | wakes _ waker => cases none.symm.trans waker
  | spins => exact ⟨place, none⟩

theorem states_stuck (late : ¬ PolledFirst data schedule) (count : Nat) : Stuck ((my_future data).states schedule count) := by
  induction count with
  | zero => exact ⟨.inl (.inl rfl), rfl⟩
  | succ count ih =>
    rw [Machine.states]
    rcases Machine.turn_cases (my_future data) ((my_future data).states schedule count) (schedule count) with same | stepped
    · rw [same]
      exact ih
    · exact ih.step (fun polls unlocked => late ⟨count, polls, unlocked⟩) (step_cases stepped)

theorem Stuck.unfinished {state : State} (stuck : Stuck state) : state.trigger_task ≠ .finished := by
  intro finished
  rcases stuck.1 with (recv | lock) | loops
  · cases finished.symm.trans recv
  · cases finished.symm.trans lock
  · cases finished.symm.trans loops

/-- A future that has returned is not polled again. -/
theorem outcome_stays {outcome : Outcome} {start later : Nat}
    (returned : ((my_future data).states schedule start).outcome = some outcome) (after : start ≤ later) :
    ((my_future data).states schedule later).outcome = some outcome := by
  refine Machine.states_keep (fun state : State => state.outcome = some outcome) ?_ returned after
  intro state event next returned stepped
  cases step_cases stepped with
  | stores open_ | returns open_ => cases open_.symm.trans returned
  | send | recv | lock | wakes | spins => exact returned

/-- The future is completed if and only if one of its polls locks the state
before the trigger task does. -/
theorem completes_iff (text : String) (schedule : Nat → Event) (fair : Fair (as_bytes text) schedule) :
    Completes text schedule ↔ PolledFirst (as_bytes text) schedule := by
  constructor
  · intro completes
    by_contra late
    obtain ⟨count, finished⟩ := completes.finished
    exact (states_stuck late count).unfinished finished
  · intro first
    obtain ⟨count, polls, unlocked⟩ := first
    have untouched := states_untouched (as_bytes text) schedule count
    obtain ⟨nothing, open_⟩ := untouched unlocked
    have left : ((my_future (as_bytes text)).states schedule (count + 1)).unlocked ∧
        Awaits ((my_future (as_bytes text)).states schedule (count + 1)).trigger_task none
          ((my_future (as_bytes text)).states schedule (count + 1)) := by
      rw [Machine.states, polls, stores_waker untouched unlocked]
      exact ⟨unlocked, rfl, nothing, rfl, open_⟩
    obtain ⟨start, _, finished, ready⟩ := leads_completed fair (count + 1) left
    exact ⟨⟨start, finished⟩, start, fun later after => outcome_stays ready after⟩

/-- These events, and then the two tasks in turn. -/
def and_then (first : List Event) (count : Nat) : Event := first.getD count (if count % 2 = 0 then .trigger else .poll)

theorem and_then_later (first : List Event) {count : Nat} (later : first.length ≤ count) :
    and_then first count = if count % 2 = 0 then .trigger else .poll := by
  rw [and_then, List.getD_eq_getElem?_getD, List.getElem?_eq_none later, Option.getD_none]

theorem fair_and_then {first : List Event}
    (sent : ((my_future data).states (and_then first) first.length).sent = true) : Fair data (and_then first) := by
  refine ⟨?_, ?_, ?_⟩
  · intro start always
    have still : ((my_future data).states (and_then first) (max start first.length)).sent = true := by
      refine Machine.states_keep (fun state : State => state.sent = true) ?_ sent (Nat.le_max_right ..)
      intro state event next sent stepped
      cases step_cases stepped with
      | send => rfl
      | stores | returns | recv | lock | wakes | spins => exact sent
    cases still.symm.trans (always _ (Nat.le_max_left ..))
  · intro start _
    refine ⟨2 * (start + first.length) + 1, by omega, ?_⟩
    rw [and_then_later first (by omega), if_neg (by omega)]
  · intro start _
    refine ⟨2 * (start + first.length), by omega, ?_⟩
    rw [and_then_later first (by omega), if_pos (by omega)]

/-- The demo: the future is polled long before the message is sent. -/
theorem completes_iff_demo : Completes "Hello from the outside" (and_then [.poll, .send]) :=
  (completes_iff "Hello from the outside" (and_then [.poll, .send]) (fair_and_then rfl)).mpr ⟨0, rfl, .inl rfl⟩

/-- The trigger task holds the mutex and finds no waker. -/
structure Spinning (state : State) : Prop where
  loops : state.trigger_task = .loop
  no_waker : state.state.waker = false
  open_ : state.outcome = none

theorem spins_forever {start later : Nat} (spinning : Spinning ((my_future data).states schedule start)) (after : start ≤ later) :
    Spinning ((my_future data).states schedule later) := by
  refine Machine.states_keep Spinning ?_ spinning after
  intro state event next spinning stepped
  obtain ⟨loops, no_waker, open_⟩ := spinning
  cases step_cases stepped with
  | send => exact ⟨loops, no_waker, open_⟩
  | stores _ free | returns _ free => exact absurd loops free
  | recv waits | lock waits => cases loops.symm.trans waits
  | wakes _ waker => cases no_waker.symm.trans waker
  | spins => exact ⟨loops, no_waker, open_⟩

/-- The trigger task runs before the first poll. -/
theorem not_completes : ¬ ∀ text schedule, Fair (as_bytes text) schedule → Completes text schedule := by
  intro always
  have completes := always "Hello from the outside" (and_then [.send, .trigger, .trigger]) (fair_and_then rfl)
  obtain ⟨start, ready⟩ := completes.ready
  have spinning : Spinning ((my_future (as_bytes "Hello from the outside")).states (and_then [.send, .trigger, .trigger]) 3) :=
    ⟨rfl, rfl, rfl⟩
  have spins := spins_forever spinning (Nat.le_max_right start 3)
  cases spins.open_.symm.trans (ready _ (Nat.le_max_left start 3))

end RustAsyncAwait.MyFuture
