import RustAsyncAwait.ThermoControl

/-! The bounds of the thermostat. The heater adds its three steps only after a
poll of the display has found the temperature at or below the desired one, so
it cannot pass it by more than three. -/

namespace RustAsyncAwait.ThermoControl
open Library

variable {temp desired_temp : Int16}

inductive Step (state : State) : Event → State → Prop
  | new_display (absent : state.display = none) : Step state .new_display { state with display := some ⟨state.temp⟩ }
  | new_heater {now : Instant} : Step state (.new_heater now) { state with heater := some ⟨now⟩ }
  | new_heat_loss {now : Instant} : Step state (.new_heat_loss now) { state with heat_loss := some ⟨now⟩ }
  | unchanged {future : DisplayFuture} (present : state.display = some future)
      (same : state.temp = future.temp_snapshot) : Step state .poll_display state
  | changed {future : DisplayFuture} (present : state.display = some future)
      (different : state.temp ≠ future.temp_snapshot) :
      Step state .poll_display
        { state with
          heat_on := switch state.temp state.desired_temp state.heat_on
          display := some ⟨state.temp⟩ }
  | cold {now later : Instant} : Step state (.poll_heater now later) { state with heater := some ⟨now⟩ }
  | early {now later : Instant} : Step state (.poll_heater now later) state
  | heats {now later : Instant} (hot : state.heat_on = true) :
      Step state (.poll_heater now later) { state with temp := state.temp + 3, heater := some ⟨later⟩ }
  | loses {now later : Instant} :
      Step state (.poll_heat_loss now later) { state with temp := state.temp - 1, heat_loss := some ⟨later⟩ }
  | keeps {now later : Instant} : Step state (.poll_heat_loss now later) state

theorem step_cases {state next : State} {event : Event} (stepped : state.step event = some next) : Step state event next := by
  cases event with
  | new_display =>
    obtain ⟨absent, stepped⟩ := Option.ite_none_right_eq_some.mp stepped
    cases stepped
    exact .new_display absent
  | new_heater now =>
    obtain ⟨_, stepped⟩ := Option.ite_none_right_eq_some.mp stepped
    cases stepped
    exact .new_heater
  | new_heat_loss now =>
    obtain ⟨_, stepped⟩ := Option.ite_none_right_eq_some.mp stepped
    cases stepped
    exact .new_heat_loss
  | poll_display =>
    obtain ⟨future, present, polled⟩ := Option.map_eq_some_iff.mp stepped
    subst polled
    simp only [State.poll_display]
    split
    · rename_i same
      exact .unchanged present same
    · rename_i different
      exact .changed present different
  | poll_heater now later =>
    obtain ⟨future, _, polled⟩ := Option.map_eq_some_iff.mp stepped
    subst polled
    unfold State.poll_heater
    split
    · exact .cold
    · rename_i hot
      split
      · exact .early
      · exact .heats (by simpa using hot)
  | poll_heat_loss now later =>
    obtain ⟨future, _, polled⟩ := Option.map_eq_some_iff.mp stepped
    subst polled
    unfold State.poll_heat_loss
    split
    · exact .loses
    · exact .keeps

section switch
variable {heat_on : Bool}

theorem switch_below (below : temp < desired_temp) : switch temp desired_temp heat_on = true := by
  cases heat_on <;> simp [switch, below, Int16.not_lt.mpr (Int16.le_of_lt below)]

theorem switch_above (above : desired_temp < temp) : switch temp desired_temp heat_on = false := by
  cases heat_on <;> simp [switch, above, Int16.not_lt.mpr (Int16.le_of_lt above)]

theorem switch_same : switch temp temp heat_on = heat_on := by simp [switch]

end switch

/-- After these events, this one changes `TEMP`. -/
def Changes (temp desired_temp : Int16) (trace : List Event) (event : Event) : Prop :=
  ∃ state next, (thermostat temp desired_temp).Reaches trace state ∧ state.step event = some next ∧ next.temp ≠ state.temp

/-- The display is polled between any two polls that change `TEMP`, and none of
these is a loss of heat at the least `i16`. -/
structure Watched (temp desired_temp : Int16) (trace : List Event) : Prop where
  between : ∀ before first middle second after, trace = before ++ first :: (middle ++ second :: after) →
    Changes temp desired_temp before first → Changes temp desired_temp (before ++ first :: middle) second →
    .poll_display ∈ middle
  floor : ∀ before now later after state, trace = before ++ .poll_heat_loss now later :: after →
    (thermostat temp desired_temp).Reaches before state → state.temp = Int16.minValue →
    ¬ Changes temp desired_temp before (.poll_heat_loss now later)

/-- `TEMP` has changed, and the display has not been polled since then. -/
def Unseen (temp desired_temp : Int16) (trace : List Event) : Prop :=
  ∃ before event middle, trace = before ++ event :: middle ∧ Changes temp desired_temp before event ∧
    .poll_display ∉ middle

theorem Watched.prefix {before after : List Event} (watched : Watched temp desired_temp (before ++ after)) :
    Watched temp desired_temp before where
  between := by
    intro start first middle second rest split
    apply watched.between start first middle second (rest ++ after)
    simp [split]
  floor := by
    intro start now later rest state split
    apply watched.floor start now later (rest ++ after) state
    simp [split]

/-- Only a temperature the display has been polled with is changed. -/
theorem Watched.seen {trace : List Event} {event : Event} (watched : Watched temp desired_temp (trace ++ [event]))
    (changes : Changes temp desired_temp trace event) : ¬ Unseen temp desired_temp trace := by
  intro unseen
  obtain ⟨before, first, middle, rfl, earlier, unpolled⟩ := unseen
  exact unpolled (watched.between before first middle event [] (by simp) earlier changes)

theorem Unseen.snoc {trace : List Event} {event : Event} (unseen : Unseen temp desired_temp trace)
    (other : event ≠ .poll_display) : Unseen temp desired_temp (trace ++ [event]) := by
  obtain ⟨before, first, middle, rfl, changes, unpolled⟩ := unseen
  exact ⟨before, first, middle ++ [event], by simp, changes, by simp [unpolled, Ne.symm other]⟩

theorem Changes.unseen {trace : List Event} {event : Event} (changes : Changes temp desired_temp trace event) :
    Unseen temp desired_temp (trace ++ [event]) :=
  ⟨trace, event, [], rfl, changes, List.not_mem_nil⟩

theorem toInt_add_three {temp : Int16} (room : temp.toInt + 3 ≤ 32767) : (temp + 3).toInt = temp.toInt + 3 := by
  have low := Int16.le_toInt temp
  rw [Int16.toInt_add, show (3 : Int16).toInt = 3 from rfl]
  exact Int.bmod_eq_of_le (by omega) (by omega)

theorem toInt_sub_one {temp : Int16} (room : temp ≠ Int16.minValue) : (temp - 1).toInt = temp.toInt - 1 := by
  have low := Int16.le_toInt temp
  have high := Int16.toInt_lt temp
  have above : temp.toInt ≠ -32768 := fun least => room (Int16.toInt_inj.mp least)
  rw [Int16.toInt_sub, show (1 : Int16).toInt = 1 from rfl]
  exact Int.bmod_eq_of_le (by omega) (by omega)

theorem add_three_ne (temp : Int16) : temp + 3 ≠ temp := by simp

theorem sub_one_ne (temp : Int16) : temp - 1 ≠ temp := by
  intro same
  have next := congrArg (· + 1) same
  simp at next

/-- The heater is on only where the display has been polled, and as long as that
temperature stands it is no higher than the desired one. -/
structure Kept (desired_temp : Int16) (unseen : Prop) (state : State) : Prop where
  desired : state.desired_temp = desired_temp
  limit : state.temp.toInt ≤ desired_temp.toInt + 3
  shown : ¬ unseen → ∀ future, state.display = some future → future.temp_snapshot = state.temp
  heated : state.heat_on = true → ∃ future, state.display = some future ∧
    (future.temp_snapshot = state.temp → state.temp.toInt ≤ desired_temp.toInt)

theorem Kept.step {unseen after : Prop} {state next : State} {event : Event} (room : desired_temp.toInt + 3 ≤ 32767)
    (kept : Kept desired_temp unseen state) (stepped : state.step event = some next)
    (watched : next.temp ≠ state.temp → ¬ unseen ∧ after)
    (floor : next.temp ≠ state.temp → ∀ now later, event = .poll_heat_loss now later → state.temp ≠ Int16.minValue)
    (carried : unseen → event ≠ .poll_display → after) : Kept desired_temp after next := by
  obtain ⟨desired, limit, shown, heated⟩ := kept
  cases step_cases stepped with
  | new_display absent =>
    refine ⟨desired, limit, ?_, ?_⟩
    · intro _ future present
      cases present
      rfl
    · intro hot
      obtain ⟨future, present, _⟩ := heated hot
      rw [absent] at present
      cases present
  | new_heater | new_heat_loss | cold | early | keeps =>
    have same : ¬ after → ¬ unseen := fun gone unseen => gone (carried unseen (by simp))
    exact ⟨desired, limit, fun gone => shown (same gone), heated⟩
  | unchanged present same =>
    refine ⟨desired, limit, ?_, heated⟩
    intro _ future held
    cases held.symm.trans present
    exact same.symm
  | changed present different =>
    refine ⟨desired, limit, ?_, ?_⟩
    · intro _ future held
      cases held
      rfl
    · intro hot
      refine ⟨_, rfl, fun _ => ?_⟩
      apply Int.not_lt.mp
      intro above
      rw [← desired] at above
      rw [switch_above (Int16.lt_iff_toInt_lt.mpr above)] at hot
      cases hot
  | heats hot =>
    obtain ⟨future, present, below⟩ := heated hot
    have moved := add_three_ne state.temp
    obtain ⟨seen, now⟩ := watched moved
    have same := shown seen future present
    have bound := below same
    have risen : (state.temp + 3).toInt = _ := toInt_add_three (by omega)
    refine ⟨desired, by simp only [risen]; omega, fun gone => absurd now gone, ?_⟩
    intro _
    refine ⟨future, present, fun again => absurd (again.symm.trans same) moved⟩
  | @loses now later =>
    have moved := sub_one_ne state.temp
    obtain ⟨seen, present⟩ := watched moved
    have fallen := toInt_sub_one (floor moved now later rfl)
    refine ⟨desired, by simp only [fallen]; omega, fun gone => absurd present gone, ?_⟩
    intro hot
    obtain ⟨future, held, _⟩ := heated hot
    exact ⟨future, held, fun again => absurd (again.symm.trans (shown seen future held)) moved⟩

theorem reaches_kept {trace : List Event} {state : State} (room : desired_temp.toInt + 3 ≤ 32767)
    (low : temp.toInt ≤ desired_temp.toInt + 3) (reaches : (thermostat temp desired_temp).Reaches trace state)
    (watched : Watched temp desired_temp trace) : Kept desired_temp (Unseen temp desired_temp trace) state := by
  revert watched
  apply reaches.trace_invariant (fun trace state => Watched temp desired_temp trace →
    Kept desired_temp (Unseen temp desired_temp trace) state)
  · intro _
    refine ⟨rfl, low, ?_, ?_⟩
    · intro _ future present
      cases present
    · intro hot
      cases hot
  · intro trace state event next reaches kept stepped watched
    have changes (moved : next.temp ≠ state.temp) : Changes temp desired_temp trace event :=
      ⟨state, next, reaches, stepped, moved⟩
    apply (kept watched.prefix).step room stepped
    · intro moved
      exact ⟨watched.seen (changes moved), (changes moved).unseen⟩
    · intro moved now later same least
      subst same
      exact watched.floor trace now later [] state rfl reaches least (changes moved)
    · intro unseen other
      exact unseen.snoc other

/-- With the display polled between any two changes, the temperature stays at
most three above the desired one and never wraps, and a poll that sees a new
temperature sets the heater by it. -/
theorem stays_bounded {trace : List Event} {state : State} (room : desired_temp.toInt + 3 ≤ 32767)
    (low : temp.toInt ≤ desired_temp.toInt + 3) (reaches : (thermostat temp desired_temp).Reaches trace state)
    (watched : Watched temp desired_temp trace) :
    state.temp.toInt ≤ desired_temp.toInt + 3 ∧
    (∀ now later next, state.step (.poll_heater now later) = some next →
      Watched temp desired_temp (trace ++ [.poll_heater now later]) → next.temp ≠ state.temp →
      next.temp.toInt = state.temp.toInt + 3) ∧
    ∀ future next, state.display = some future → future.temp_snapshot ≠ state.temp →
      state.step .poll_display = some next → next.temp = state.temp ∧
        (next.temp < desired_temp → next.heat_on = true) ∧ (desired_temp < next.temp → next.heat_on = false) ∧
        (next.temp = desired_temp → next.heat_on = state.heat_on) := by
  have kept := reaches_kept room low reaches watched
  refine ⟨kept.limit, ?_, ?_⟩
  · intro now later next stepped watched moved
    cases step_cases stepped with
    | cold | early => exact absurd rfl moved
    | heats hot =>
      obtain ⟨future, present, below⟩ := kept.heated hot
      have seen := watched.seen ⟨state, _, reaches, stepped, moved⟩
      have bound := below (kept.shown seen future present)
      exact toInt_add_three (by omega)
  · intro future next present different stepped
    cases step_cases stepped with
    | unchanged held same =>
      cases held.symm.trans present
      exact absurd same.symm different
    | changed =>
      rw [← kept.desired]
      refine ⟨rfl, switch_below, switch_above, ?_⟩
      intro same
      exact (congrArg (switch · _ _) same).trans switch_same

/-- The event at this index of the trace changes `TEMP`. -/
def changed (temp desired_temp : Int16) (events : List Event) (index : Nat) : Bool :=
  ((thermostat temp desired_temp).runFrom { temp, desired_temp } (events.take index)).any fun state =>
    (events[index]?.bind state.step).any fun next => next.temp ≠ state.temp

theorem Changes.changed {before after : List Event} {event : Event} (changes : Changes temp desired_temp before event) :
    changed temp desired_temp (before ++ event :: after) before.length = true := by
  obtain ⟨state, next, reaches, stepped, moved⟩ := changes
  have runs : (thermostat temp desired_temp).runFrom { temp, desired_temp } before = some state := reaches
  have place : (before ++ event :: after)[before.length]? = some event := by simp
  rw [ThermoControl.changed, List.take_left, runs, Option.any_some, place, Option.bind_some, stepped, Option.any_some]
  exact decide_eq_true moved

/-- A test for one trace. -/
theorem watched_of_changed {trace : List Event}
    (between : ∀ second ∈ List.range trace.length, ∀ first ∈ List.range second, changed temp desired_temp trace first = true →
      changed temp desired_temp trace second = true → .poll_display ∈ (trace.take second).drop (first + 1))
    (floor : ∀ index < trace.length, ((thermostat temp desired_temp).runFrom { temp, desired_temp } (trace.take index)).all
      (fun state => state.temp ≠ Int16.minValue) = true) : Watched temp desired_temp trace where
  between := by
    intro before first middle second after split earlier later
    have longer : trace = (before ++ first :: middle) ++ second :: after := by simp [split]
    have inside : (before ++ first :: middle).length < trace.length := by simp [longer]
    have met := between _ (List.mem_range.mpr inside) before.length (by simp) (by rw [split]; exact earlier.changed)
      (by rw [longer]; exact later.changed)
    rw [longer, List.take_left] at met
    simpa using met
  floor := by
    intro before now later after state split reaches least
    have inside : before.length < trace.length := by simp [split]
    have above := floor before.length inside
    have runs : (thermostat temp desired_temp).runFrom { temp, desired_temp } before = some state := reaches
    rw [split, List.take_left, runs, Option.all_some] at above
    exact absurd least (of_decide_eq_true above)

/-- The heat loss lowers the temperature, the display switches the heater on, and the heater raises it. -/
theorem stays_bounded_heated :
    let trace : List Event := [.new_display, .new_heater 0, .new_heat_loss 0, .poll_heat_loss 4000000000 4000000000,
      .poll_display, .poll_heater 4000000000 4000000000]
    ∃ state, (thermostat 2090 2100).Reaches trace state ∧ state.temp = 2092 ∧ state.temp.toInt ≤ 2103 := by
  intro trace
  obtain ⟨state, reaches, heated⟩ : ∃ state, (thermostat 2090 2100).Reaches trace state ∧ state.temp = 2092 := ⟨_, rfl, rfl⟩
  have watched : Watched 2090 2100 trace := watched_of_changed (by decide +kernel) (by decide +kernel)
  exact ⟨state, reaches, heated, (stays_bounded (by decide) (by decide) reaches watched).1⟩

end RustAsyncAwait.ThermoControl
