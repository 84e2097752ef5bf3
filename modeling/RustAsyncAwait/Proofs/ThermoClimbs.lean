import RustAsyncAwait.Proofs.ThermoBounds

/-! The thermostat with a clock. A heater that is on and is polled at least every
three seconds heats before the third loss of heat, so that the temperature has a
floor, and it gains with every heating. -/

namespace RustAsyncAwait.ThermoControl
open Library

theorem from_secs_pos : 0 < from_secs 3 := by decide

theorem duration_since_lt {now earlier duration : Nat} (positive : 0 < duration) :
    duration_since now earlier < duration ↔ now < earlier + duration := by
  rw [duration_since]
  omega

theorem lt_duration_since {now earlier duration : Nat} :
    duration < duration_since now earlier ↔ earlier + duration < now := by
  rw [duration_since]
  omega

/-- The thermostat, with the last reading of the clock and the one with which the heater was polled last. -/
structure Timed where
  state : State
  clock : Nat := 0
  polled : Nat := 0
  deriving Repr, DecidableEq

namespace Timed

/-- The readings of the clock do not go back, and none is more than three seconds behind a poll of the heater. -/
def timely (timed : Timed) : Event → Bool
  | .new_display | .poll_display => true
  | .new_heater now | .new_heat_loss now => timed.clock ≤ now ∧ now ≤ timed.polled + from_secs 3
  | .poll_heater now later =>
    timed.clock ≤ now ∧ now ≤ timed.polled + from_secs 3 ∧ now ≤ later ∧ later ≤ now + from_secs 3
  | .poll_heat_loss now later => timed.clock ≤ now ∧ now ≤ later ∧ later ≤ timed.polled + from_secs 3

def advance (timed : Timed) (next : State) : Event → Timed
  | .new_display | .poll_display => { timed with state := next }
  | .new_heater now => { state := next, clock := now, polled := now }
  | .new_heat_loss now => { timed with state := next, clock := now }
  | .poll_heater now later => { state := next, clock := later, polled := now }
  | .poll_heat_loss _ later => { timed with state := next, clock := later }

/-- `TEMP` changes only where the display has been polled with its last value. -/
def step (timed : Timed) (event : Event) : Option Timed := do
  let next ← timed.state.step event
  if timed.timely event ∧ (next.temp = timed.state.temp ∨ timed.state.display = some ⟨timed.state.temp⟩) then
    some (timed.advance next event)
  else none

/-- The display sets the heater by a new temperature. -/
def show_temp (timed : Timed) : Timed :=
  { timed with
    state.heat_on := switch timed.state.temp timed.state.desired_temp timed.state.heat_on
    state.display := some ⟨timed.state.temp⟩ }

/-- The heater adds to `TEMP`. -/
def heat (timed : Timed) (now later : Nat) : Timed where
  state := { timed.state with temp := timed.state.temp + 3, heater := some ⟨later⟩ }
  clock := later
  polled := now

/-- The heat loss takes from it. -/
def lose (timed : Timed) (later : Nat) : Timed :=
  { timed with state.temp := timed.state.temp - 1, state.heat_loss := some ⟨later⟩, clock := later }

/-- What a step does, with the readings of the clock that it takes. -/
inductive Step (timed : Timed) : Event → Timed → Prop
  | new_display (absent : timed.state.display = none) :
      Step timed .new_display { timed with state.display := some ⟨timed.state.temp⟩ }
  | new_heater {now : Nat} (absent : timed.state.heater = none) (clock : timed.clock ≤ now)
      (near : now ≤ timed.polled + from_secs 3) :
      Step timed (.new_heater now) { state := { timed.state with heater := some ⟨now⟩ }, clock := now, polled := now }
  | new_heat_loss {now : Nat} (absent : timed.state.heat_loss = none) (clock : timed.clock ≤ now)
      (near : now ≤ timed.polled + from_secs 3) :
      Step timed (.new_heat_loss now) { timed with state.heat_loss := some ⟨now⟩, clock := now }
  | unchanged (same : timed.state.display = some ⟨timed.state.temp⟩) : Step timed .poll_display timed
  | changed {snapshot : Int16} (present : timed.state.display = some ⟨snapshot⟩) (different : snapshot ≠ timed.state.temp) :
      Step timed .poll_display timed.show_temp
  | cold {now later : Nat} (off : timed.state.heat_on = false) (present : timed.state.heater ≠ none)
      (clock : timed.clock ≤ now) (order : now ≤ later) (near : later ≤ now + from_secs 3) :
      Step timed (.poll_heater now later) { state := { timed.state with heater := some ⟨now⟩ }, clock := later, polled := now }
  | early {now later snapshot : Nat} (hot : timed.state.heat_on = true) (present : timed.state.heater = some ⟨snapshot⟩)
      (soon : now < snapshot + from_secs 3) (clock : timed.clock ≤ now) (order : now ≤ later)
      (near : later ≤ now + from_secs 3) :
      Step timed (.poll_heater now later) { timed with clock := later, polled := now }
  | heats {now later snapshot : Nat} (hot : timed.state.heat_on = true) (present : timed.state.heater = some ⟨snapshot⟩)
      (seen : timed.state.display = some ⟨timed.state.temp⟩) (clock : timed.clock ≤ now) (order : now ≤ later)
      (near : later ≤ now + from_secs 3) :
      Step timed (.poll_heater now later) (timed.heat now later)
  | loses {now later snapshot : Nat} (present : timed.state.heat_loss = some ⟨snapshot⟩)
      (due : snapshot + from_secs 3 < now) (seen : timed.state.display = some ⟨timed.state.temp⟩) (clock : timed.clock ≤ now)
      (order : now ≤ later) (near : later ≤ timed.polled + from_secs 3) :
      Step timed (.poll_heat_loss now later) (timed.lose later)
  | keeps {now later snapshot : Nat} (present : timed.state.heat_loss = some ⟨snapshot⟩)
      (soon : now ≤ snapshot + from_secs 3) (clock : timed.clock ≤ now) (order : now ≤ later)
      (near : later ≤ timed.polled + from_secs 3) :
      Step timed (.poll_heat_loss now later) { timed with clock := later }

theorem step_cases {timed next : Timed} {event : Event} (stepped : timed.step event = some next) : Step timed event next := by
  obtain ⟨state, moved, advanced⟩ := Option.bind_eq_some_iff.mp stepped
  obtain ⟨⟨timely, seen⟩, advanced⟩ := Option.ite_none_right_eq_some.mp advanced
  cases advanced
  cases event with
  | new_display =>
    obtain ⟨absent, moved⟩ := Option.ite_none_right_eq_some.mp moved
    cases moved
    exact .new_display absent
  | new_heater now =>
    obtain ⟨absent, moved⟩ := Option.ite_none_right_eq_some.mp moved
    cases moved
    obtain ⟨clock, near⟩ := of_decide_eq_true timely
    exact .new_heater absent clock near
  | new_heat_loss now =>
    obtain ⟨absent, moved⟩ := Option.ite_none_right_eq_some.mp moved
    cases moved
    obtain ⟨clock, near⟩ := of_decide_eq_true timely
    exact .new_heat_loss absent clock near
  | poll_display =>
    obtain ⟨⟨snapshot⟩, present, polled⟩ := Option.map_eq_some_iff.mp moved
    subst polled
    simp only [State.poll_display]
    split
    · rename_i same
      subst same
      exact .unchanged present
    · rename_i different
      exact .changed present (Ne.symm different)
  | poll_heater now later =>
    obtain ⟨⟨snapshot⟩, present, polled⟩ := Option.map_eq_some_iff.mp moved
    obtain ⟨clock, _, order, near⟩ := of_decide_eq_true timely
    subst polled
    unfold State.poll_heater at seen ⊢
    split
    · rename_i off
      exact .cold off (by simp [present]) clock order near
    · rename_i hot
      rw [if_neg hot] at seen
      split
      · rename_i soon
        have before : now < snapshot + from_secs 3 := (duration_since_lt from_secs_pos).mp soon
        exact .early (by simpa using hot) present before clock order near
      · rename_i due
        rw [if_neg due] at seen
        have seen := seen.resolve_left (add_three_ne timed.state.temp)
        exact .heats (by simpa using hot) present seen clock order near
  | poll_heat_loss now later =>
    obtain ⟨⟨snapshot⟩, present, polled⟩ := Option.map_eq_some_iff.mp moved
    obtain ⟨clock, order, near⟩ := of_decide_eq_true timely
    subst polled
    unfold State.poll_heat_loss at seen ⊢
    split
    · rename_i due
      rw [if_pos due] at seen
      have seen := seen.resolve_left (sub_one_ne timed.state.temp)
      exact .loses present (lt_duration_since.mp due) seen clock order near
    · rename_i soon
      exact .keeps present (Nat.not_lt.mp (lt_duration_since.not.mp soon)) clock order near

/-- The display has been polled with this temperature, or has not been made. -/
def Seen (timed : Timed) : Prop := ∀ future, timed.state.display = some future → future.temp_snapshot = timed.state.temp

/-- Before this reading there is no further loss of heat. -/
def next_loss (timed : Timed) : Nat :=
  match timed.state.heat_loss with
  | some future => max timed.clock (future.time_snapshot + from_secs 3)
  | none => timed.clock

/-- Before this reading a heater that is on has heated. -/
def next_heat (timed : Timed) : Nat :=
  match timed.state.heater with
  | some future => future.time_snapshot + from_secs 3 + from_secs 3
  | none => 0

/-- The heater heats before the losses of heat have used up what the temperature is above `low`. -/
def Climbs (low : Int) (timed : Timed) : Prop :=
  ∃ losses : Nat, losses ≤ 2 ∧ low + losses ≤ timed.state.temp.toInt ∧
    timed.next_heat ≤ timed.next_loss + losses * from_secs 3

structure Clocked (timed : Timed) : Prop where
  polled : timed.polled ≤ timed.clock
  near : timed.clock ≤ timed.polled + from_secs 3
  heater : ∀ future, timed.state.heater = some future →
    future.time_snapshot ≤ timed.clock ∧ timed.polled < future.time_snapshot + from_secs 3
  unmade : timed.state.heater = none → timed.polled = 0

variable {desired_temp : Int16} {low high : Int} {timed next : Timed} {event : Event}

theorem Clocked.step (clocked : timed.Clocked) (stepped : timed.Step event next) : next.Clocked := by
  obtain ⟨polled, near, heater, unmade⟩ := clocked
  have positive := from_secs_pos
  cases stepped with
  | new_display | unchanged | changed => exact ⟨polled, near, heater, unmade⟩
  | new_heater absent clock soon =>
    refine ⟨Nat.le_refl _, Nat.le_add_right _ _, ?_, by simp⟩
    intro future made
    cases made
    exact ⟨Nat.le_refl _, Nat.lt_add_of_pos_right positive⟩
  | new_heat_loss absent clock soon =>
    refine ⟨Nat.le_trans polled clock, soon, fun future present => ?_, unmade⟩
    exact ⟨Nat.le_trans (heater future present).1 clock, (heater future present).2⟩
  | cold off present clock order soon =>
    refine ⟨order, soon, ?_, by simp⟩
    intro future made
    cases made
    exact ⟨order, Nat.lt_add_of_pos_right positive⟩
  | early hot present before clock order soon =>
    refine ⟨order, soon, ?_, ?_⟩
    · intro future found
      cases present.symm.trans found
      exact ⟨Nat.le_trans (heater _ found).1 (Nat.le_trans clock order), before⟩
    · intro absent
      rw [present] at absent
      cases absent
  | heats hot present seen clock order soon =>
    refine ⟨order, soon, ?_, by simp [heat]⟩
    intro future made
    cases made
    exact ⟨Nat.le_refl _, Nat.lt_of_le_of_lt order (Nat.lt_add_of_pos_right positive)⟩
  | loses present due seen clock order soon | keeps present before clock order soon =>
    have later := Nat.le_trans clock order
    refine ⟨Nat.le_trans polled later, soon, fun future found => ?_, unmade⟩
    exact ⟨Nat.le_trans (heater future found).1 later, (heater future found).2⟩

theorem clock_le_loss (timed : Timed) : timed.clock ≤ timed.next_loss := by
  unfold next_loss
  split
  · exact Nat.le_max_left _ _
  · exact Nat.le_refl _

theorem Clocked.heat_near (clocked : timed.Clocked) : timed.next_heat ≤ timed.clock + 2 * from_secs 3 := by
  unfold next_heat
  split
  · rename_i future present
    rw [Nat.two_mul, ← Nat.add_assoc]
    exact Nat.add_le_add_right (Nat.add_le_add_right (clocked.heater future present).1 _) _
  · exact Nat.zero_le _

/-- Two losses of heat are the most there can be before the heater heats. -/
theorem Climbs.fresh (clocked : timed.Clocked) (enough : low + 2 ≤ timed.state.temp.toInt) : timed.Climbs low := by
  refine ⟨2, Nat.le_refl 2, enough, ?_⟩
  have loss := timed.clock_le_loss
  have heat := clocked.heat_near
  omega

theorem Climbs.floor (climbs : timed.Climbs low) : low ≤ timed.state.temp.toInt := by
  obtain ⟨losses, _, enough, _⟩ := climbs
  omega

theorem next_loss_mono (timed : Timed) {clock : Nat} (later : timed.clock ≤ clock) (polled : Nat) :
    timed.next_loss ≤ Timed.next_loss { timed with clock, polled } := by
  unfold next_loss
  cases timed.state.heat_loss with
  | none => exact later
  | some future => exact Nat.max_le.mpr ⟨Nat.le_trans later (Nat.le_max_left _ _), Nat.le_max_right _ _⟩

theorem Climbs.waits (climbs : timed.Climbs low) (temp : next.state.temp = timed.state.temp)
    (heat : next.next_heat = timed.next_heat) (loss : timed.next_loss ≤ next.next_loss) : next.Climbs low := by
  obtain ⟨losses, few, enough, heats⟩ := climbs
  refine ⟨losses, few, temp ▸ enough, ?_⟩
  omega

/-- How far a temperature may go from a bound below and a bound above. -/
structure Bounds (desired_temp : Int16) (low high : Int) : Prop where
  least : -32768 ≤ low
  below : low + 3 ≤ desired_temp.toInt
  above : desired_temp.toInt + 3 ≤ high
  most : desired_temp.toInt + 3 ≤ 32767

/-- The temperature is between the bounds, and the heater is set so that it stays there. -/
structure Within (desired_temp : Int16) (low high : Int) (timed : Timed) : Prop where
  clocked : timed.Clocked
  desired : timed.state.desired_temp = desired_temp
  high : timed.state.temp.toInt ≤ high
  unheated : timed.state.heater = none → timed.state.heat_on = false ∧ timed.Seen
  off : timed.state.heat_on = false → low + 2 ≤ timed.state.temp.toInt ∧ (timed.Seen → low + 3 ≤ timed.state.temp.toInt)
  climbs : timed.state.heat_on = true → timed.Climbs low
  heated : timed.state.heat_on = true → timed.state.temp.toInt ≤ desired_temp.toInt + 3 ∧
    (timed.Seen → timed.state.temp.toInt ≤ desired_temp.toInt)

theorem Within.floor (within : timed.Within desired_temp low high) : low ≤ timed.state.temp.toInt := by
  cases heat_on : timed.state.heat_on with
  | false =>
    have above := (within.off heat_on).1
    omega
  | true => exact (within.climbs heat_on).floor

/-- A loss of heat uses up one of those that there may be before the heater heats. -/
theorem Climbs.loses (climbs : timed.Climbs low) (clocked : timed.Clocked) (made : timed.state.heater ≠ none)
    {now later snapshot : Nat} (present : timed.state.heat_loss = some ⟨snapshot⟩) (due : snapshot + from_secs 3 < now)
    (clock : timed.clock ≤ now) (order : now ≤ later) (near : later ≤ timed.polled + from_secs 3)
    (room : -32768 ≤ low) : (timed.lose later).Climbs low ∧ (timed.state.temp - 1).toInt = timed.state.temp.toInt - 1 := by
  obtain ⟨losses, few, enough, heats⟩ := climbs
  obtain ⟨⟨heated⟩, at_heater⟩ := Option.ne_none_iff_exists'.mp made
  have unpolled : timed.polled < heated + from_secs 3 := (clocked.heater _ at_heater).2
  have loss : timed.next_loss ≤ now := by
    unfold next_loss
    rw [present]
    exact Nat.max_le.mpr ⟨clock, Nat.le_of_lt due⟩
  have heat : timed.next_heat = heated + from_secs 3 + from_secs 3 := by
    unfold next_heat
    rw [at_heater]
  obtain ⟨fewer, rfl⟩ : ∃ fewer, losses = fewer + 1 := by
    refine Nat.exists_eq_add_one_of_ne_zero fun zero => ?_
    rw [zero] at heats
    omega
  have fallen : (timed.state.temp - 1).toInt = timed.state.temp.toInt - 1 := by
    refine toInt_sub_one fun least => ?_
    rw [least, Int16.toInt_minValue] at enough
    omega
  refine ⟨⟨fewer, by omega, by simp only [lose, fallen]; omega, ?_⟩, fallen⟩
  have next : (timed.lose later).next_loss = later + from_secs 3 := Nat.max_eq_right (Nat.le_add_right _ _)
  have same : (timed.lose later).next_heat = timed.next_heat := rfl
  rw [next, same]
  rw [Nat.succ_mul] at heats
  omega

theorem Climbs.mono {lower : Int} (less : lower ≤ low) (climbs : timed.Climbs low) : timed.Climbs lower := by
  obtain ⟨losses, few, enough, heats⟩ := climbs
  exact ⟨losses, few, by omega, heats⟩

/-- The heater gains more than what can be lost before its next heating. -/
theorem Within.heats (bounds : Bounds desired_temp low high) (within : timed.Within desired_temp low high)
    (hot : timed.state.heat_on = true) (seen : timed.state.display = some ⟨timed.state.temp⟩) {now later : Nat}
    (clocked : (timed.heat now later).Clocked) : (timed.heat now later).Within desired_temp (low + 1) high := by
  have above := bounds.above
  have most := bounds.most
  have floor := (within.climbs hot).floor
  have cool := (within.heated hot).2 (by simp [Seen, seen])
  have risen : (timed.heat now later).state.temp.toInt = timed.state.temp.toInt + 3 := toInt_add_three (by omega)
  refine ⟨clocked, within.desired, by omega, by simp [heat], by simp [heat, hot], fun _ => .fresh clocked (by omega), ?_⟩
  intro _
  refine ⟨by omega, fun again => ?_⟩
  exact absurd (again _ seen).symm (add_three_ne timed.state.temp)

theorem Within.loses (bounds : Bounds desired_temp low high) (within : timed.Within desired_temp low high)
    {now later snapshot : Nat} (present : timed.state.heat_loss = some ⟨snapshot⟩) (due : snapshot + from_secs 3 < now)
    (seen : timed.state.display = some ⟨timed.state.temp⟩) (clock : timed.clock ≤ now) (order : now ≤ later)
    (near : later ≤ timed.polled + from_secs 3) (clocked : (timed.lose later).Clocked) :
    (timed.lose later).Within desired_temp low high ∧
      (timed.lose later).state.temp.toInt = timed.state.temp.toInt - 1 := by
  have least := bounds.least
  have high := within.high
  have shown : timed.Seen := by simp [Seen, seen]
  -- without a heater three seconds have not passed
  have made : timed.state.heater ≠ none := by
    intro absent
    have start := within.clocked.unmade absent
    omega
  have unseen : ¬ (timed.lose later).Seen := fun again => absurd (again _ seen).symm (sub_one_ne timed.state.temp)
  cases heat_on : timed.state.heat_on with
  | false =>
    have enough := (within.off heat_on).2 shown
    have fallen : (timed.lose later).state.temp.toInt = timed.state.temp.toInt - 1 := by
      refine toInt_sub_one fun bottom => ?_
      rw [bottom, Int16.toInt_minValue] at enough
      omega
    refine ⟨⟨clocked, within.desired, by omega, fun absent => absurd absent made, ?_, ?_, ?_⟩, fallen⟩
    · exact fun _ => ⟨by omega, fun again => absurd again unseen⟩
    · simp [lose, heat_on]
    · simp [lose, heat_on]
  | true =>
    obtain ⟨climbs, fallen⟩ := (within.climbs heat_on).loses within.clocked made present due clock order near least
    have fallen : (timed.lose later).state.temp.toInt = timed.state.temp.toInt - 1 := fallen
    have heated := (within.heated heat_on).1
    refine ⟨⟨clocked, within.desired, by omega, fun absent => absurd absent made, ?_, fun _ => climbs, ?_⟩, fallen⟩
    · simp [lose, heat_on]
    · exact fun _ => ⟨by omega, fun again => absurd again unseen⟩

theorem show_temp_off (off : timed.show_temp.state.heat_on = false) :
    timed.state.desired_temp.toInt ≤ timed.state.temp.toInt := by
  refine Int.not_lt.mp fun less => ?_
  have on : timed.show_temp.state.heat_on = true := switch_below (Int16.lt_iff_toInt_lt.mpr less)
  exact Bool.false_ne_true (off.symm.trans on)

theorem show_temp_on (hot : timed.show_temp.state.heat_on = true) :
    timed.state.temp.toInt ≤ timed.state.desired_temp.toInt := by
  refine Int.not_lt.mp fun more => ?_
  have off : timed.show_temp.state.heat_on = false := switch_above (Int16.lt_iff_toInt_lt.mpr more)
  exact Bool.false_ne_true (off.symm.trans hot)

theorem Within.changed (bounds : Bounds desired_temp low high) (within : timed.Within desired_temp low high)
    (unseen : ¬ timed.Seen) (clocked : timed.show_temp.Clocked) : timed.show_temp.Within desired_temp low high := by
  have below := bounds.below
  have desired := within.desired
  have made : timed.state.heater ≠ none := fun absent => unseen (within.unheated absent).2
  refine ⟨clocked, desired, within.high, fun absent => absurd absent made, ?_, ?_, ?_⟩
  · intro off
    have reached := show_temp_off off
    rw [desired] at reached
    exact ⟨by simp only [show_temp]; omega, fun _ => by simp only [show_temp]; omega⟩
  · intro _
    cases heat_on : timed.state.heat_on with
    | false => exact .fresh clocked (within.off heat_on).1
    | true => exact within.climbs heat_on
  · intro hot
    have cool := show_temp_on hot
    rw [desired] at cool
    exact ⟨by simp only [show_temp]; omega, fun _ => cool⟩

/-- A heater that has been switched off at the desired temperature keeps the temperature higher than before. -/
theorem Within.reached (within : timed.Within desired_temp low high) (room : low + 4 ≤ desired_temp.toInt)
    (off : timed.state.heat_on = false) (reached : timed.state.desired_temp.toInt ≤ timed.state.temp.toInt) :
    timed.Within desired_temp (low + 1) high := by
  rw [within.desired] at reached
  refine { within with off := fun _ => ⟨by omega, fun _ => by omega⟩, climbs := by simp [off] }

theorem Within.mono {lower : Int} (less : lower ≤ low) (within : timed.Within desired_temp low high) :
    timed.Within desired_temp lower high := by
  refine { within with off := fun off => ?_, climbs := fun hot => (within.climbs hot).mono less }
  obtain ⟨floor, shown⟩ := within.off off
  refine ⟨by omega, fun seen => ?_⟩
  have above := shown seen
  omega

/-- Between its bounds the temperature stays. -/
theorem Within.step (bounds : Bounds desired_temp low high) (within : timed.Within desired_temp low high)
    (stepped : timed.Step event next) : next.Within desired_temp low high := by
  have clocked := within.clocked.step stepped
  cases stepped with
  | new_display absent =>
    have seen : timed.Seen := by simp [Seen, absent]
    refine { within with clocked, unheated := ?_, off := ?_, heated := ?_ }
    · exact fun unmade => ⟨(within.unheated unmade).1, by simp [Seen]⟩
    · exact fun cold => ⟨(within.off cold).1, fun _ => (within.off cold).2 seen⟩
    · exact fun hot => ⟨(within.heated hot).1, fun _ => (within.heated hot).2 seen⟩
  | new_heater absent clock near =>
    have cold := (within.unheated absent).1
    exact { within with clocked, unheated := by simp, climbs := by simp [cold] }
  | @new_heat_loss now absent clock near =>
    refine { within with clocked, climbs := fun hot => (within.climbs hot).waits rfl rfl ?_ }
    have before : timed.next_loss = timed.clock := by
      unfold next_loss
      rw [absent]
    rw [before]
    exact Nat.le_trans clock (Nat.le_max_left now _)
  | unchanged => exact within
  | changed present different =>
    exact within.changed bounds (fun seen => different (seen _ present)) clocked
  | cold cold => exact { within with clocked, unheated := by simp, climbs := by simp [cold] }
  | early _ _ _ clock order | keeps _ _ clock order =>
    refine { within with clocked, climbs := fun hot => (within.climbs hot).waits rfl rfl ?_ }
    exact timed.next_loss_mono (Nat.le_trans clock order) _
  | heats hot _ seen => exact (within.heats bounds hot seen clocked).mono (by omega)
  | loses present due seen clock order near => exact (within.loses bounds present due seen clock order near clocked).1

end Timed

end RustAsyncAwait.ThermoControl
