import RustAsyncAwait.Library.Fairness
import RustAsyncAwait.Proofs.ThermoClimbs

/-! Where the thermostat settles. Polled in time and for ever, it lets a temperature
that is too high fall, and heats one that is too low, until it is in a band around
the desired one, which it does not leave again. -/

namespace RustAsyncAwait.ThermoControl
open Library

/-- The thermostat on which the futures are polled in time. -/
def attended (temp desired_temp : Int16) : Machine Timed Event where
  init := { state := { temp, desired_temp } }
  step := Timed.step

variable {temp desired_temp : Int16} {low high : Int} {schedule : Nat → Event}

theorem attended_reaches {trace : List Event} {timed : Timed} (reaches : (attended temp desired_temp).Reaches trace timed) :
    (thermostat temp desired_temp).Reaches trace timed.state := by
  refine reaches.trace_invariant (fun trace timed => (thermostat temp desired_temp).Reaches trace timed.state) ?_ ?_
  · exact Machine.Reaches.nil
  intro trace timed event next _ earlier stepped
  obtain ⟨state, moved, advanced⟩ := Option.bind_eq_some_iff.mp stepped
  obtain ⟨_, advanced⟩ := Option.ite_none_right_eq_some.mp advanced
  cases advanced
  have same : (timed.advance state event).state = state := by cases event <;> rfl
  rw [same]
  exact earlier.snoc moved

/-- Each of the futures is polled for ever, and the clock runs on. -/
structure Fair (temp desired_temp : Int16) (schedule : Nat → Event) : Prop where
  display : ∀ start, ∃ later, start ≤ later ∧ schedule later = .poll_display
  heater : ∀ start instant, ∃ later, start ≤ later ∧ ∃ now after next, instant ≤ now ∧
    schedule later = .poll_heater now after ∧
    ((attended temp desired_temp).states schedule later).step (schedule later) = some next
  heat_loss : ∀ start instant, ∃ later, start ≤ later ∧ ∃ now after next, instant ≤ now ∧
    schedule later = .poll_heat_loss now after ∧
    ((attended temp desired_temp).states schedule later).step (schedule later) = some next

namespace Timed

/-- The heater and the heat loss have been made, and the temperature is between its bounds. -/
structure Runs (desired_temp : Int16) (low high : Int) (timed : Timed) : Prop where
  within : timed.Within desired_temp low high
  heater : timed.state.heater ≠ none
  heat_loss : timed.state.heat_loss ≠ none

variable {timed next : Timed} {event : Event}

theorem Step.heater (stepped : timed.Step event next) (made : timed.state.heater ≠ none) : next.state.heater ≠ none := by
  cases stepped with
  | new_display | new_heat_loss | unchanged | changed | early | loses | keeps => exact made
  | new_heater | cold | heats => simp [heat]

theorem Step.heat_loss (stepped : timed.Step event next) (made : timed.state.heat_loss ≠ none) :
    next.state.heat_loss ≠ none := by
  cases stepped with
  | new_display | new_heater | unchanged | changed | cold | early | heats | keeps => exact made
  | new_heat_loss | loses => simp [lose]

theorem Runs.step (bounds : Bounds desired_temp low high) (runs : timed.Runs desired_temp low high)
    (stepped : timed.Step event next) : next.Runs desired_temp low high :=
  ⟨runs.within.step bounds stepped, stepped.heater runs.heater, stepped.heat_loss runs.heat_loss⟩

end Timed

open Timed

theorem states_succ {later : Nat} {next : Timed}
    (stepped : ((attended temp desired_temp).states schedule later).step (schedule later) = some next) :
    (attended temp desired_temp).states schedule (later + 1) = next := Machine.turn_some stepped

/-- A temperature that is too high falls. -/
theorem falls (bounds : Bounds desired_temp low high) (fair : Fair temp desired_temp schedule) :
    (attended temp desired_temp).LeadsTo schedule (Runs desired_temp low (high + 1)) (Runs desired_temp low high) := by
  have above := bounds.above
  have wider : Bounds desired_temp low (high + 1) := { bounds with above := by omega }
  intro start runs
  by_cases lower : ((attended temp desired_temp).states schedule start).state.temp.toInt ≤ high
  · exact ⟨start, Nat.le_refl start, { runs with within := { runs.within with high := lower } }⟩
  obtain ⟨⟨snapshot⟩, present⟩ := Option.ne_none_iff_exists'.mp runs.heat_loss
  let waits (timed : Timed) : Prop :=
    timed.Runs desired_temp low (high + 1) ∧ high < timed.state.temp.toInt ∧ timed.state.heat_loss = some ⟨snapshot⟩
  have leads : (attended temp desired_temp).LeadsTo schedule waits (Runs desired_temp low high) := by
    refine .of_leaving ?_ ?_
    · intro timed event next waits stepped
      obtain ⟨runs, hot, present⟩ := waits
      have cases_ := Timed.step_cases stepped
      have still := runs.step wider cases_
      by_cases lower : next.state.temp.toInt ≤ high
      · exact .inr { still with within := { still.within with high := lower } }
      · refine .inl ⟨still, Int.not_le.mp lower, ?_⟩
        cases cases_ with
        | new_display | new_heater | unchanged | changed | cold | early | heats | keeps => exact present
        | new_heat_loss absent =>
          rw [present] at absent
          cases absent
        | loses found due seen clock order near =>
          have fallen := (runs.within.loses wider found due seen clock order near still.within.clocked).2
          have top := runs.within.high
          omega
    · intro start always
      obtain ⟨later, after, now, read, next, due, offered, stepped⟩ := fair.heat_loss start (snapshot + from_secs 3 + 1)
      obtain ⟨runs, hot, present⟩ := always later after
      refine ⟨later + 1, Nat.le_succ_of_le after, ?_⟩
      rw [states_succ stepped]
      rw [offered] at stepped
      intro still
      cases Timed.step_cases stepped with
      | loses found due seen clock order near =>
        have fallen := (runs.within.loses wider found due seen clock order near still.1.within.clocked).2
        have top := runs.within.high
        have above := still.2.1
        omega
      | keeps found soon =>
        cases present.symm.trans found
        exact absurd due (Nat.not_le.mpr (Nat.lt_succ_of_le soon))
  exact leads start ⟨runs, Int.not_le.mp lower, present⟩

/-- The heater is off, and the display has been polled with the temperature. -/
def Idle (desired_temp : Int16) (low high : Int) (timed : Timed) : Prop :=
  timed.Runs desired_temp low high ∧ timed.state.heat_on = false ∧ timed.Seen

/-- The heater is off, and the display has not been polled with the temperature. -/
def Unset (desired_temp : Int16) (low high : Int) (timed : Timed) : Prop :=
  timed.Runs desired_temp low high ∧ timed.state.heat_on = false ∧ ¬ timed.Seen

def Heating (desired_temp : Int16) (low high : Int) (timed : Timed) : Prop :=
  timed.Runs desired_temp low high ∧ timed.state.heat_on = true

theorem idle_loses (bounds : Bounds desired_temp low high) (fair : Fair temp desired_temp schedule) :
    (attended temp desired_temp).LeadsTo schedule (Idle desired_temp low high) (Unset desired_temp low high) := by
  intro start idle
  obtain ⟨⟨snapshot⟩, present⟩ := Option.ne_none_iff_exists'.mp idle.1.heat_loss
  let waits (timed : Timed) : Prop := Idle desired_temp low high timed ∧ timed.state.heat_loss = some ⟨snapshot⟩
  have leads : (attended temp desired_temp).LeadsTo schedule waits (Unset desired_temp low high) := by
    refine .of_leaving ?_ ?_
    · intro timed event next waits stepped
      obtain ⟨⟨runs, off, seen⟩, present⟩ := waits
      have cases_ := Timed.step_cases stepped
      have still := runs.step bounds cases_
      cases cases_ with
      | new_display => exact .inl ⟨⟨still, off, by simp [Seen]⟩, present⟩
      | new_heater | unchanged | cold | keeps => exact .inl ⟨⟨still, off, seen⟩, present⟩
      | new_heat_loss absent =>
        rw [present] at absent
        cases absent
      | changed shown different => exact absurd (seen _ shown) different
      | early hot | heats hot => exact absurd (off.symm.trans hot) Bool.false_ne_true
      | loses _ _ shown =>
        exact .inr ⟨still, off, fun again => absurd (again _ shown).symm (sub_one_ne timed.state.temp)⟩
    · intro start always
      obtain ⟨later, after, now, read, next, due, offered, stepped⟩ := fair.heat_loss start (snapshot + from_secs 3 + 1)
      obtain ⟨⟨runs, off, seen⟩, present⟩ := always later after
      refine ⟨later + 1, Nat.le_succ_of_le after, ?_⟩
      rw [states_succ stepped]
      rw [offered] at stepped
      intro still
      cases Timed.step_cases stepped with
      | loses _ _ shown =>
        exact absurd (still.1.2.2 _ shown).symm (sub_one_ne _)
      | keeps found soon =>
        cases present.symm.trans found
        exact absurd due (Nat.not_le.mpr (Nat.lt_succ_of_le soon))
  exact leads start ⟨idle, present⟩

theorem poll_display_some {timed : Timed} (present : timed.state.display ≠ none) :
    ∃ next, timed.step .poll_display = some next := by
  obtain ⟨future, present⟩ := Option.ne_none_iff_exists'.mp present
  have same : (timed.state.poll_display future).temp = timed.state.temp := by
    simp only [State.poll_display]
    split <;> rfl
  exact ⟨timed.advance (timed.state.poll_display future) .poll_display, by
    simp [Timed.step, State.step, present, timely, same]⟩

theorem unset_shown (bounds : Bounds desired_temp low high) (room : low + 4 ≤ desired_temp.toInt)
    (fair : Fair temp desired_temp schedule) :
    (attended temp desired_temp).LeadsTo schedule (Unset desired_temp low high)
      (fun timed => Heating desired_temp low high timed ∨ timed.Runs desired_temp (low + 1) high) := by
  refine .of_leaving ?_ ?_
  · intro timed event next waits stepped
    obtain ⟨runs, off, unseen⟩ := waits
    have cases_ := Timed.step_cases stepped
    have still := runs.step bounds cases_
    cases cases_ with
    | new_display absent => exact absurd (by simp [Seen, absent]) unseen
    | new_heater | new_heat_loss | cold | keeps => exact .inl ⟨still, off, unseen⟩
    | unchanged same => exact absurd (by simp [Seen, same]) unseen
    | changed =>
      right
      cases heat_on : timed.show_temp.state.heat_on with
      | true => exact .inl ⟨still, heat_on⟩
      | false =>
        have reached := show_temp_off heat_on
        exact .inr { still with within := still.within.reached room heat_on reached }
    | early hot | heats hot => exact absurd (off.symm.trans hot) Bool.false_ne_true
    | loses _ _ shown => exact absurd (by simp [Seen, shown]) unseen
  · intro start always
    obtain ⟨later, after, offered⟩ := fair.display start
    obtain ⟨_, _, unseen⟩ := always later after
    have present : ((attended temp desired_temp).states schedule later).state.display ≠ none :=
      fun absent => unseen (by simp [Seen, absent])
    obtain ⟨next, stepped⟩ := poll_display_some present
    refine ⟨later + 1, Nat.le_succ_of_le after, fun still => ?_⟩
    rw [states_succ (offered ▸ stepped)] at still
    cases Timed.step_cases stepped with
    | unchanged same => exact unseen (by simp [Seen, same])
    | changed => exact still.2.2 (by simp [Seen, show_temp])

theorem heating_heats (bounds : Bounds desired_temp low high) (room : low + 4 ≤ desired_temp.toInt)
    (fair : Fair temp desired_temp schedule) :
    (attended temp desired_temp).LeadsTo schedule (Heating desired_temp low high) (Runs desired_temp (low + 1) high) := by
  intro start heating
  obtain ⟨⟨snapshot⟩, present⟩ := Option.ne_none_iff_exists'.mp heating.1.heater
  let waits (timed : Timed) : Prop := Heating desired_temp low high timed ∧ timed.state.heater = some ⟨snapshot⟩
  have leads : (attended temp desired_temp).LeadsTo schedule waits (Runs desired_temp (low + 1) high) := by
    refine .of_leaving ?_ ?_
    · intro timed event next waits stepped
      obtain ⟨⟨runs, hot⟩, present⟩ := waits
      have cases_ := Timed.step_cases stepped
      have still := runs.step bounds cases_
      cases cases_ with
      | new_display | new_heat_loss | unchanged | early | loses | keeps => exact .inl ⟨⟨still, hot⟩, present⟩
      | new_heater absent =>
        rw [present] at absent
        cases absent
      | changed =>
        cases heat_on : timed.show_temp.state.heat_on with
        | true => exact .inl ⟨⟨still, heat_on⟩, present⟩
        | false =>
          have reached := show_temp_off heat_on
          exact .inr { still with within := still.within.reached room heat_on reached }
      | cold off => exact absurd (off.symm.trans hot) Bool.false_ne_true
      | heats _ _ seen => exact .inr { still with within := runs.within.heats bounds hot seen still.within.clocked }
    · intro start always
      obtain ⟨later, after, now, read, next, due, offered, stepped⟩ := fair.heater start (snapshot + from_secs 3)
      obtain ⟨⟨runs, hot⟩, present⟩ := always later after
      refine ⟨later + 1, Nat.le_succ_of_le after, ?_⟩
      rw [states_succ stepped]
      rw [offered] at stepped
      intro still
      cases Timed.step_cases stepped with
      | cold off => exact absurd (off.symm.trans hot) Bool.false_ne_true
      | early _ found soon =>
        cases present.symm.trans found
        exact absurd due (Nat.not_le.mpr soon)
      | heats _ found seen clock order =>
        have moved := still.2
        simp only [heat, Option.some.injEq, HeaterFuture.mk.injEq] at moved
        subst moved
        exact absurd (Nat.le_trans due order) (Nat.not_le.mpr (Nat.lt_add_of_pos_right from_secs_pos))
  exact leads start ⟨heating, present⟩

theorem falls_by (bounds : Bounds desired_temp low high) (fair : Fair temp desired_temp schedule) (more : Nat) :
    (attended temp desired_temp).LeadsTo schedule (Runs desired_temp low (high + more)) (Runs desired_temp low high) := by
  induction more with
  | zero =>
    rw [Int.natCast_zero, Int.add_zero]
    exact .now fun _ => id
  | succ more ih =>
    have above := bounds.above
    have wider : Bounds desired_temp low (high + more) := { bounds with above := by omega }
    rw [Int.natCast_succ, ← Int.add_assoc]
    exact (falls wider fair).trans ih

/-- A temperature that is too low rises. -/
theorem rises (bounds : Bounds desired_temp low high) (room : low + 4 ≤ desired_temp.toInt)
    (fair : Fair temp desired_temp schedule) :
    (attended temp desired_temp).LeadsTo schedule (Runs desired_temp low high) (Runs desired_temp (low + 1) high) := by
  have heated := heating_heats bounds room fair
  have shown := (unset_shown bounds room fair).trans (heated.either (.now fun _ => id))
  have lost := (idle_loses bounds fair).trans shown
  intro start runs
  cases heat_on : ((attended temp desired_temp).states schedule start).state.heat_on with
  | true => exact heated start ⟨runs, heat_on⟩
  | false =>
    by_cases seen : ((attended temp desired_temp).states schedule start).Seen
    · exact lost start ⟨runs, heat_on, seen⟩
    · exact shown start ⟨runs, heat_on, seen⟩

theorem rises_by (bounds : Bounds desired_temp low high) (fair : Fair temp desired_temp schedule) (less : Nat)
    (least : -32768 ≤ low - less) :
    (attended temp desired_temp).LeadsTo schedule (Runs desired_temp (low - less) high) (Runs desired_temp low high) := by
  induction less with
  | zero =>
    rw [Int.natCast_zero, Int.sub_zero]
    exact .now fun _ => id
  | succ less ih =>
    have below := bounds.below
    have rise := rises { bounds with least, below := by omega } (by omega) fair
    rw [show low - (less + 1 : Nat) + 1 = low - less by omega] at rise
    exact rise.trans (ih (by omega))

theorem within_init (temp desired_temp : Int16) : Timed.Within desired_temp (min temp.toInt desired_temp.toInt - 3)
    (max temp.toInt (desired_temp.toInt + 3)) { state := { temp, desired_temp } } := by
  refine ⟨⟨Nat.le_refl 0, Nat.zero_le _, by simp, fun _ => rfl⟩, rfl, Int.le_max_left _ _, ?_, ?_, by simp, by simp⟩
  · exact fun _ => ⟨rfl, by simp [Seen]⟩
  · have least := Int.min_le_left temp.toInt desired_temp.toInt
    exact fun _ => ⟨by simp only; omega, fun _ => by simp only; omega⟩

theorem states_within (bounds : Bounds desired_temp low high) {start later : Nat}
    (within : ((attended temp desired_temp).states schedule start).Within desired_temp low high) (after : start ≤ later) :
    ((attended temp desired_temp).states schedule later).Within desired_temp low high :=
  Machine.states_keep (Timed.Within desired_temp low high)
    (fun _ _ _ within stepped => within.step bounds (Timed.step_cases stepped)) within after

theorem both_made (fair : Fair temp desired_temp schedule) : ∃ start,
    ((attended temp desired_temp).states schedule start).state.heater ≠ none ∧
      ((attended temp desired_temp).states schedule start).state.heat_loss ≠ none := by
  obtain ⟨first, _, _, _, _, _, offered, heated⟩ := fair.heater 0 0
  have heater : ((attended temp desired_temp).states schedule first).state.heater ≠ none := by
    rw [offered] at heated
    cases Timed.step_cases heated with
    | cold _ present => exact present
    | early _ present | heats _ present => simp [present]
  obtain ⟨second, after, _, _, _, _, offered, lost⟩ := fair.heat_loss first 0
  refine ⟨second, ?_, ?_⟩
  · exact Machine.states_keep (fun timed : Timed => timed.state.heater ≠ none)
      (fun _ _ _ made stepped => (Timed.step_cases stepped).heater made) heater after
  · rw [offered] at lost
    cases Timed.step_cases lost with
    | loses present | keeps present => simp [present]

/-- From every temperature the thermostat comes to the desired one, and from then on
it is never more than three off; on the way there it goes no further away than three. -/
theorem settles (start_room : -32765 ≤ temp.toInt) (low_room : -32765 ≤ desired_temp.toInt)
    (high_room : desired_temp.toInt + 3 ≤ 32767) (fair : Fair temp desired_temp schedule) :
    let temps count := ((attended temp desired_temp).states schedule count).state.temp.toInt
    (∀ count, min temp.toInt desired_temp.toInt - 3 ≤ temps count ∧
      temps count ≤ max temp.toInt (desired_temp.toInt + 3)) ∧
    ∃ start, ∀ later, start ≤ later → desired_temp.toInt - 3 ≤ temps later ∧ temps later ≤ desired_temp.toInt + 3 := by
  intro temps
  have bounds : Bounds desired_temp (min temp.toInt desired_temp.toInt - 3) (max temp.toInt (desired_temp.toInt + 3)) := by
    constructor <;> omega
  have first : ((attended temp desired_temp).states schedule 0).Within desired_temp (min temp.toInt desired_temp.toInt - 3)
      (max temp.toInt (desired_temp.toInt + 3)) := within_init temp desired_temp
  have within (count : Nat) := states_within bounds first (Nat.zero_le count)
  refine ⟨fun count => ⟨(within count).floor, (within count).high⟩, ?_⟩
  have band : Bounds desired_temp (desired_temp.toInt - 3) (desired_temp.toInt + 3) := by constructor <;> omega
  obtain ⟨more, high⟩ : ∃ more : Nat, max temp.toInt (desired_temp.toInt + 3) = desired_temp.toInt + 3 + more :=
    ⟨(temp.toInt - (desired_temp.toInt + 3)).toNat, by omega⟩
  obtain ⟨less, low⟩ : ∃ less : Nat, min temp.toInt desired_temp.toInt - 3 = desired_temp.toInt - 3 - less :=
    ⟨(desired_temp.toInt - temp.toInt).toNat, by omega⟩
  rw [high, low] at within
  have least := bounds.least
  rw [low] at least
  have lowered := falls_by { band with least, below := by omega } fair more
  have raised := rises_by band fair less least
  obtain ⟨made, heater, heat_loss⟩ := both_made fair
  obtain ⟨start, _, settled⟩ := (lowered.trans raised) made ⟨within made, heater, heat_loss⟩
  refine ⟨start, fun later after => ?_⟩
  have there := states_within band settled.within after
  exact ⟨there.floor, there.high⟩

/-- Every three seconds the heater and the heat loss are polled, and the display after each of them. -/
def every_three_seconds : Nat → Event
  | 0 => .new_display
  | 1 => .new_heat_loss 0
  | 2 => .new_heater 0
  | count + 3 =>
    let now := (count / 4 + 1) * from_secs 3
    match count % 4 with
    | 0 => .poll_heater now now
    | 2 => .poll_heat_loss now now
    | _ => .poll_display

/-- Where it is after so many rounds. -/
structure Round (rounds : Nat) (timed : Timed) : Prop where
  shown : timed.state.display = some ⟨timed.state.temp⟩
  heater : timed.state.heater ≠ none
  heat_loss : timed.state.heat_loss ≠ none
  clock : timed.clock = rounds * from_secs 3
  polled : timed.polled = rounds * from_secs 3

section Round
variable {timed next : Timed} {rounds now : Nat}

theorem poll_heater_some (shown : timed.state.display = some ⟨timed.state.temp⟩) (made : timed.state.heater ≠ none)
    (clock : timed.clock ≤ now) (near : now ≤ timed.polled + from_secs 3) :
    ∃ next, timed.step (.poll_heater now now) = some next ∧ next.clock = now ∧ next.polled = now ∧
      next.state.display = timed.state.display := by
  obtain ⟨future, present⟩ := Option.ne_none_iff_exists'.mp made
  refine ⟨timed.advance (timed.state.poll_heater future now now) (.poll_heater now now), ?_, rfl, rfl, ?_⟩
  · simp [Timed.step, State.step, present, timely, shown, clock, near]
  · simp only [advance, State.poll_heater]
    split
    · rfl
    · split <;> rfl

theorem poll_heat_loss_some (shown : timed.state.display = some ⟨timed.state.temp⟩) (made : timed.state.heat_loss ≠ none)
    (clock : timed.clock ≤ now) (near : now ≤ timed.polled + from_secs 3) :
    ∃ next, timed.step (.poll_heat_loss now now) = some next ∧ next.clock = now ∧ next.polled = timed.polled ∧
      next.state.display = timed.state.display := by
  obtain ⟨future, present⟩ := Option.ne_none_iff_exists'.mp made
  refine ⟨timed.advance (timed.state.poll_heat_loss future now now) (.poll_heat_loss now now), ?_, rfl, rfl, ?_⟩
  · simp [Timed.step, State.step, present, timely, shown, clock, near]
  · simp only [advance, State.poll_heat_loss]
    split <;> rfl

theorem poll_display_shows (stepped : timed.step .poll_display = some next) :
    next.state.display = some ⟨next.state.temp⟩ ∧ next.clock = timed.clock ∧ next.polled = timed.polled := by
  cases Timed.step_cases stepped with
  | unchanged same => exact ⟨same, rfl, rfl⟩
  | changed => exact ⟨rfl, rfl, rfl⟩

/-- The four polls of a round. -/
theorem Round.polls (round : Round rounds timed) (same : now = (rounds + 1) * from_secs 3) :
    ∃ heated shown lost next, timed.step (.poll_heater now now) = some heated ∧ heated.step .poll_display = some shown ∧
      shown.step (.poll_heat_loss now now) = some lost ∧ lost.step .poll_display = some next ∧ Round (rounds + 1) next := by
  obtain ⟨shown, heater, heat_loss, clock, polled⟩ := round
  rw [Nat.succ_mul] at same
  obtain ⟨heated, first, clock, polled, kept⟩ :=
    poll_heater_some shown heater (by omega : timed.clock ≤ now) (by omega : now ≤ timed.polled + from_secs 3)
  obtain ⟨seen, second⟩ := poll_display_some (by rw [kept, shown]; simp)
  obtain ⟨shows, on, also⟩ := poll_display_shows second
  have heat_loss := (Timed.step_cases second).heat_loss ((Timed.step_cases first).heat_loss heat_loss)
  have heater := (Timed.step_cases second).heater ((Timed.step_cases first).heater heater)
  obtain ⟨lost, third, last, unpolled, still⟩ := poll_heat_loss_some shows heat_loss
    (by omega : seen.clock ≤ now) (by omega : now ≤ seen.polled + from_secs 3)
  obtain ⟨next, fourth⟩ := poll_display_some (by rw [still, shows]; simp)
  obtain ⟨shows, clock_, polled_⟩ := poll_display_shows fourth
  refine ⟨heated, seen, lost, next, first, second, third, fourth, shows, ?_, ?_, ?_, ?_⟩
  · exact (Timed.step_cases fourth).heater ((Timed.step_cases third).heater heater)
  · exact (Timed.step_cases fourth).heat_loss ((Timed.step_cases third).heat_loss heat_loss)
  · rw [Nat.succ_mul]
    omega
  · rw [Nat.succ_mul]
    omega

end Round

theorem every_three_seconds_round (rounds : Nat) :
    every_three_seconds (4 * rounds + 3) = .poll_heater ((rounds + 1) * from_secs 3) ((rounds + 1) * from_secs 3) ∧
      every_three_seconds (4 * rounds + 4) = .poll_display ∧
      every_three_seconds (4 * rounds + 5) = .poll_heat_loss ((rounds + 1) * from_secs 3) ((rounds + 1) * from_secs 3) ∧
      every_three_seconds (4 * rounds + 6) = .poll_display := by
  have whole : 4 * rounds / 4 = rounds ∧ (4 * rounds + 2) / 4 = rounds := by omega
  refine ⟨?_, ?_, ?_, ?_⟩ <;> simp [every_three_seconds, Nat.add_mod, whole]

theorem states_round (rounds : Nat) : Round rounds ((attended 2090 2100).states every_three_seconds (4 * rounds + 3)) := by
  induction rounds with
  | zero =>
    have first : (attended 2090 2100).states every_three_seconds 3 =
        { state := { temp := 2090, desired_temp := 2100, display := some ⟨2090⟩, heater := some ⟨0⟩, heat_loss := some ⟨0⟩ } } :=
      rfl
    rw [Nat.mul_zero, Nat.zero_add, first]
    exact ⟨rfl, by simp, by simp, by simp, by simp⟩
  | succ rounds ih =>
    obtain ⟨first, second, third, fourth⟩ := every_three_seconds_round rounds
    obtain ⟨heated, shown, lost, next, heats, shows, loses, again, round⟩ := ih.polls rfl
    have heated_at := states_succ (first ▸ heats)
    have shown_at := states_succ (second ▸ heated_at ▸ shows)
    have lost_at := states_succ (third ▸ shown_at ▸ loses)
    have next_at := states_succ (fourth ▸ lost_at ▸ again)
    exact next_at ▸ round

theorem every_three_seconds_fair : Fair 2090 2100 every_three_seconds := by
  have enough (start instant : Nat) :
      start ≤ 4 * max start instant + 3 ∧ instant ≤ (max start instant + 1) * from_secs 3 := by
    refine ⟨by omega, ?_⟩
    exact Nat.le_trans (by omega) (Nat.le_mul_of_pos_right _ from_secs_pos)
  constructor
  · intro start
    exact ⟨4 * start + 4, by omega, (every_three_seconds_round start).2.1⟩
  · intro start instant
    obtain ⟨after, due⟩ := enough start instant
    obtain ⟨heated, _, _, _, heats, _⟩ := (states_round (max start instant)).polls rfl
    obtain ⟨offers, _⟩ := every_three_seconds_round (max start instant)
    exact ⟨_, after, _, _, heated, due, offers, offers ▸ heats⟩
  · intro start instant
    obtain ⟨after, due⟩ := enough start instant
    obtain ⟨heated, shown, lost, _, heats, shows, loses, _⟩ := (states_round (max start instant)).polls rfl
    obtain ⟨first, second, third, _⟩ := every_three_seconds_round (max start instant)
    have heated_at := states_succ (first ▸ heats)
    have shown_at := states_succ (second ▸ heated_at ▸ shows)
    exact ⟨4 * max start instant + 5, by omega, _, _, lost, due, third, third ▸ shown_at ▸ loses⟩

/-- From the values of the source, with polls of which none comes early. -/
theorem settles_every_three_seconds : ∃ start, ∀ later, start ≤ later →
    2097 ≤ ((attended 2090 2100).states every_three_seconds later).state.temp.toInt ∧
      ((attended 2090 2100).states every_three_seconds later).state.temp.toInt ≤ 2103 :=
  (settles (by decide) (by decide) (by decide) every_three_seconds_fair).2

end RustAsyncAwait.ThermoControl
