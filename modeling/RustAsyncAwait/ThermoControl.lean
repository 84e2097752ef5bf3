import RustAsyncAwait.Library.Machine

/-! The thermostat of `chap6/thermo_control.rs`: three futures around the
atomics `TEMP`, `DESIRED_TEMP` and `HEAT_ON`, each of them polled in one step. -/

namespace RustAsyncAwait.ThermoControl
open Library

/-- A reading of the clock, in nanoseconds. -/
abbrev Instant := Nat

def from_secs (secs : Nat) : Nat := secs * 1000000000

/-- Zero where the other reading is the later one. -/
def duration_since (later earlier : Instant) : Nat := later - earlier

structure DisplayFuture where
  temp_snapshot : Int16
  deriving Repr, DecidableEq

structure HeaterFuture where
  time_snapshot : Instant
  deriving Repr, DecidableEq

structure HeatLossFuture where
  time_snapshot : Instant
  deriving Repr, DecidableEq

/-- A future is there once its `new` has been called. `DESIRED_TEMP` is never stored to. -/
structure State where
  temp : Int16
  desired_temp : Int16
  heat_on : Bool := false
  display : Option DisplayFuture := none
  heater : Option HeaterFuture := none
  heat_loss : Option HeatLossFuture := none
  deriving Repr, DecidableEq

/-- A poll with the readings of the clock it makes, of which it may use only the first one. -/
inductive Event
  | new_display
  | new_heater (now : Instant)
  | new_heat_loss (now : Instant)
  | poll_display
  | poll_heater (now later : Instant)
  | poll_heat_loss (now later : Instant)
  deriving Repr, DecidableEq

/-- What a poll of the display that sees a new temperature makes of `HEAT_ON`. -/
def switch (current_snapshot desired_temp : Int16) (heat_on : Bool) : Bool :=
  if current_snapshot < desired_temp ∧ heat_on = false then true
  else if desired_temp < current_snapshot ∧ heat_on = true then false
  else heat_on

def State.poll_display (state : State) (future : DisplayFuture) : State :=
  let current_snapshot := state.temp
  if current_snapshot = future.temp_snapshot then
    state
  else
    { state with
      heat_on := switch current_snapshot state.desired_temp state.heat_on
      display := some ⟨current_snapshot⟩ }

def State.poll_heater (state : State) (future : HeaterFuture) (now later : Instant) : State :=
  if state.heat_on = false then
    { state with heater := some ⟨now⟩ }
  else if duration_since now future.time_snapshot < from_secs 3 then
    state
  else
    { state with temp := state.temp + 3, heater := some ⟨later⟩ }

def State.poll_heat_loss (state : State) (future : HeatLossFuture) (now later : Instant) : State :=
  if from_secs 3 < duration_since now future.time_snapshot then
    { state with temp := state.temp - 1, heat_loss := some ⟨later⟩ }
  else state

def State.step (state : State) : Event → Option State
  | .new_display => if state.display = none then some { state with display := some ⟨state.temp⟩ } else none
  | .new_heater now => if state.heater = none then some { state with heater := some ⟨now⟩ } else none
  | .new_heat_loss now => if state.heat_loss = none then some { state with heat_loss := some ⟨now⟩ } else none
  | .poll_display => state.display.map state.poll_display
  | .poll_heater now later => state.heater.map fun future => state.poll_heater future now later
  | .poll_heat_loss now later => state.heat_loss.map fun future => state.poll_heat_loss future now later

def thermostat (temp desired_temp : Int16) : Machine State Event where
  init := { temp, desired_temp }
  step := State.step

end RustAsyncAwait.ThermoControl
