import RustAsyncAwait.ThermoControl

/-! The screen of `chap6/thermo_control.rs`, by single loads and stores. Frames
are drawn by the polls of the display that see a new temperature, and by the
callback of `on_key_down`, which runs on a thread of its own. -/

namespace RustAsyncAwait.ThermoScreen
open Library
open ThermoControl (DisplayFuture HeaterFuture Instant State duration_since from_secs switch)

/-- The arguments of `render`. -/
structure Frame where
  temp : Int16
  desired_temp : Int16
  heat_on : Bool
  input : String
  deriving Repr, DecidableEq

/-- The next operation of a poll of the display or of the callback, with what has been loaded. -/
inductive Drawing
  | load_temp
  | load_desired_temp (temp : Int16)
  | load_heat_on (temp desired_temp : Int16)
  | store (temp desired_temp : Int16) (heat_on : Bool)
  | render (temp desired_temp : Int16) (heat_on : Bool)
  deriving Repr, DecidableEq

/-- The thermostat with `INPUT` and the last frame. `poll` is the poll of the
display that is in progress, `callback` a key press, and `heating` says that a
poll of the heater is about to add to `TEMP`. -/
structure Screen where
  state : State
  input : String := ""
  frame : Option Frame := none
  poll : Option Drawing := none
  callback : Option Drawing := none
  heating : Bool := false
  deriving Repr, DecidableEq

/-- Who draws. -/
inductive Drawer
  | display
  | key_down
  deriving Repr, DecidableEq

inductive Operation
  | load_temp
  | load_desired_temp
  | load_heat_on
  | store
  | render
  deriving Repr, DecidableEq

/-- `push_str` begins the callback, and `poll_heater` goes on with `fetch_add` if it is time for that. -/
inductive Event
  | new_display
  | new_heater (now : Instant)
  | new_heat_loss (now : Instant)
  | does (drawer : Drawer) (operation : Operation)
  | push_str (key : String)
  | poll_heater (now : Instant)
  | fetch_add (later : Instant)
  | poll_heat_loss (now later : Instant)
  deriving Repr, DecidableEq

/-- `DisplayFuture::poll`. The lock of `INPUT` is held from the clone to the end of `render`. -/
def Screen.poll_display (screen : Screen) (future : DisplayFuture) : Operation → Option Screen
  | .load_temp =>
    match screen.poll with
    | none => some { screen with poll := some (.load_desired_temp screen.state.temp) }
    | some _ => none
  | .load_desired_temp =>
    match screen.poll with
    | some (.load_desired_temp current_snapshot) =>
      some { screen with poll := some (.load_heat_on current_snapshot screen.state.desired_temp) }
    | _ => none
  | .load_heat_on =>
    match screen.poll with
    | some (.load_heat_on current_snapshot desired_temp) =>
      let heat_on := screen.state.heat_on
      if current_snapshot = future.temp_snapshot then
        some { screen with poll := none }
      else if current_snapshot < desired_temp ∧ heat_on = false ∨ desired_temp < current_snapshot ∧ heat_on = true then
        some { screen with poll := some (.store current_snapshot desired_temp heat_on) }
      else
        some { screen with poll := some (.render current_snapshot desired_temp heat_on) }
    | _ => none
  | .store =>
    match screen.poll with
    | some (.store current_snapshot desired_temp heat_on) =>
      some { screen with
        state.heat_on := switch current_snapshot desired_temp heat_on
        poll := some (.render current_snapshot desired_temp heat_on) }
    | _ => none
  | .render =>
    match screen.poll with
    | some (.render current_snapshot desired_temp heat_on) =>
      some { screen with
        frame := some { temp := current_snapshot, desired_temp, heat_on, input := screen.input }
        state.display := some ⟨current_snapshot⟩
        poll := none }
    | _ => none

/-- The callback after its `push_str`. -/
def Screen.on_key_down (screen : Screen) : Operation → Option Screen
  | .load_temp =>
    match screen.callback with
    | some .load_temp => some { screen with callback := some (.load_desired_temp screen.state.temp) }
    | _ => none
  | .load_desired_temp =>
    match screen.callback with
    | some (.load_desired_temp temp) => some { screen with callback := some (.load_heat_on temp screen.state.desired_temp) }
    | _ => none
  | .load_heat_on =>
    match screen.callback with
    | some (.load_heat_on temp desired_temp) =>
      some { screen with callback := some (.render temp desired_temp screen.state.heat_on) }
    | _ => none
  | .store => none
  | .render =>
    match screen.callback with
    | some (.render temp desired_temp heat_on) =>
      some { screen with frame := some { temp, desired_temp, heat_on, input := screen.input }, callback := none }
    | _ => none

/-- `HeaterFuture::poll` up to its `fetch_add`. -/
def Screen.poll_heater (screen : Screen) (future : HeaterFuture) (now : Instant) : Screen :=
  if screen.state.heat_on = false then
    { screen with state.heater := some ⟨now⟩ }
  else if duration_since now future.time_snapshot < from_secs 3 then
    screen
  else
    { screen with heating := true }

/-- What touches none of the atomics more than once is one step. -/
def Screen.future (screen : Screen) (event : ThermoControl.Event) : Option Screen :=
  (screen.state.step event).map fun state => { screen with state }

def Screen.step (screen : Screen) : Event → Option Screen
  | .new_display => screen.future .new_display
  | .new_heater now => screen.future (.new_heater now)
  | .new_heat_loss now => screen.future (.new_heat_loss now)
  | .does .display operation => screen.state.display.bind fun future => screen.poll_display future operation
  | .does .key_down operation => screen.on_key_down operation
  | .push_str key =>
    match screen.callback with
    | none => some { screen with input := screen.input ++ key, callback := some .load_temp }
    | some _ => none
  | .poll_heater now =>
    if screen.heating then none else screen.state.heater.map fun future => screen.poll_heater future now
  | .fetch_add later =>
    if screen.heating then
      some { screen with state := { screen.state with temp := screen.state.temp + 3, heater := some ⟨later⟩ }, heating := false }
    else none
  | .poll_heat_loss now later => screen.future (.poll_heat_loss now later)

/-- No poll is in progress. -/
def Screen.idle (screen : Screen) : Prop := screen.poll = none ∧ screen.heating = false

def thermostat (temp desired_temp : Int16) : Machine Screen Event where
  init := { state := { temp, desired_temp } }
  step := Screen.step

end RustAsyncAwait.ThermoScreen
