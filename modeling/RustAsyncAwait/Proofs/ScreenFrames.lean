import RustAsyncAwait.ThermoScreen
import RustAsyncAwait.Proofs.ThermoBounds
import Mathlib.Algebra.Group.Nat.Even

/-! What the last frame shows. Its drawer has loaded the thermostat at some time
before, and each store to `HEAT_ON` since then turns what it shows from true to
false or back. -/

namespace RustAsyncAwait.ThermoScreen
open Library
open ThermoControl (DisplayFuture HeaterFuture Instant State duration_since from_secs switch)

variable {temp desired_temp : Int16}

/-- A poll of the display that has loaded these switches the heater. -/
def switches (temp desired_temp : Int16) (heat_on : Bool) : Prop :=
  temp < desired_temp ∧ heat_on = false ∨ desired_temp < temp ∧ heat_on = true

theorem switch_of_switches {heat_on : Bool} (changes : switches temp desired_temp heat_on) :
    switch temp desired_temp heat_on = !heat_on := by
  rcases changes with ⟨below, rfl⟩ | ⟨above, rfl⟩
  · simp [switch, below]
  · simp [switch, above]

/-- The step concerns neither the screen nor what is drawn next. -/
structure Apart (screen next : Screen) : Prop where
  heat_on : next.state.heat_on = screen.state.heat_on
  desired_temp : next.state.desired_temp = screen.state.desired_temp
  display : ∀ future, screen.state.display = some future → next.state.display = some future
  frame : next.frame = screen.frame
  poll : next.poll = screen.poll
  callback : next.callback = screen.callback

inductive Step (screen : Screen) : Event → Screen → Prop
  | apart {event : Event} {next : Screen} (other : ∀ drawer operation, event ≠ .does drawer operation)
      (apart : Apart screen next) : Step screen event next
  | push_str {key : String} (free : screen.callback = none) :
      Step screen (.push_str key) { screen with input := screen.input ++ key, callback := some .load_temp }
  | load_temp {future : DisplayFuture} (present : screen.state.display = some future) (free : screen.poll = none) :
      Step screen (.does .display .load_temp) { screen with poll := some (.load_desired_temp screen.state.temp) }
  | load_desired_temp {future : DisplayFuture} {temp : Int16} (present : screen.state.display = some future)
      (place : screen.poll = some (.load_desired_temp temp)) :
      Step screen (.does .display .load_desired_temp)
        { screen with poll := some (.load_heat_on temp screen.state.desired_temp) }
  | unchanged {future : DisplayFuture} {temp desired_temp : Int16} (present : screen.state.display = some future)
      (place : screen.poll = some (.load_heat_on temp desired_temp)) (same : temp = future.temp_snapshot) :
      Step screen (.does .display .load_heat_on) { screen with poll := none }
  | changes {future : DisplayFuture} {temp desired_temp : Int16} (present : screen.state.display = some future)
      (place : screen.poll = some (.load_heat_on temp desired_temp))
      (differs : switches temp desired_temp screen.state.heat_on) :
      Step screen (.does .display .load_heat_on)
        { screen with poll := some (.store temp desired_temp screen.state.heat_on) }
  | agrees {future : DisplayFuture} {temp desired_temp : Int16} (present : screen.state.display = some future)
      (place : screen.poll = some (.load_heat_on temp desired_temp))
      (agrees : ¬ switches temp desired_temp screen.state.heat_on) :
      Step screen (.does .display .load_heat_on)
        { screen with poll := some (.render temp desired_temp screen.state.heat_on) }
  | store {future : DisplayFuture} {temp desired_temp : Int16} {heat_on : Bool} (present : screen.state.display = some future)
      (place : screen.poll = some (.store temp desired_temp heat_on)) :
      Step screen (.does .display .store)
        { screen with
          state.heat_on := switch temp desired_temp heat_on
          poll := some (.render temp desired_temp heat_on) }
  | render {future : DisplayFuture} {temp desired_temp : Int16} {heat_on : Bool} (present : screen.state.display = some future)
      (place : screen.poll = some (.render temp desired_temp heat_on)) :
      Step screen (.does .display .render)
        { screen with
          frame := some ⟨temp, desired_temp, heat_on, screen.input⟩
          state.display := some ⟨temp⟩
          poll := none }
  | key_temp (place : screen.callback = some .load_temp) :
      Step screen (.does .key_down .load_temp) { screen with callback := some (.load_desired_temp screen.state.temp) }
  | key_desired_temp {temp : Int16} (place : screen.callback = some (.load_desired_temp temp)) :
      Step screen (.does .key_down .load_desired_temp)
        { screen with callback := some (.load_heat_on temp screen.state.desired_temp) }
  | key_heat_on {temp desired_temp : Int16} (place : screen.callback = some (.load_heat_on temp desired_temp)) :
      Step screen (.does .key_down .load_heat_on)
        { screen with callback := some (.render temp desired_temp screen.state.heat_on) }
  | key_render {temp desired_temp : Int16} {heat_on : Bool} (place : screen.callback = some (.render temp desired_temp heat_on)) :
      Step screen (.does .key_down .render)
        { screen with frame := some ⟨temp, desired_temp, heat_on, screen.input⟩, callback := none }

/-- A step of the thermostat other than a poll of the display. -/
theorem future_apart {screen next : Screen} {event : ThermoControl.Event} (other : event ≠ .poll_display)
    (stepped : screen.future event = some next) : Apart screen next := by
  obtain ⟨state, moved, rfl⟩ := Option.map_eq_some_iff.mp stepped
  cases ThermoControl.step_cases moved with
  | unchanged | changed => exact absurd rfl other
  | new_display absent =>
    refine ⟨rfl, rfl, fun future present => ?_, rfl, rfl, rfl⟩
    rw [absent] at present
    cases present
  | new_heater | new_heat_loss | cold | early | heats | loses | keeps =>
    exact ⟨rfl, rfl, fun _ present => present, rfl, rfl, rfl⟩

theorem poll_display_cases {screen next : Screen} {future : DisplayFuture} {operation : Operation}
    (present : screen.state.display = some future) (stepped : screen.poll_display future operation = some next) :
    Step screen (.does .display operation) next := by
  cases operation with
  | load_temp =>
    simp only [Screen.poll_display] at stepped
    split at stepped <;> cases stepped
    exact .load_temp present ‹_›
  | load_desired_temp =>
    simp only [Screen.poll_display] at stepped
    split at stepped <;> cases stepped
    exact .load_desired_temp present ‹_›
  | load_heat_on =>
    simp only [Screen.poll_display] at stepped
    split at stepped
    next current_snapshot desired_temp place =>
      split at stepped
      next same => cases stepped; exact .unchanged present place same
      next =>
        split at stepped
        next differs => cases stepped; exact .changes present place differs
        next agrees => cases stepped; exact .agrees present place agrees
    next => cases stepped
  | store =>
    simp only [Screen.poll_display] at stepped
    split at stepped <;> cases stepped
    exact .store present ‹_›
  | render =>
    simp only [Screen.poll_display] at stepped
    split at stepped <;> cases stepped
    exact .render present ‹_›

theorem on_key_down_cases {screen next : Screen} {operation : Operation} (stepped : screen.on_key_down operation = some next) :
    Step screen (.does .key_down operation) next := by
  cases operation with
  | load_temp =>
    simp only [Screen.on_key_down] at stepped
    split at stepped <;> cases stepped
    exact .key_temp ‹_›
  | load_desired_temp =>
    simp only [Screen.on_key_down] at stepped
    split at stepped <;> cases stepped
    exact .key_desired_temp ‹_›
  | load_heat_on =>
    simp only [Screen.on_key_down] at stepped
    split at stepped <;> cases stepped
    exact .key_heat_on ‹_›
  | store => cases stepped
  | render =>
    simp only [Screen.on_key_down] at stepped
    split at stepped <;> cases stepped
    exact .key_render ‹_›

theorem poll_heater_apart {screen : Screen} {future : HeaterFuture} {now : Instant} :
    Apart screen (screen.poll_heater future now) := by
  unfold Screen.poll_heater
  split
  · exact ⟨rfl, rfl, fun _ present => present, rfl, rfl, rfl⟩
  · split <;> exact ⟨rfl, rfl, fun _ present => present, rfl, rfl, rfl⟩

theorem step_cases {screen next : Screen} {event : Event} (stepped : screen.step event = some next) :
    Step screen event next := by
  cases event with
  | new_display | new_heater | new_heat_loss | poll_heat_loss => exact .apart (by simp) (future_apart (by simp) stepped)
  | does drawer operation =>
    cases drawer with
    | display =>
      obtain ⟨future, present, polled⟩ := Option.bind_eq_some_iff.mp stepped
      exact poll_display_cases present polled
    | key_down => exact on_key_down_cases stepped
  | push_str key =>
    simp only [Screen.step] at stepped
    split at stepped <;> cases stepped
    exact .push_str ‹_›
  | poll_heater now =>
    obtain ⟨_, polled⟩ := Option.ite_none_left_eq_some.mp stepped
    obtain ⟨future, _, rfl⟩ := Option.map_eq_some_iff.mp polled
    exact .apart (by simp) poll_heater_apart
  | fetch_add later =>
    obtain ⟨_, added⟩ := Option.ite_none_right_eq_some.mp stepped
    cases added
    exact .apart (by simp) ⟨rfl, rfl, fun _ present => present, rfl, rfl, rfl⟩

def Screen.drawing (screen : Screen) : Drawer → Option Drawing
  | .display => screen.poll
  | .key_down => screen.callback

/-- What a drawer that is about to render has loaded from `TEMP`. -/
def Screen.loaded (screen : Screen) (drawer : Drawer) : Option Int16 :=
  match screen.drawing drawer with
  | some (.render temp _ _) => some temp
  | _ => none

/-- How often `HEAT_ON` has been stored to since the drawer has last loaded it. -/
def stores (drawer : Drawer) (trace : List Event) : Nat :=
  trace.foldl (fun count event =>
    if event = .does drawer .load_heat_on then 0
    else if event = .does .display .store then count + 1
    else count) 0

theorem stores_snoc (drawer : Drawer) (trace : List Event) (event : Event) :
    stores drawer (trace ++ [event]) =
      if event = .does drawer .load_heat_on then 0
      else if event = .does .display .store then stores drawer trace + 1
      else stores drawer trace := by
  simp [stores, List.foldl_append]

/-- What has been loaded, against the thermostat as it is after some stores to `HEAT_ON`. -/
def Drawing.Right (state : State) (stores : Nat) : Drawing → Prop
  | .load_temp | .load_desired_temp _ => True
  | .load_heat_on _ desired_temp => desired_temp = state.desired_temp
  | .store _ desired_temp heat_on | .render _ desired_temp heat_on =>
    desired_temp = state.desired_temp ∧ (heat_on = state.heat_on ↔ Even stores)

structure Loads (trace : List Event) (screen : Screen) : Prop where
  right : ∀ drawer drawing, screen.drawing drawer = some drawing → drawing.Right screen.state (stores drawer trace)
  storing : ∀ temp desired_temp heat_on, screen.poll = some (.store temp desired_temp heat_on) →
    heat_on = screen.state.heat_on ∧ switches temp desired_temp heat_on

theorem loads_init : Loads [] ({ state := { temp, desired_temp } } : Screen) := by
  constructor
  · intro drawer _ place
    cases drawer <;> cases place
  · intro _ _ _ place
    cases place

namespace Loads
variable {trace : List Event} {screen next : Screen} {event : Event}

/-- A step that stores nothing to `HEAT_ON` is about what it loads. -/
private theorem keep (loads : Loads trace screen) (event : Event) (quiet : event ≠ .does .display .store)
    (heat_on : next.state.heat_on = screen.state.heat_on) (desired_temp : next.state.desired_temp = screen.state.desired_temp)
    (right : ∀ drawer drawing, next.drawing drawer = some drawing →
      screen.drawing drawer = some drawing ∧ event ≠ .does drawer .load_heat_on ∨
        drawing.Right screen.state (stores drawer (trace ++ [event])))
    (storing : ∀ temp desired_temp heat_on, next.poll = some (.store temp desired_temp heat_on) →
      screen.poll = some (.store temp desired_temp heat_on) ∨
        heat_on = screen.state.heat_on ∧ switches temp desired_temp heat_on) : Loads (trace ++ [event]) next := by
  have same {drawing : Drawing} {count : Nat} (held : drawing.Right screen.state count) : drawing.Right next.state count := by
    cases drawing with
    | load_temp | load_desired_temp => trivial
    | load_heat_on => exact held.trans desired_temp.symm
    | store | render => exact ⟨held.1.trans desired_temp.symm, by rw [heat_on]; exact held.2⟩
  constructor
  · intro drawer drawing place
    rcases right drawer drawing place with ⟨before, unloaded⟩ | now
    · rw [stores_snoc, if_neg unloaded, if_neg quiet]
      exact same (loads.right drawer drawing before)
    · exact same now
  · intro temp desired heat place
    rw [heat_on]
    rcases storing temp desired heat place with before | now
    · exact loads.storing temp desired heat before
    · exact now

/-- The display goes on to its next operation. -/
private theorem display (loads : Loads trace screen) (operation : Operation) (quiet : operation ≠ .store)
    (heat_on : next.state.heat_on = screen.state.heat_on) (desired_temp : next.state.desired_temp = screen.state.desired_temp)
    (callback : next.callback = screen.callback)
    (right : ∀ drawing, next.poll = some drawing →
      drawing.Right screen.state (stores .display (trace ++ [.does .display operation])))
    (storing : ∀ temp desired_temp heat_on, next.poll = some (.store temp desired_temp heat_on) →
      heat_on = screen.state.heat_on ∧ switches temp desired_temp heat_on) :
    Loads (trace ++ [.does .display operation]) next := by
  apply loads.keep _ (by simpa using quiet) heat_on desired_temp
  · intro drawer drawing place
    cases drawer with
    | display => exact .inr (right drawing place)
    | key_down => exact .inl ⟨callback.symm.trans place, by simp⟩
  · exact fun temp desired_temp heat_on place => .inr (storing temp desired_temp heat_on place)

/-- The callback goes on to its next operation. -/
private theorem key_down (loads : Loads trace screen) (event : Event) (other : ∀ operation, event ≠ .does .display operation)
    (state : next.state = screen.state) (poll : next.poll = screen.poll)
    (right : ∀ drawing, next.callback = some drawing → drawing.Right screen.state (stores .key_down (trace ++ [event]))) :
    Loads (trace ++ [event]) next := by
  apply loads.keep event (other _) (by rw [state]) (by rw [state])
  · intro drawer drawing place
    cases drawer with
    | display => exact .inl ⟨poll.symm.trans place, other _⟩
    | key_down => exact .inr (right drawing place)
  · exact fun _ _ _ place => .inl (poll.symm.trans place)

theorem step (loads : Loads trace screen) (stepped : Step screen event next) : Loads (trace ++ [event]) next := by
  have right := loads.right
  cases stepped with
  | apart other apart =>
    apply loads.keep event (other _ _) apart.heat_on apart.desired_temp
    · intro drawer drawing place
      refine .inl ⟨?_, other _ _⟩
      cases drawer with
      | display => exact apart.poll.symm.trans place
      | key_down => exact apart.callback.symm.trans place
    · exact fun _ _ _ place => .inl (apart.poll.symm.trans place)
  | push_str free => exact loads.key_down _ (by simp) rfl rfl (by rintro _ ⟨⟩; trivial)
  | key_temp place => exact loads.key_down _ (by simp) rfl rfl (by rintro _ ⟨⟩; trivial)
  | key_desired_temp place => exact loads.key_down _ (by simp) rfl rfl (by rintro _ ⟨⟩; rfl)
  | key_heat_on place =>
    refine loads.key_down _ (by simp) rfl rfl ?_
    rintro _ ⟨⟩
    exact ⟨right .key_down _ place, by simp [stores_snoc]⟩
  | key_render place => exact loads.key_down _ (by simp) rfl rfl (by rintro _ ⟨⟩)
  | load_temp present free => exact loads.display _ (by simp) rfl rfl rfl (by rintro _ ⟨⟩; trivial) (by rintro _ _ _ ⟨⟩)
  | load_desired_temp present place =>
    exact loads.display _ (by simp) rfl rfl rfl (by rintro _ ⟨⟩; rfl) (by rintro _ _ _ ⟨⟩)
  | unchanged present place same => exact loads.display _ (by simp) rfl rfl rfl (by rintro _ ⟨⟩) (by rintro _ _ _ ⟨⟩)
  | changes present place differs =>
    refine loads.display _ (by simp) rfl rfl rfl ?_ ?_
    · rintro _ ⟨⟩
      exact ⟨right .display _ place, by simp [stores_snoc]⟩
    · rintro _ _ _ ⟨⟩
      exact ⟨rfl, differs⟩
  | agrees present place agrees =>
    refine loads.display _ (by simp) rfl rfl rfl ?_ ?_
    · rintro _ ⟨⟩
      exact ⟨right .display _ place, by simp [stores_snoc]⟩
    · rintro _ _ _ ⟨⟩
  | render present place => exact loads.display _ (by simp) rfl rfl rfl (by rintro _ ⟨⟩) (by rintro _ _ _ ⟨⟩)
  | @store future temp desired_temp heat_on present place =>
    -- the one store: what was right about `HEAT_ON` is wrong now, and the other way round
    obtain ⟨same, differs⟩ := loads.storing _ _ _ place
    have turned : switch temp desired_temp heat_on = !screen.state.heat_on := by rw [switch_of_switches differs, same]
    constructor
    · intro drawer drawing now
      have odd : stores drawer (trace ++ [.does .display .store]) = stores drawer trace + 1 := by simp [stores_snoc]
      have held : drawing.Right screen.state (stores drawer trace) := by
        cases drawer with
        | display => cases now; exact (right .display _ place).imp id id
        | key_down => exact right .key_down drawing now
      rw [odd]
      cases drawing with
      | load_temp | load_desired_temp => trivial
      | load_heat_on => exact held
      | store _ _ heat | render _ _ heat =>
        refine ⟨held.1, ?_⟩
        rw [turned, Nat.even_add_one, ← held.2]
        cases heat <;> cases screen.state.heat_on <;> simp
    · rintro _ _ _ ⟨⟩

end Loads

/-- The event draws a frame. -/
def Event.draws : Event → Bool
  | .does _ .render => true
  | _ => false

/-- The last of some events to have drawn a frame: its drawer, and the run before it. -/
inductive LastDraw (temp desired_temp : Int16) : List Event → List Event → Screen → Drawer → Prop
  | here {before : List Event} {earlier : Screen} {drawer : Drawer}
      (reaches : (thermostat temp desired_temp).Reaches before earlier) :
      LastDraw temp desired_temp (before ++ [.does drawer .render]) before earlier drawer
  | later {trace before : List Event} {earlier : Screen} {drawer : Drawer} {event : Event} (silent : event.draws = false)
      (last : LastDraw temp desired_temp trace before earlier drawer) :
      LastDraw temp desired_temp (trace ++ [event]) before earlier drawer

theorem lastDraw_nil {before : List Event} {earlier : Screen} {drawer : Drawer} :
    ¬ LastDraw temp desired_temp [] before earlier drawer := by
  intro last
  generalize empty : ([] : List Event) = trace at last
  cases last <;> simp at empty

theorem lastDraw_snoc {trace before : List Event} {event : Event} {earlier : Screen} {drawer : Drawer}
    (last : LastDraw temp desired_temp (trace ++ [event]) before earlier drawer) :
    event = .does drawer .render ∧ before = trace ∧ (thermostat temp desired_temp).Reaches trace earlier ∨
      event.draws = false ∧ LastDraw temp desired_temp trace before earlier drawer := by
  generalize whole : trace ++ [event] = events at last
  cases last with
  | here reaches =>
    obtain ⟨rfl, same⟩ := List.append_inj' whole rfl
    cases same
    exact .inl ⟨rfl, rfl, reaches⟩
  | later silent last =>
    obtain ⟨rfl, same⟩ := List.append_inj' whole rfl
    cases same
    exact .inr ⟨silent, last⟩

/-- The screen since the last frame. A poll that stores to `HEAT_ON` is going to draw the next one. -/
structure Drawn (before : List Event) (drawer : Drawer) (drawn : Frame) (screen : Screen) : Prop where
  frame : screen.frame = some drawn
  desired_temp : drawn.desired_temp = screen.state.desired_temp
  heat_on : (∃ temp desired_temp heat_on, screen.poll = some (.render temp desired_temp heat_on)) ∨
    (drawn.heat_on = screen.state.heat_on ↔ Even (stores drawer before))
  seen : drawer = .display → screen.state.display = some ⟨drawn.temp⟩

theorem drawn_step {trace : List Event} {screen next : Screen} {drawer : Drawer} (loads : Loads trace screen)
    (stepped : Step screen (.does drawer .render) next) :
    ∃ drawn, screen.loaded drawer = some drawn.temp ∧ Drawn trace drawer drawn next := by
  cases stepped with
  | apart other => exact absurd rfl (other _ _)
  | render present place =>
    obtain ⟨desired, heat⟩ := loads.right .display _ place
    exact ⟨_, by simp [Screen.loaded, Screen.drawing, place], rfl, desired, .inr heat, fun _ => rfl⟩
  | key_render place =>
    obtain ⟨desired, heat⟩ := loads.right .key_down _ place
    exact ⟨_, by simp [Screen.loaded, Screen.drawing, place], rfl, desired, .inr heat, fun same => nomatch same⟩

theorem Drawn.step {before : List Event} {screen next : Screen} {event : Event} {drawer : Drawer} {drawn : Frame}
    (kept : Drawn before drawer drawn screen) (stepped : Step screen event next) (silent : event.draws = false) :
    Drawn before drawer drawn next := by
  obtain ⟨frame, desired, heat, seen⟩ := kept
  cases stepped with
  | apart _ apart =>
    refine ⟨apart.frame.trans frame, desired.trans apart.desired_temp.symm, ?_, fun own => apart.display _ (seen own)⟩
    rw [apart.poll, apart.heat_on]
    exact heat
  | render | key_render => cases silent
  | push_str | key_temp | key_desired_temp | key_heat_on => exact ⟨frame, desired, heat, seen⟩
  | store => exact ⟨frame, desired, .inl ⟨_, _, _, rfl⟩, seen⟩
  | load_temp _ place | load_desired_temp _ place | unchanged _ place | changes _ place | agrees _ place =>
    refine ⟨frame, desired, .inr (heat.resolve_left fun rendering => ?_), seen⟩
    obtain ⟨_, _, _, rendering⟩ := rendering
    cases place.symm.trans rendering

theorem reaches_loads {trace : List Event} {screen : Screen} (reaches : (thermostat temp desired_temp).Reaches trace screen) :
    Loads trace screen :=
  reaches.trace_invariant Loads loads_init fun _ _ _ _ _ loads stepped => loads.step (step_cases stepped)

/-- The last frame comes from the last event that draws. -/
theorem reaches_drawn {trace : List Event} {screen : Screen} (reaches : (thermostat temp desired_temp).Reaches trace screen) :
    (∀ before earlier drawer, LastDraw temp desired_temp trace before earlier drawer →
        ∃ drawn, earlier.loaded drawer = some drawn.temp ∧ Drawn before drawer drawn screen) ∧
      (screen.frame ≠ none → ∃ before earlier drawer, LastDraw temp desired_temp trace before earlier drawer) := by
  refine reaches.trace_invariant (fun trace screen =>
    (∀ before earlier drawer, LastDraw temp desired_temp trace before earlier drawer →
        ∃ drawn, earlier.loaded drawer = some drawn.temp ∧ Drawn before drawer drawn screen) ∧
      (screen.frame ≠ none → ∃ before earlier drawer, LastDraw temp desired_temp trace before earlier drawer)) ?_ ?_
  · exact ⟨fun _ _ _ last => absurd last lastDraw_nil, fun shown => absurd rfl shown⟩
  · intro trace screen event next reaches held stepped
    have moved := step_cases stepped
    refine ⟨?_, ?_⟩
    · intro before earlier drawer last
      rcases lastDraw_snoc last with ⟨rfl, rfl, reached⟩ | ⟨silent, last⟩
      · cases reached.symm.trans reaches
        exact drawn_step (reaches_loads reaches) moved
      · obtain ⟨drawn, loaded, kept⟩ := held.1 before earlier drawer last
        exact ⟨drawn, loaded, kept.step moved silent⟩
    · intro shown
      cases draws : event.draws with
      | true =>
        obtain ⟨drawer, rfl⟩ : ∃ drawer, event = .does drawer .render := by
          unfold Event.draws at draws
          split at draws
          · exact ⟨_, rfl⟩
          · cases draws
        exact ⟨_, _, _, .here reaches⟩
      | false =>
        have same : next.frame = screen.frame := by
          cases moved with
          | apart _ apart => exact apart.frame
          | render | key_render => cases draws
          | _ => rfl
        obtain ⟨before, earlier, drawer, last⟩ := held.2 (same ▸ shown)
        exact ⟨before, earlier, drawer, .later draws last⟩

def Frame.shows (frame : Frame) (state : State) : Prop :=
  frame.temp = state.temp ∧ frame.desired_temp = state.desired_temp ∧ frame.heat_on = state.heat_on

/-- When no poll is in progress and the display has nothing new to see, the last
frame shows the thermostat as it is if and only if its drawer had loaded the
temperature of the snapshot, and `HEAT_ON` was stored to an even number of times
between its load of it and the frame. -/
theorem frame_shows_iff {trace : List Event} {screen : Screen} {future : DisplayFuture} {frame : Frame}
    (reaches : (thermostat temp desired_temp).Reaches trace screen) (idle : screen.idle)
    (_present : screen.state.display = some future) (shown : screen.frame = some frame)
    (settled : screen.state.temp = future.temp_snapshot) :
    frame.shows screen.state ↔
      ∃ before earlier drawer, LastDraw temp desired_temp trace before earlier drawer ∧
        earlier.loaded drawer = some future.temp_snapshot ∧ Even (stores drawer before) := by
  obtain ⟨facts, drawn_once⟩ := reaches_drawn reaches
  have truth (before : List Event) (earlier : Screen) (drawer : Drawer)
      (last : LastDraw temp desired_temp trace before earlier drawer) :
      frame.shows screen.state ↔ earlier.loaded drawer = some future.temp_snapshot ∧ Even (stores drawer before) := by
    obtain ⟨drawn, loaded, kept⟩ := facts before earlier drawer last
    cases shown.symm.trans kept.frame
    have heat := kept.heat_on.resolve_left fun rendering => by
      obtain ⟨_, _, _, rendering⟩ := rendering
      cases idle.1.symm.trans rendering
    rw [Frame.shows, heat, loaded, settled, Option.some.injEq]
    exact and_congr_right fun _ => and_iff_right kept.desired_temp
  constructor
  · intro shows
    obtain ⟨before, earlier, drawer, last⟩ := drawn_once (by rw [shown]; exact Option.some_ne_none _)
    exact ⟨before, earlier, drawer, last, (truth before earlier drawer last).mp shows⟩
  · intro drew
    obtain ⟨before, earlier, drawer, last, honest⟩ := drew
    exact (truth before earlier drawer last).mpr honest

/-- A key is pressed after the heat loss, and its thread waits while a poll of the
display switches the heater on and draws; then it draws the heater as it was. -/
theorem frame_shows_iff_pressed :
    let trace : List Event := [.new_display, .new_heat_loss 0, .poll_heat_loss 4000000000 4000000000, .push_str "A",
      .does .key_down .load_temp, .does .key_down .load_desired_temp, .does .key_down .load_heat_on,
      .does .display .load_temp, .does .display .load_desired_temp, .does .display .load_heat_on, .does .display .store,
      .does .display .render, .does .key_down .render]
    ∃ screen future frame, (thermostat 2090 2100).Reaches trace screen ∧ screen.idle ∧
      screen.state.display = some future ∧ screen.frame = some frame ∧ screen.state.temp = future.temp_snapshot ∧
      (frame.shows screen.state ↔
        ∃ before earlier drawer, LastDraw 2090 2100 trace before earlier drawer ∧
          earlier.loaded drawer = some future.temp_snapshot ∧ Even (stores drawer before)) := by
  intro trace
  obtain ⟨screen, reaches⟩ : ∃ screen, (thermostat 2090 2100).Reaches trace screen := ⟨_, rfl⟩
  cases reaches
  exact ⟨_, ⟨2089⟩, _, rfl, ⟨rfl, rfl⟩, rfl, rfl, rfl, frame_shows_iff rfl ⟨rfl, rfl⟩ rfl rfl rfl⟩

/-- The poll that switches the heater on draws it as off. -/
theorem not_frame_shows :
    ¬ ∀ (trace : List Event) (screen : Screen) (future : DisplayFuture) (frame : Frame),
      (thermostat 2090 2100).Reaches trace screen → screen.idle → screen.state.display = some future →
        screen.frame = some frame → screen.state.temp = future.temp_snapshot → frame.shows screen.state := by
  intro always
  have shows := always [.new_display, .new_heat_loss 0, .poll_heat_loss 4000000000 4000000000,
    .does .display .load_temp, .does .display .load_desired_temp, .does .display .load_heat_on, .does .display .store,
    .does .display .render] _ ⟨2089⟩ ⟨2089, 2100, false, ""⟩ rfl ⟨rfl, rfl⟩ rfl rfl rfl
  cases shows.2.2

theorem switch_of_agrees {heat_on : Bool} (agrees : ¬ switches temp desired_temp heat_on) :
    switch temp desired_temp heat_on = heat_on := by
  rw [switches, not_or] at agrees
  rw [switch, if_neg agrees.1, if_neg agrees.2]

/-- What a poll of the display has made of `HEAT_ON` when it draws. -/
theorem reaches_switched {trace : List Event} {screen : Screen} (reaches : (thermostat temp desired_temp).Reaches trace screen)
    {loaded desired : Int16} {heat_on : Bool} (drawing : screen.poll = some (.render loaded desired heat_on)) :
    screen.state.heat_on = switch loaded desired heat_on := by
  refine reaches.invariant (fun screen => ∀ loaded desired heat_on, screen.poll = some (.render loaded desired heat_on) →
    screen.state.heat_on = switch loaded desired heat_on) (by rintro _ _ _ ⟨⟩) ?_ loaded desired heat_on drawing
  intro screen event next held stepped loaded desired heat_on place
  cases step_cases stepped with
  | apart _ apart =>
    rw [apart.heat_on]
    exact held _ _ _ (apart.poll.symm.trans place)
  | push_str | key_temp | key_desired_temp | key_heat_on | key_render => exact held _ _ _ place
  | load_temp | load_desired_temp | unchanged | changes | render => cases place
  | agrees _ _ agrees =>
    cases place
    exact (switch_of_agrees agrees).symm
  | store =>
    cases place
    rfl

/-- For a frame of the display, the number of stores is about its own poll. -/
theorem display_even_iff {trace : List Event} {screen : Screen} (reaches : (thermostat temp desired_temp).Reaches trace screen)
    {loaded desired : Int16} {heat_on : Bool} (drawing : screen.poll = some (.render loaded desired heat_on)) :
    Even (stores .display trace) ↔ ¬ switches loaded desired heat_on := by
  rw [← ((reaches_loads reaches).right .display _ drawing).2, reaches_switched reaches drawing]
  constructor
  · intro same changes
    rw [switch_of_switches changes] at same
    cases heat_on <;> cases same
  · exact fun agrees => (switch_of_agrees agrees).symm

section Uninterrupted
variable {screen : Screen}

/-- A poll of the display that nobody interrupts is the one step of the thermostat. -/
theorem poll_display_whole (free : screen.poll = none) {future : DisplayFuture} (present : screen.state.display = some future) :
    ∃ events frame, (thermostat temp desired_temp).runFrom screen events =
      some { screen with state := screen.state.poll_display future, frame := frame } := by
  let drawn : Frame := ⟨screen.state.temp, screen.state.desired_temp, screen.state.heat_on, screen.input⟩
  by_cases same : screen.state.temp = future.temp_snapshot
  · refine ⟨[.does .display .load_temp, .does .display .load_desired_temp, .does .display .load_heat_on], screen.frame, ?_⟩
    simp [thermostat, Screen.step, Screen.poll_display, State.poll_display, present, same, free]
  · by_cases changes : switches screen.state.temp screen.state.desired_temp screen.state.heat_on
    · refine ⟨[.does .display .load_temp, .does .display .load_desired_temp, .does .display .load_heat_on,
        .does .display .store, .does .display .render], some drawn, ?_⟩
      rw [switches] at changes
      simp [thermostat, Screen.step, Screen.poll_display, State.poll_display, present, same, free, changes, drawn]
    · refine ⟨[.does .display .load_temp, .does .display .load_desired_temp, .does .display .load_heat_on,
        .does .display .render], some drawn, ?_⟩
      have kept := switch_of_agrees changes
      rw [switches] at changes
      simp [thermostat, Screen.step, Screen.poll_display, State.poll_display, present, same, free, changes, kept, drawn]

theorem poll_heater_whole (free : screen.heating = false) {future : HeaterFuture} (present : screen.state.heater = some future)
    (now later : Instant) :
    ∃ events, (thermostat temp desired_temp).runFrom screen events =
      some { screen with state := screen.state.poll_heater future now later } := by
  by_cases cold : screen.state.heat_on = false
  · refine ⟨[.poll_heater now], ?_⟩
    simp [thermostat, Screen.step, Screen.poll_heater, State.poll_heater, present, free, cold]
  · by_cases early : duration_since now future.time_snapshot < from_secs 3
    · refine ⟨[.poll_heater now], ?_⟩
      simp [thermostat, Screen.step, Screen.poll_heater, State.poll_heater, present, free, cold, early]
      rw [← free]
    · refine ⟨[.poll_heater now, .fetch_add later], ?_⟩
      simp [thermostat, Screen.step, Screen.poll_heater, State.poll_heater, present, free, cold, early]

/-- Each run of the thermostat whose polls are one step is a run with a screen. -/
theorem thermostat_run {trace : List ThermoControl.Event} {state : State}
    (reaches : (ThermoControl.thermostat temp desired_temp).Reaches trace state) :
    ∃ events screen, (thermostat temp desired_temp).Reaches events screen ∧ screen.idle ∧ screen.state = state := by
  refine reaches.invariant (fun state => ∃ events screen, (thermostat temp desired_temp).Reaches events screen ∧
    screen.idle ∧ screen.state = state) ⟨[], _, Machine.Reaches.nil, ⟨rfl, rfl⟩, rfl⟩ ?_
  intro state event next held stepped
  obtain ⟨events, screen, reached, ⟨free, cool⟩, rfl⟩ := held
  replace stepped : screen.state.step event = some next := stepped
  have single (own : Event) (moved : screen.step own = screen.future event) :
      ∃ events screen, (thermostat temp desired_temp).Reaches events screen ∧ screen.idle ∧ screen.state = next := by
    rw [Screen.future, stepped, Option.map_some] at moved
    exact ⟨events ++ [own], { screen with state := next }, reached.snoc moved, ⟨free, cool⟩, rfl⟩
  cases event with
  | new_display => exact single .new_display rfl
  | new_heater now => exact single (.new_heater now) rfl
  | new_heat_loss now => exact single (.new_heat_loss now) rfl
  | poll_heat_loss now later => exact single (.poll_heat_loss now later) rfl
  | poll_display =>
    obtain ⟨future, present, rfl⟩ := Option.map_eq_some_iff.mp stepped
    obtain ⟨more, frame, runs⟩ := poll_display_whole free present
    exact ⟨_, _, reached.append runs, ⟨free, cool⟩, rfl⟩
  | poll_heater now later =>
    obtain ⟨future, present, rfl⟩ := Option.map_eq_some_iff.mp stepped
    obtain ⟨more, runs⟩ := poll_heater_whole cool present now later
    exact ⟨_, _, reached.append runs, ⟨free, cool⟩, rfl⟩

end Uninterrupted

end RustAsyncAwait.ThermoScreen
