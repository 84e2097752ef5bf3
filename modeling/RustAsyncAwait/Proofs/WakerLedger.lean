import RustAsyncAwait.RawWaker

/-! What the wakers of chap10 release, and how often. The box of `raw_waker.rs`
has as many owners as handles; `MyWaker` counts them. -/

namespace RustAsyncAwait.RawWaker
open Library

variable {trace : List WakerEvent} {state next : Wakers Memory} {event : WakerEvent}

/-- This event clones no handle on this box. -/
def NoClone (data : Pointer) (state : Wakers Memory) (event : WakerEvent) : Prop :=
  ∀ handle, event = .clone handle → state.usable handle ≠ some data

/-- This event wakes no such handle by value, and drops none. -/
def NoConsume (data : Pointer) (state : Wakers Memory) (event : WakerEvent) : Prop :=
  ∀ handle, event = .wake handle ∨ event = .drop handle → state.usable handle ≠ some data

/-- The ledger of all boxes. -/
structure Ledger (trace : List WakerEvent) (state : Wakers Memory) : Prop where
  boxes : state.Allocates state.memory.boxes
  releases : ∀ data, state.memory.from_raw.count data + state.alive data = state.made data
  cloned : ∀ data, wakers.Meets (NoClone data) trace ↔ state.made data ≤ 1
  consumed : ∀ data, wakers.Meets (NoConsume data) trace ↔ state.memory.from_raw.count data = 0

theorem ledger_init : Ledger [] { memory := {} } := by
  constructor <;> simp [Wakers.Allocates, Wakers.made, Wakers.alive, Machine.meets_nil]

theorem NoClone.of_event {data : Pointer} (other : ∀ handle, event ≠ .clone handle) : NoClone data state event :=
  fun handle same => absurd same (other handle)

theorem NoConsume.of_event {data : Pointer} (other : ∀ handle, ¬ (event = .wake handle ∨ event = .drop handle)) :
    NoConsume data state event :=
  fun handle same => absurd same (other handle)

theorem count_drop_box (memory : Memory) (data other : Pointer) :
    (memory.drop_box data).from_raw.count other = memory.from_raw.count other + if data = other then 1 else 0 := by
  simp [Memory.drop_box, List.count_append, List.count_singleton]

theorem Ledger.consume (ledger : Ledger trace state) (reaches : wakers.Reaches trace state) {handle : Nat} {data : Pointer}
    (usable : state.usable handle = some data) (event : WakerEvent)
    (consumes : ∀ used, event = .wake used ∨ event = .drop used ↔ used = handle) (other : ∀ used, event ≠ .clone used) :
    Ledger (trace ++ [event]) (state.consume handle data (state.memory.drop_box data)) where
  boxes := ledger.boxes.consume usable _
  releases some_ := by
    have before := ledger.releases some_
    have less := Wakers.alive_consume usable (state.memory.drop_box data) some_
    rw [Wakers.consume_memory, count_drop_box, Wakers.made_consume usable]
    omega
  cloned some_ := by
    rw [Machine.meets_snoc_of reaches (NoClone.of_event other), Wakers.made_consume usable]
    exact ledger.cloned some_
  consumed some_ := by
    rw [Wakers.consume_memory, count_drop_box]
    by_cases same : data = some_
    · subst same
      rw [Machine.meets_snoc reaches, if_pos rfl]
      constructor
      · intro both
        exact absurd usable (both.2 handle ((consumes handle).mpr rfl))
      · intro zero
        omega
    · rw [if_neg same, Nat.add_zero, ← ledger.consumed some_]
      apply Machine.meets_snoc_of reaches
      intro used matched
      cases (consumes used).mp matched
      exact Wakers.usable_ne usable same

theorem Ledger.create (ledger : Ledger trace state) (reaches : wakers.Reaches trace state) :
    Ledger (trace ++ [.create]) (state.add (create_raw_waker state.memory)) where
  boxes := ledger.boxes.create _
  releases data := by
    rw [Wakers.made_add, Wakers.alive_add, ← Nat.add_assoc]
    exact congrArg (· + _) (ledger.releases data)
  cloned data := by
    rw [Machine.meets_snoc_of reaches (NoClone.of_event (by simp)), ledger.cloned, Wakers.made_add]
    by_cases same : state.memory.boxes = data
    · subst same
      simp [create_raw_waker, ledger.boxes.fresh]
    · simp [create_raw_waker, same]
  consumed data := by
    rw [Machine.meets_snoc_of reaches (NoConsume.of_event (by simp))]
    exact ledger.consumed data

theorem Ledger.clone (ledger : Ledger trace state) (reaches : wakers.Reaches trace state) {handle : Nat} {data : Pointer}
    (usable : state.usable handle = some data) :
    Ledger (trace ++ [.clone handle]) (state.add (my_clone data state.memory)) where
  boxes := ledger.boxes.clone usable _
  releases other := by
    rw [Wakers.made_add, Wakers.alive_add, ← Nat.add_assoc]
    exact congrArg (· + _) (ledger.releases other)
  cloned other := by
    rw [Wakers.made_add, my_clone]
    by_cases same : data = other
    · subst same
      have some_ := Wakers.made_pos usable
      rw [Machine.meets_snoc reaches, if_pos rfl]
      constructor
      · intro both
        exact absurd usable (both.2 handle rfl)
      · intro small
        omega
    · rw [if_neg same, Nat.add_zero, ← ledger.cloned other]
      apply Machine.meets_snoc_of reaches
      intro used equal
      cases equal
      exact Wakers.usable_ne usable same
  consumed other := by
    rw [Machine.meets_snoc_of reaches (NoConsume.of_event (by simp))]
    exact ledger.consumed other

theorem Ledger.wake_by_ref (ledger : Ledger trace state) (reaches : wakers.Reaches trace state) (handle : Nat) :
    Ledger (trace ++ [.wake_by_ref handle]) state where
  boxes := ledger.boxes
  releases := ledger.releases
  cloned data := by
    rw [Machine.meets_snoc_of reaches (NoClone.of_event (by simp))]
    exact ledger.cloned data
  consumed data := by
    rw [Machine.meets_snoc_of reaches (NoConsume.of_event (by simp))]
    exact ledger.consumed data

theorem reaches_ledger (reaches : wakers.Reaches trace state) : Ledger trace state := by
  refine reaches.trace_invariant Ledger ledger_init ?_
  intro trace state event next earlier ledger stepped
  cases RawWakerVTable.step_cases stepped with
  | create => exact ledger.create earlier
  | clone usable => exact ledger.clone earlier usable
  | @wake handle _ usable => exact ledger.consume earlier usable (.wake handle) (by simp [eq_comm]) (fun _ => nofun)
  | @wake_by_ref handle => exact ledger.wake_by_ref earlier handle
  | @drop handle _ usable => exact ledger.consume earlier usable (.drop handle) (by simp [eq_comm]) (fun _ => nofun)

/-- A box is released as it should be if and only if no handle on it is cloned, or none consumed. -/
theorem box_released_iff (reaches : wakers.Reaches trace state) {data : Pointer} (created : data < state.memory.boxes) :
    state.Released data (state.memory.from_raw.count data) ↔
      wakers.Meets (NoClone data) trace ∨ wakers.Meets (NoConsume data) trace := by
  have ledger := reaches_ledger reaches
  have some_ := (ledger.boxes data).mpr created
  have total := ledger.releases data
  rw [Wakers.released_counts, ledger.cloned, ledger.consumed]
  omega

/-- Two boxes, each of which has one handle; one is woken, one dropped. -/
theorem box_released_iff_two :
    let trace : List WakerEvent := [.create, .create, .wake_by_ref 0, .drop 0, .wake 1]
    ∃ state, wakers.Reaches trace state ∧ (state.Released 1 (state.memory.from_raw.count 1) ↔
      wakers.Meets (NoClone 1) trace ∨ wakers.Meets (NoConsume 1) trace) := by
  intro trace
  have reaches : wakers.Reaches trace ⟨⟨2, [0, 1]⟩, [⟨0, false⟩, ⟨1, false⟩]⟩ := rfl
  exact ⟨_, reaches, box_released_iff reaches (by decide)⟩

/-- A handle is cloned, and the clone dropped. -/
theorem not_released :
    ¬ ∀ (trace : List WakerEvent) (state : Wakers Memory) (data : Pointer), wakers.Reaches trace state →
      data < state.memory.boxes → state.Released data (state.memory.from_raw.count data) := by
  intro always
  have released := always [.create, .clone 0, .drop 1] _ 0 rfl (by decide)
  exact absurd (released.live (by decide)) (by decide)

end RustAsyncAwait.RawWaker

namespace RustAsyncAwait.MyWaker
open Library

variable {trace : List WakerEvent} {state : Wakers Memory}

/-- An `Arc` counts the handles that are live, and is dropped with the last one. -/
structure Counted (state : Wakers Memory) : Prop where
  arcs : state.Allocates state.memory.arcs
  strong : ∀ data, state.memory.strong data = state.alive data
  drops : ∀ data, state.memory.dropped.count data + (if 0 < state.alive data then 1 else 0) =
    if 0 < state.made data then 1 else 0

theorem strong_increment (memory : Memory) (data other : Pointer) :
    (memory.increment_strong_count data).strong other = memory.strong other + if data = other then 1 else 0 := by
  simp only [Memory.increment_strong_count]
  by_cases same : data = other
  · subst same
    rw [Function.update_self, if_pos rfl]
  · rw [Function.update_of_ne (Ne.symm same), if_neg same, Nat.add_zero]

theorem strong_drop_arc (memory : Memory) (data other : Pointer) :
    (memory.drop_arc data).strong other = memory.strong other - if data = other then 1 else 0 := by
  simp only [Memory.drop_arc]
  by_cases same : data = other
  · subst same
    rw [Function.update_self, if_pos rfl]
  · rw [Function.update_of_ne (Ne.symm same), if_neg same, Nat.sub_zero]

theorem count_drop_arc (memory : Memory) (data other : Pointer) :
    (memory.drop_arc data).dropped.count other =
      memory.dropped.count other + if memory.strong data = 1 ∧ data = other then 1 else 0 := by
  unfold Memory.drop_arc
  by_cases last : memory.strong data = 1
  · simp [last, List.count_append, List.count_singleton]
  · simp [last]

theorem strong_create {memory : Memory} (unused : memory.strong memory.arcs = 0) (data : Pointer) :
    (create_waker memory).2.strong data = memory.strong data + if memory.arcs = data then 1 else 0 := by
  simp only [create_waker]
  by_cases same : memory.arcs = data
  · subst same
    rw [Function.update_self, if_pos rfl, unused]
  · rw [Function.update_of_ne (Ne.symm same), if_neg same, Nat.add_zero]

theorem Counted.create (counted : Counted state) : Counted (state.add (create_waker state.memory)) where
  arcs := counted.arcs.create _
  strong data := by
    have idle : state.alive state.memory.arcs = 0 := Nat.le_zero.mp (counted.arcs.fresh ▸ state.alive_le_made _)
    rw [Wakers.add_memory, strong_create (counted.strong _ ▸ idle), Wakers.alive_add, counted.strong, create_waker]
  drops data := by
    have before := counted.drops data
    rw [Wakers.made_add, Wakers.alive_add, Wakers.add_memory, create_waker]
    by_cases same : state.memory.arcs = data
    · subst same
      have idle := state.alive_le_made state.memory.arcs
      rw [counted.arcs.fresh] at idle
      simpa [counted.arcs.fresh, Nat.le_zero.mp idle] using before
    · simpa only [if_neg same, Nat.add_zero] using before

theorem Counted.clone (counted : Counted state) {handle : Nat} {data : Pointer} (usable : state.usable handle = some data) :
    Counted (state.add (vtable.clone data state.memory)) where
  arcs := counted.arcs.clone usable _
  strong other := by
    rw [Wakers.add_memory, vtable, strong_increment, Wakers.alive_add, counted.strong]
  drops other := by
    have before := counted.drops other
    have live := Wakers.alive_pos usable
    have some_ := Wakers.made_pos usable
    simp only [Wakers.made_add, Wakers.alive_add, Wakers.add_memory, vtable, Memory.increment_strong_count]
    by_cases same : data = other
    · subst same
      simpa [live, some_] using before
    · simpa only [if_neg same, Nat.add_zero] using before

theorem Counted.consume (counted : Counted state) {handle : Nat} {data : Pointer} (usable : state.usable handle = some data) :
    Counted (state.consume handle data (state.memory.drop_arc data)) where
  arcs := counted.arcs.consume usable _
  strong other := by
    have fewer := Wakers.alive_consume usable (state.memory.drop_arc data) other
    rw [Wakers.consume_memory, strong_drop_arc, counted.strong]
    omega
  drops other := by
    have before := counted.drops other
    have fewer := Wakers.alive_consume usable (state.memory.drop_arc data) other
    rw [Wakers.consume_memory, count_drop_arc, Wakers.made_consume usable, counted.strong]
    by_cases same : data = other
    · subst same
      have live := Wakers.alive_pos usable
      rw [if_pos rfl] at fewer
      by_cases last : state.alive data = 1
      · have none : (state.consume handle data (state.memory.drop_arc data)).alive data = 0 := by omega
        simpa [last, none] using before
      · have more : 0 < (state.consume handle data (state.memory.drop_arc data)).alive data := by omega
        simpa [last, more, live] using before
    · rw [if_neg same, Nat.add_zero] at fewer
      simpa [same, fewer] using before

/-- Waking by reference takes back what it has added. -/
theorem wake_by_ref_eq {memory : Memory} {data : Pointer} (live : 0 < memory.strong data) : wake_by_ref data memory = memory := by
  unfold wake_by_ref wake Memory.increment_strong_count Memory.drop_arc
  have more : memory.strong data + 1 ≠ 1 := by omega
  simp only [Function.update_self, if_neg more, Nat.add_sub_cancel, Function.update_idem, Function.update_eq_self]

theorem reaches_counted (reaches : wakers.Reaches trace state) : Counted state := by
  refine reaches.invariant Counted ?_ ?_
  · constructor <;> simp [wakers, RawWakerVTable.wakers, Wakers.Allocates, Wakers.made, Wakers.alive]
  · intro state event next counted stepped
    cases RawWakerVTable.step_cases stepped with
    | create => exact counted.create
    | clone usable => exact counted.clone usable
    | wake usable => exact counted.consume usable
    | @wake_by_ref _ data usable =>
      have live : 0 < state.memory.strong data := counted.strong data ▸ Wakers.alive_pos usable
      rw [show vtable.wake_by_ref = wake_by_ref from rfl, wake_by_ref_eq live]
      exact counted
    | drop usable => exact counted.consume usable

/-- The wakers of the executor are released with their last handle, however they are cloned. -/
theorem reaches_released (reaches : wakers.Reaches trace state) {data : Pointer} (created : data < state.memory.arcs) :
    state.Released data (state.memory.dropped.count data) := by
  have counted := reaches_counted reaches
  have drops := counted.drops data
  rw [if_pos ((counted.arcs data).mpr created)] at drops
  rw [Wakers.released_counts]
  refine ⟨fun live => ?_, fun none => ?_⟩
  · rw [if_pos live] at drops
    omega
  · rw [if_neg (by omega)] at drops
    omega

/-- A waker is cloned, both handles are used up, and a second one is made. -/
theorem reaches_released_cloned :
    let trace : List WakerEvent := [.create, .clone 0, .wake_by_ref 1, .drop 0, .wake 1, .create]
    ∃ state, wakers.Reaches trace state ∧ state.memory.dropped = [0] ∧
      state.Released 0 (state.memory.dropped.count 0) ∧ state.Released 1 (state.memory.dropped.count 1) := by
  intro trace
  obtain ⟨state, reaches, arcs, dropped⟩ :
      ∃ state, wakers.Reaches trace state ∧ state.memory.arcs = 2 ∧ state.memory.dropped = [0] := ⟨_, rfl, rfl, rfl⟩
  have first : 0 < state.memory.arcs := arcs ▸ Nat.zero_lt_two
  have second : 1 < state.memory.arcs := arcs ▸ Nat.one_lt_two
  exact ⟨state, reaches, dropped, reaches_released reaches first, reaches_released reaches second⟩

end RustAsyncAwait.MyWaker
