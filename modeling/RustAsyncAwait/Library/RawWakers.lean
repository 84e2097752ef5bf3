import RustAsyncAwait.Library.Machine
import RustAsyncAwait.Library.Lists

/-! Wakers made by hand. A `RawWaker` is a pointer with a table of functions;
the `Waker` around it calls them, and is used up by `wake` and by `drop`. -/

namespace RustAsyncAwait.Library

/-- What a data pointer points at, as the number of its allocation. -/
abbrev Pointer := Nat

universe u

/-- The functions of a `RawWakerVTable`, with what they do to the memory. The
`RawWaker` that `clone` returns is its data pointer. -/
structure RawWakerVTable (M : Type u) where
  clone : Pointer → M → Pointer × M
  wake : Pointer → M → M
  wake_by_ref : Pointer → M → M
  drop : Pointer → M → M

/-- A `Waker`, which is live until it has been consumed. -/
structure Handle where
  data : Pointer
  live : Bool := true
  deriving Repr, DecidableEq

structure Wakers (M : Type u) where
  memory : M
  handles : List Handle := []

inductive WakerEvent
  | create
  | clone (handle : Nat)
  | wake (handle : Nat)
  | wake_by_ref (handle : Nat)
  | drop (handle : Nat)
  deriving Repr, DecidableEq

namespace Wakers
variable {M : Type u}

/-- The pointer of a handle that can be used. -/
def usable (wakers : Wakers M) (handle : Nat) : Option Pointer :=
  (wakers.handles[handle]?.filter Handle.live).map Handle.data

/-- The number of handles that have been made with this pointer, and of those that are live. -/
def made (wakers : Wakers M) (data : Pointer) : Nat := wakers.handles.countP fun handle => handle.data = data

def alive (wakers : Wakers M) (data : Pointer) : Nat := wakers.handles.countP fun handle => handle.data = data ∧ handle.live

def add (wakers : Wakers M) (made : Pointer × M) : Wakers M :=
  { memory := made.2, handles := wakers.handles ++ [{ data := made.1 }] }

def consume (wakers : Wakers M) (handle : Nat) (data : Pointer) (memory : M) : Wakers M :=
  { memory, handles := wakers.handles.set handle { data, live := false } }

end Wakers

variable {M : Type u}

/-- Each handle is consumed at most once and used only before that, as the contract of `RawWaker` has it. -/
def RawWakerVTable.step (vtable : RawWakerVTable M) (create : M → Pointer × M) (wakers : Wakers M) :
    WakerEvent → Option (Wakers M)
  | .create => some (wakers.add (create wakers.memory))
  | .clone handle => (wakers.usable handle).map fun data => wakers.add (vtable.clone data wakers.memory)
  | .wake handle => (wakers.usable handle).map fun data => wakers.consume handle data (vtable.wake data wakers.memory)
  | .wake_by_ref handle =>
    (wakers.usable handle).map fun data => { wakers with memory := vtable.wake_by_ref data wakers.memory }
  | .drop handle => (wakers.usable handle).map fun data => wakers.consume handle data (vtable.drop data wakers.memory)

def RawWakerVTable.wakers (vtable : RawWakerVTable M) (create : M → Pointer × M) (memory : M) : Machine (Wakers M) WakerEvent where
  init := { memory }
  step := vtable.step create

/-- What a step does, with the pointer of the handle that it uses. -/
inductive RawWakerVTable.Step (vtable : RawWakerVTable M) (create : M → Pointer × M) (wakers : Wakers M) :
    WakerEvent → Wakers M → Prop
  | create : vtable.Step create wakers .create (wakers.add (create wakers.memory))
  | clone {handle : Nat} {data : Pointer} (usable : wakers.usable handle = some data) :
      vtable.Step create wakers (.clone handle) (wakers.add (vtable.clone data wakers.memory))
  | wake {handle : Nat} {data : Pointer} (usable : wakers.usable handle = some data) :
      vtable.Step create wakers (.wake handle) (wakers.consume handle data (vtable.wake data wakers.memory))
  | wake_by_ref {handle : Nat} {data : Pointer} (usable : wakers.usable handle = some data) :
      vtable.Step create wakers (.wake_by_ref handle) { wakers with memory := vtable.wake_by_ref data wakers.memory }
  | drop {handle : Nat} {data : Pointer} (usable : wakers.usable handle = some data) :
      vtable.Step create wakers (.drop handle) (wakers.consume handle data (vtable.drop data wakers.memory))

theorem RawWakerVTable.step_cases {vtable : RawWakerVTable M} {create : M → Pointer × M} {wakers next : Wakers M}
    {event : WakerEvent} (stepped : vtable.step create wakers event = some next) : vtable.Step create wakers event next := by
  cases event with
  | create =>
    cases stepped
    exact .create
  | clone handle =>
    obtain ⟨data, usable, rfl⟩ := Option.map_eq_some_iff.mp stepped
    exact .clone usable
  | wake handle =>
    obtain ⟨data, usable, rfl⟩ := Option.map_eq_some_iff.mp stepped
    exact .wake usable
  | wake_by_ref handle =>
    obtain ⟨data, usable, rfl⟩ := Option.map_eq_some_iff.mp stepped
    exact .wake_by_ref usable
  | drop handle =>
    obtain ⟨data, usable, rfl⟩ := Option.map_eq_some_iff.mp stepped
    exact .drop usable

namespace Wakers
variable {wakers : Wakers M} {handle : Nat} {data : Pointer}

theorem usable_iff : wakers.usable handle = some data ↔ wakers.handles[handle]? = some ⟨data, true⟩ := by
  unfold usable
  constructor
  · intro usable
    obtain ⟨⟨_, live⟩, kept, rfl⟩ := Option.map_eq_some_iff.mp usable
    obtain ⟨found, rfl⟩ := Option.filter_eq_some_iff.mp kept
    exact found
  · intro found
    simp [found]

@[simp] theorem add_memory (wakers : Wakers M) (made : Pointer × M) : (wakers.add made).memory = made.2 := rfl

@[simp] theorem consume_memory (wakers : Wakers M) (handle : Nat) (data : Pointer) (memory : M) :
    (wakers.consume handle data memory).memory = memory := rfl

theorem usable_ne {other : Pointer} (usable : wakers.usable handle = some data) (different : data ≠ other) :
    wakers.usable handle ≠ some other := by
  rw [usable]
  exact fun equal => different (Option.some.inj equal)

theorem made_add (wakers : Wakers M) (made : Pointer × M) (data : Pointer) :
    (wakers.add made).made data = wakers.made data + if made.1 = data then 1 else 0 := by
  simp [add, Wakers.made, List.countP_append, List.countP_singleton]

theorem alive_add (wakers : Wakers M) (made : Pointer × M) (data : Pointer) :
    (wakers.add made).alive data = wakers.alive data + if made.1 = data then 1 else 0 := by
  simp [add, alive, List.countP_append, List.countP_singleton]

theorem made_consume (usable : wakers.usable handle = some data) (memory : M) (other : Pointer) :
    (wakers.consume handle data memory).made other = wakers.made other := by
  have traded := countP_set (fun handle => decide (handle.data = other)) wakers.handles handle ⟨data, false⟩ ⟨data, true⟩
    (usable_iff.mp usable)
  exact Nat.add_right_cancel traded

theorem alive_consume (usable : wakers.usable handle = some data) (memory : M) (other : Pointer) :
    (wakers.consume handle data memory).alive other + (if data = other then 1 else 0) = wakers.alive other := by
  have traded := countP_set (fun handle => decide (handle.data = other ∧ handle.live)) wakers.handles handle ⟨data, false⟩
    ⟨data, true⟩ (usable_iff.mp usable)
  simpa [alive, consume] using traded

theorem alive_le_made (wakers : Wakers M) (data : Pointer) : wakers.alive data ≤ wakers.made data := by
  apply List.countP_mono_left
  intro handle _ live
  simp only [decide_eq_true_eq] at live ⊢
  exact live.1

theorem alive_pos (usable : wakers.usable handle = some data) : 0 < wakers.alive data := by
  apply List.countP_pos_iff.mpr
  exact ⟨⟨data, true⟩, List.mem_of_getElem? (usable_iff.mp usable), by simp⟩

theorem made_pos (usable : wakers.usable handle = some data) : 0 < wakers.made data :=
  Nat.lt_of_lt_of_le (alive_pos usable) (wakers.alive_le_made data)

/-- The allocations that handles have been made on are the first so many. -/
def Allocates (wakers : Wakers M) (count : Nat) : Prop := ∀ data, 0 < wakers.made data ↔ data < count

namespace Allocates
variable {count : Nat}

theorem fresh (allocates : wakers.Allocates count) : wakers.made count = 0 :=
  Nat.eq_zero_of_not_pos ((allocates count).not.mpr (Nat.lt_irrefl count))

theorem create (allocates : wakers.Allocates count) (memory : M) : (wakers.add (count, memory)).Allocates (count + 1) := by
  intro data
  rw [made_add]
  by_cases same : count = data
  · subst same
    simp
  · rw [if_neg same, Nat.add_zero, allocates data]
    exact ⟨Nat.lt_succ_of_lt, fun below => (Nat.lt_succ_iff_lt_or_eq.mp below).resolve_right (Ne.symm same)⟩

theorem clone (allocates : wakers.Allocates count) (usable : wakers.usable handle = some data) (memory : M) :
    (wakers.add (data, memory)).Allocates count := by
  intro other
  rw [made_add, ← allocates other]
  by_cases same : data = other
  · subst same
    simp [made_pos usable]
  · rw [if_neg same, Nat.add_zero]

theorem consume (allocates : wakers.Allocates count) (usable : wakers.usable handle = some data) (memory : M) :
    (wakers.consume handle data memory).Allocates count := by
  intro other
  rw [made_consume usable]
  exact allocates other

end Allocates

/-- An allocation is released never while a handle on it is live, and once behind the last one. -/
structure Released (wakers : Wakers M) (data : Pointer) (count : Nat) : Prop where
  live : (∃ handle ∈ wakers.handles, handle.data = data ∧ handle.live = true) → count = 0
  consumed : (∀ handle ∈ wakers.handles, handle.data = data → handle.live = false) → count = 1

theorem released_counts {count : Nat} :
    wakers.Released data count ↔ (0 < wakers.alive data → count = 0) ∧ (wakers.alive data = 0 → count = 1) := by
  have some_ : 0 < wakers.alive data ↔ ∃ handle ∈ wakers.handles, handle.data = data ∧ handle.live = true := by
    rw [alive, List.countP_pos_iff]
    simp only [decide_eq_true_eq]
  have none : wakers.alive data = 0 ↔ ∀ handle ∈ wakers.handles, handle.data = data → handle.live = false := by
    rw [alive, List.countP_eq_zero]
    simp only [decide_eq_true_eq, not_and, Bool.not_eq_true]
  rw [some_, none]
  exact ⟨fun released => ⟨released.live, released.consumed⟩, fun both => ⟨both.1, both.2⟩⟩

end Wakers

end RustAsyncAwait.Library
