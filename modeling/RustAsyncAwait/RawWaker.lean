import RustAsyncAwait.Library.RawWakers
import Mathlib.Logic.Function.Basic

/-! The wakers of `chap10/async_runtime`: the table of `raw_waker.rs`, and
`MyWaker` of `waker.rs`, whose table the standard library makes from `Wake`. -/

namespace RustAsyncAwait.RawWaker
open Library

/-- The number of boxes that have been made, and the calls of `Box::from_raw`. A
pointer given back twice is undefined behaviour; the ledger goes on counting. -/
structure Memory where
  boxes : Nat := 0
  from_raw : List Pointer := []
  deriving Repr, DecidableEq

/-- `drop(Box::from_raw(raw_waker))` -/
def Memory.drop_box (memory : Memory) (raw_waker : Pointer) : Memory :=
  { memory with from_raw := memory.from_raw ++ [raw_waker] }

def my_clone (raw_waker : Pointer) (memory : Memory) : Pointer × Memory := (raw_waker, memory)

def my_wake (raw_waker : Pointer) (memory : Memory) : Memory := memory.drop_box raw_waker

def my_wake_by_ref (_raw_waker : Pointer) (memory : Memory) : Memory := memory

def my_drop (raw_waker : Pointer) (memory : Memory) : Memory := memory.drop_box raw_waker

def VTABLE : RawWakerVTable Memory where
  clone := my_clone
  wake := my_wake
  wake_by_ref := my_wake_by_ref
  drop := my_drop

def create_raw_waker (memory : Memory) : Pointer × Memory := (memory.boxes, { memory with boxes := memory.boxes + 1 })

def wakers : Machine (Wakers Memory) WakerEvent := VTABLE.wakers create_raw_waker {}

end RustAsyncAwait.RawWaker

namespace RustAsyncAwait.MyWaker
open Library

/-- The strong counts of the `Arc<MyWaker>`, and those that have been dropped. -/
structure Memory where
  arcs : Nat := 0
  strong : Pointer → Nat := fun _ => 0
  dropped : List Pointer := []

def Memory.increment_strong_count (memory : Memory) (arc : Pointer) : Memory :=
  { memory with strong := Function.update memory.strong arc (memory.strong arc + 1) }

/-- The drop of one `Arc`. -/
def Memory.drop_arc (memory : Memory) (arc : Pointer) : Memory :=
  { memory with
    strong := Function.update memory.strong arc (memory.strong arc - 1)
    dropped := if memory.strong arc = 1 then memory.dropped ++ [arc] else memory.dropped }

/-- It does nothing with the `Arc` it takes. -/
def wake (arc : Pointer) (memory : Memory) : Memory := memory.drop_arc arc

/-- The default of `Wake`: a clone is woken. -/
def wake_by_ref (arc : Pointer) (memory : Memory) : Memory := wake arc (memory.increment_strong_count arc)

def vtable : RawWakerVTable Memory where
  clone arc memory := (arc, memory.increment_strong_count arc)
  wake := wake
  wake_by_ref := wake_by_ref
  drop arc memory := memory.drop_arc arc

/-- `Arc::new(MyWaker{}).into()` in `Executor::create_waker` -/
def create_waker (memory : Memory) : Pointer × Memory :=
  (memory.arcs, { memory with arcs := memory.arcs + 1, strong := Function.update memory.strong memory.arcs 1 })

def wakers : Machine (Wakers Memory) WakerEvent := vtable.wakers create_waker {}

end RustAsyncAwait.MyWaker
