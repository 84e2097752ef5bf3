import RustAsyncAwait.Library.Loops
import Mathlib.Algebra.GroupWithZero.Nat

/-! `chap5/coroutine_control.rs`. `rand` is the sequence of the results of
`rand::random_range(0..=10)`, of which each `generate` takes the next one. -/

namespace RustAsyncAwait.CoroutineControl
open Library

/-- `total` is a `u32`, whose overflow panics in the dev profile. -/
def u32Size : Nat := 2 ^ 32

structure RandCoroutine where
  value : Nat
  live : Bool
deriving Repr, DecidableEq

def RandCoroutine.generate (coroutine : RandCoroutine) (draw : Fin 11) : RandCoroutine := { coroutine with value := draw }

def RandCoroutine.new (draw : Fin 11) : RandCoroutine := RandCoroutine.generate { value := 0, live := true } draw

/-- The variables of `main` beside its coroutines, and how many results have been drawn. -/
structure Locals where
  total : Nat := 0
  all_dead : Bool := true
  drawn : Nat
deriving Repr, DecidableEq

/-- The body of the `for` loop. It is `none` where the sum panics. `resume` never completes. -/
def visit (rand : Nat → Fin 11) (coroutine : RandCoroutine) (locals : Locals) : Option (RandCoroutine × Locals) :=
  if coroutine.live then
    let coroutine := coroutine.generate (rand locals.drawn)
    let total := locals.total + coroutine.value
    if total < u32Size then
      let coroutine := if coroutine.value < 9 then { coroutine with live := false } else coroutine
      some (coroutine, { total, all_dead := false, drawn := locals.drawn + 1 })
    else none
  else some (coroutine, locals)

def pass (rand : Nat → Fin 11) : List RandCoroutine → Locals → Option (List RandCoroutine × Locals)
  | [], locals => some ([], locals)
  | coroutine :: rest, locals => do
    let (coroutine, locals) ← visit rand coroutine locals
    let (rest, locals) ← pass rand rest locals
    some (coroutine :: rest, locals)

/-- One round of `loop`, which breaks when all are dead. Nothing happens after a panic. -/
def round (rand : Nat → Fin 11) : Option (List RandCoroutine × Locals) → Option (Option (List RandCoroutine × Locals))
  | none => none
  | some (coroutines, locals) =>
    match pass rand coroutines { locals with all_dead := true } with
    | none => some none
    | some (coroutines, locals) => if locals.all_dead then none else some (some (coroutines, locals))

def start (rand : Nat → Fin 11) : List RandCoroutine × Locals :=
  ((List.range 10).map fun index => .new (rand index), { drawn := 10 })

/-- The total that `main` prints, or `some none` where it panics. -/
def main (rand : Nat → Fin 11) (fuel : Nat) : Option (Option Nat) :=
  (loop (round rand) fuel (some (start rand))).map fun final => final.map fun final => final.2.total

end RustAsyncAwait.CoroutineControl
