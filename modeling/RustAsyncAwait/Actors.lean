import Mathlib.Data.List.Basic

/-! The actor of `chap8/8_1.rs`, which answers with the sum of what it has
received, and the function on a shared state that replaces it in `chap8/8_2.rs`. -/

namespace RustAsyncAwait.Actors

/-- What an arithmetic overflow does: it panics in a debug build and wraps
around in a release build. -/
inductive Build
  | debug
  | release
  deriving Repr, DecidableEq

/-- `+=` on a signed type of this width; `none` is a panic. -/
def add_assign {width : Nat} (build : Build) (state value : BitVec width) : Option (BitVec width) :=
  if build = .debug ∧ state.saddOverflow value then none else some (state + value)

/-- The answers to the messages with these values, `none` where there is none.
The state is an `i32`: `value` is added to it before it is widened. -/
def resp_actor (build : Build) (state : BitVec 32) : List (BitVec 32) → List (Option (BitVec 64))
  | [] => []
  | value :: rest =>
    match add_assign build state value with
    | none => none :: rest.map fun _ => none
    | some state => some (state.signExtend 64) :: resp_actor build state rest

/-- The new state, which is also the result. -/
def actor_replacement (build : Build) (state value : BitVec 64) : Option (BitVec 64) := add_assign build state value

/-- The results of successive calls. One that panics lets go of the lock, and leaves the state as it was. -/
def calls (build : Build) (state : BitVec 64) : List (BitVec 64) → List (Option (BitVec 64))
  | [] => []
  | value :: rest =>
    match actor_replacement build state value with
    | none => none :: calls build state rest
    | some state => some state :: calls build state rest

end RustAsyncAwait.Actors
