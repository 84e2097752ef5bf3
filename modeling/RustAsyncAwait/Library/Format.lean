import Mathlib.Data.List.Basic

/-! Self-delimiting formats, and computations that keep their state when they fail. -/

namespace RustAsyncAwait.Library

universe u v

section Fallible
variable {ε σ α β : Type}

abbrev Fallible (ε σ α : Type) := ExceptT ε (StateM σ) α

/-- The outcome of a computation together with the state it leaves. -/
def Fallible.perform (act : Fallible ε σ α) (state : σ) : Except ε α × σ := Id.run (act.run.run state)

/-- A sequence succeeds when both of its parts do. -/
theorem Fallible.perform_bind_ok {first : Fallible ε σ α} {next : α → Fallible ε σ β} {state last : σ} {value : β} :
    Fallible.perform (first >>= next) state = (.ok value, last) ↔
      ∃ found middle, Fallible.perform first state = (.ok found, middle) ∧
        Fallible.perform (next found) middle = (.ok value, last) := by
  unfold Fallible.perform
  simp only [ExceptT.run_bind, StateT.run_bind]
  cases outcome : (first.run.run state).run with
  | mk result middle => cases result <;> simp [outcome]

theorem Fallible.perform_pure_ok {state last : σ} {value found : α} :
    Fallible.perform (pure found : Fallible ε σ α) state = (.ok value, last) ↔ value = found ∧ last = state := by
  show ((Except.ok found, state) : Except ε α × σ) = (.ok value, last) ↔ _
  simp [eq_comm]

theorem Fallible.perform_throw_ok {state last : σ} {value : α} {err : ε} :
    ¬ Fallible.perform (throw err : Fallible ε σ α) state = (.ok value, last) := by
  show ¬ ((Except.error err, state) : Except ε α × σ) = (.ok value, last)
  simp

/-- A sequence fails where its first failing part does. -/
theorem Fallible.perform_bind_error {first : Fallible ε σ α} {next : α → Fallible ε σ β} {state last : σ} {err : ε} :
    Fallible.perform (first >>= next) state = (.error err, last) ↔
      Fallible.perform first state = (.error err, last) ∨
        ∃ found middle, Fallible.perform first state = (.ok found, middle) ∧
          Fallible.perform (next found) middle = (.error err, last) := by
  unfold Fallible.perform
  simp only [ExceptT.run_bind, StateT.run_bind]
  cases outcome : (first.run.run state).run with
  | mk result middle => cases result <;> simp [outcome]

theorem Fallible.perform_pure_error {state last : σ} {value : α} {err : ε} :
    ¬ Fallible.perform (pure value : Fallible ε σ α) state = (.error err, last) := by
  show ¬ ((Except.ok value, state) : Except ε α × σ) = (.error err, last)
  simp

theorem Fallible.perform_throw_error {state last : σ} {thrown err : ε} :
    Fallible.perform (throw thrown : Fallible ε σ α) state = (.error err, last) ↔ err = thrown ∧ last = state := by
  show ((Except.error thrown, state) : Except ε α × σ) = (.error err, last) ↔ _
  simp [eq_comm]

theorem Fallible.perform_get_bind (next : σ → Fallible ε σ β) (state : σ) :
    Fallible.perform (get >>= next) state = Fallible.perform (next state) state := rfl

end Fallible

/-- A way to write values as words in which reading takes exactly the word of
one valid value and leaves what follows. -/
structure Format (α : Type u) (β : Type v) where
  valid : α → Prop
  encode : α → List β
  decode : List β → Option (α × List β)
  exact : ∀ {input value rest}, decode input = some (value, rest) ↔ valid value ∧ input = encode value ++ rest

namespace Format
variable {α : Type u} {β : Type v} (format : Format α β)

theorem decode_encode {value : α} (valid : format.valid value) (rest : List β) :
    format.decode (format.encode value ++ rest) = some (value, rest) := format.exact.mpr ⟨valid, rfl⟩

/-- Two words at the front of one input are the same word. -/
theorem unique {one other : α} {input : List β} (first : format.valid one) (second : format.valid other)
    (front : format.encode one <+: input) (also : format.encode other <+: input) : one = other := by
  obtain ⟨rest, split⟩ := front
  obtain ⟨tail, again⟩ := also
  have decoded := format.decode_encode first rest
  rw [split, ← again, format.decode_encode second tail] at decoded
  cases decoded
  rfl

end Format

end RustAsyncAwait.Library
