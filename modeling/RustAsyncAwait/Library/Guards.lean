import Mathlib.Data.List.Basic

/-! The mutexes of one thread. A guard lives from its `lock` to the end of its
statement; a panic drops the guards that are alive, and these poison their mutexes. -/

namespace RustAsyncAwait.Library

/-- `drop` is the end of a guard's life, and `act` is what is done in between. -/
inductive Instr (μ ω : Type)
  | lock (mutex : μ)
  | drop (mutex : μ)
  | act (action : ω)
  deriving DecidableEq

structure Guards (μ : Type) where
  held : List μ := []
  poisoned : List μ := []
  deriving DecidableEq

section Bracketed
variable {μ ω : Type}

def Guards.unwind (guards : Guards μ) : Guards μ := { held := [], poisoned := guards.held ++ guards.poisoned }

/-- `mutex.lock().unwrap().action();` -/
def statement (mutex : μ) (action : ω) : List (Instr μ ω) := [.lock mutex, .act action, .drop mutex]

variable {under : ω → List μ → Prop}

/-- From these guards the code locks no mutex twice, does each action `under`
its guards, drops the last guard first and ends without any. -/
def Bracketed (under : ω → List μ → Prop) : List μ → List (Instr μ ω) → Prop
  | held, [] => held = []
  | held, .lock mutex :: rest => mutex ∉ held ∧ Bracketed under (mutex :: held) rest
  | held, .drop mutex :: rest => ∃ others, held = mutex :: others ∧ Bracketed under others rest
  | held, .act action :: rest => under action held ∧ Bracketed under held rest

theorem bracketed_statement {mutex : μ} {action : ω} {held : List μ} {rest : List (Instr μ ω)} (free : mutex ∉ held)
    (guarded : under action (mutex :: held)) (bracketed : Bracketed under held rest) :
    Bracketed under held (statement mutex action ++ rest) :=
  ⟨free, guarded, _, rfl, bracketed⟩

theorem Bracketed.append {held : List μ} {code rest : List (Instr μ ω)} (bracketed : Bracketed under held code)
    (after : Bracketed under [] rest) : Bracketed under held (code ++ rest) := by
  induction code generalizing held with
  | nil =>
    cases bracketed
    exact after
  | cons instr code ih =>
    cases instr with
    | lock mutex => exact ⟨bracketed.1, ih bracketed.2⟩
    | drop mutex =>
      obtain ⟨others, same, bracketed⟩ := bracketed
      exact ⟨others, same, ih bracketed⟩
    | act action => exact ⟨bracketed.1, ih bracketed.2⟩

/-- The one action that is left, if any, has only ends of guards behind it. -/
def OneAction : List (Instr μ ω) → Prop
  | [] => True
  | .act _ :: rest => ∀ instr ∈ rest, ∃ mutex, instr = .drop mutex
  | .lock _ :: rest | .drop _ :: rest => OneAction rest

theorem oneAction_drops {code : List (Instr μ ω)} (drops : ∀ instr ∈ code, ∃ mutex, instr = .drop mutex)
    (rest : List (Instr μ ω)) : OneAction (code ++ rest) ↔ OneAction rest := by
  induction code with
  | nil => rfl
  | cons instr code ih =>
    obtain ⟨mutex, rfl⟩ := drops instr (List.mem_cons_self ..)
    exact ih fun instr member => drops instr (List.mem_cons_of_mem _ member)

theorem oneAction_statement (mutex : μ) (action : ω) {rest : List (Instr μ ω)}
    (drops : ∀ instr ∈ rest, ∃ mutex, instr = .drop mutex) : OneAction (statement mutex action ++ rest) := by
  intro instr member
  rcases List.mem_cons.mp member with rfl | member
  · exact ⟨mutex, rfl⟩
  · exact drops instr member

end Bracketed

end RustAsyncAwait.Library
