import Mathlib.Data.List.Basic
import Mathlib.Data.List.Induction
import Mathlib.Logic.Relation

/-! Machines that move by labelled atomic steps. Every system of this project is
one machine; an interleaving of its parties is the list of events of one run. -/

namespace RustAsyncAwait.Library

universe u v

/-- `step` is `none` where the event cannot happen in that state. -/
structure Machine (σ : Type u) (ε : Type v) where
  init : σ
  step : σ → ε → Option σ

namespace Machine
variable {σ : Type u} {ε : Type v} (machine : Machine σ ε)

def runFrom (state : σ) : List ε → Option σ
  | [] => some state
  | event :: trace => (machine.step state event).bind fun next => runFrom next trace

def Reaches (trace : List ε) (state : σ) : Prop := machine.runFrom machine.init trace = some state

@[simp] theorem runFrom_nil (state : σ) : machine.runFrom state [] = some state := rfl

@[simp] theorem runFrom_cons (state : σ) (event : ε) (trace : List ε) :
    machine.runFrom state (event :: trace) =
      (machine.step state event).bind fun next => machine.runFrom next trace := rfl

theorem runFrom_append (state : σ) (first second : List ε) :
    machine.runFrom state (first ++ second) =
      (machine.runFrom state first).bind fun middle => machine.runFrom middle second := by
  induction first generalizing state with
  | nil => rfl
  | cons event rest ih =>
    cases stepped : machine.step state event with
    | none => simp [stepped]
    | some next => simp [stepped, ih]

theorem runFrom_append_some {state final : σ} {first second : List ε} :
    machine.runFrom state (first ++ second) = some final ↔
      ∃ middle, machine.runFrom state first = some middle ∧ machine.runFrom middle second = some final := by
  rw [runFrom_append, Option.bind_eq_some_iff]

variable {machine}

theorem Reaches.nil : machine.Reaches [] machine.init := rfl

theorem Reaches.snoc {trace : List ε} {state next : σ} {event : ε}
    (reaches : machine.Reaches trace state) (stepped : machine.step state event = some next) :
    machine.Reaches (trace ++ [event]) next := by
  unfold Reaches at *
  simp [runFrom_append, reaches, stepped]

theorem reaches_snoc {trace : List ε} {next : σ} {event : ε} :
    machine.Reaches (trace ++ [event]) next ↔
      ∃ state, machine.Reaches trace state ∧ machine.step state event = some next := by
  simp [Reaches, runFrom_append_some]

theorem Reaches.append {first second : List ε} {middle final : σ}
    (reaches : machine.Reaches first middle) (rest : machine.runFrom middle second = some final) :
    machine.Reaches (first ++ second) final :=
  (runFrom_append_some machine).mpr ⟨middle, reaches, rest⟩

/-- A longer run passes through the state its first part reaches. -/
theorem Reaches.split {first second : List ε} {final : σ} (reaches : machine.Reaches (first ++ second) final) :
    ∃ middle, machine.Reaches first middle ∧ machine.runFrom middle second = some final :=
  (runFrom_append_some machine).mp reaches

/-- The step a run takes at one of its events. -/
theorem Reaches.step_at {first second : List ε} {event : ε} {middle final : σ}
    (reaches : machine.Reaches (first ++ event :: second) final) (at_first : machine.Reaches first middle) :
    ∃ next, machine.step middle event = some next ∧ machine.Reaches (first ++ [event]) next := by
  obtain ⟨reached, earlier, rest⟩ := reaches.split
  cases earlier.symm.trans at_first
  obtain ⟨next, stepped, _⟩ := Option.bind_eq_some_iff.mp rest
  exact ⟨next, stepped, at_first.snoc stepped⟩

/-- The rule for facts about a run together with what has happened in it. -/
theorem Reaches.trace_invariant (holds : List ε → σ → Prop)
    (init : holds [] machine.init)
    (step : ∀ trace state event next, machine.Reaches trace state → holds trace state →
      machine.step state event = some next → holds (trace ++ [event]) next)
    {trace : List ε} {state : σ} (reaches : machine.Reaches trace state) : holds trace state := by
  induction trace using List.reverseRecOn generalizing state with
  | nil =>
    cases reaches
    exact init
  | append_singleton trace event ih =>
    obtain ⟨before, earlier, stepped⟩ := reaches_snoc.mp reaches
    exact step trace before event state earlier (ih earlier) stepped

/-- The same rule for facts about the state alone. -/
theorem Reaches.invariant (holds : σ → Prop) (init : holds machine.init)
    (step : ∀ state event next, holds state → machine.step state event = some next → holds next)
    {trace : List ε} {state : σ} (reaches : machine.Reaches trace state) : holds state :=
  reaches.trace_invariant (fun _ => holds) init
    (fun _ state event next _ held stepped => step state event next held stepped)

/-- What the events of one trace keep. -/
theorem runFrom_invariant (holds : σ → Prop) {trace : List ε} {state final : σ}
    (step : ∀ state event next, event ∈ trace → holds state → machine.step state event = some next → holds next)
    (kept : holds state) (runs : machine.runFrom state trace = some final) : holds final := by
  induction trace generalizing state with
  | nil => cases runs; exact kept
  | cons event rest ih =>
    obtain ⟨next, stepped, runs⟩ := Option.bind_eq_some_iff.mp runs
    have kept := step state event next (List.mem_cons_self ..) kept stepped
    exact ih (fun state other next member => step state other next (List.mem_cons_of_mem _ member)) kept runs

/-- Every step of a run meets a condition on the state before it and its event. -/
def Meets (machine : Machine σ ε) (guard : σ → ε → Prop) (trace : List ε) : Prop :=
  ∀ before event after state, trace = before ++ event :: after → machine.Reaches before state → guard state event

theorem meets_nil {guard : σ → ε → Prop} : machine.Meets guard [] := by
  intro before event after state split
  simp at split

theorem meets_snoc {guard : σ → ε → Prop} {trace : List ε} {state : σ} {event : ε} (reaches : machine.Reaches trace state) :
    machine.Meets guard (trace ++ [event]) ↔ machine.Meets guard trace ∧ guard state event := by
  constructor
  · intro meets
    refine ⟨?_, meets trace event [] state rfl reaches⟩
    intro before earlier after middle split
    exact meets before earlier (after ++ [event]) middle (by simp [split])
  · intro both before last after middle split at_before
    rcases List.eq_nil_or_concat' after with empty | ⟨rest, final, concat⟩
    · subst empty
      obtain ⟨rfl, same⟩ := List.append_inj' split rfl
      cases at_before.symm.trans reaches
      exact List.singleton_inj.mp same ▸ both.2
    · subst concat
      rw [← List.cons_append, ← List.append_assoc] at split
      obtain ⟨earlier, _⟩ := List.append_inj' split rfl
      exact both.1 before last rest middle earlier at_before

theorem meets_snoc_of {guard : σ → ε → Prop} {trace : List ε} {state : σ} {event : ε} (reaches : machine.Reaches trace state)
    (met : guard state event) : machine.Meets guard (trace ++ [event]) ↔ machine.Meets guard trace := by
  rw [meets_snoc reaches]
  exact and_iff_left met

/-- The machine that remembers its events, for conditions on what has happened so far. -/
def traced (machine : Machine σ ε) : Machine (List ε × σ) ε where
  init := ([], machine.init)
  step state event := (machine.step state.2 event).map fun next => (state.1 ++ [event], next)

theorem traced_step {trace final : List ε} {state next : σ} {event : ε} :
    machine.traced.step (trace, state) event = some (final, next) ↔
      final = trace ++ [event] ∧ machine.step state event = some next := by
  simp only [traced, Option.map_eq_some_iff, Prod.mk.injEq]
  constructor
  · intro stepped
    obtain ⟨_, stepped, rfl, rfl⟩ := stepped
    exact ⟨rfl, stepped⟩
  · intro stepped
    exact ⟨next, stepped.2, stepped.1.symm, rfl⟩

/-- The machine whose steps all meet a condition on the state before the step
and its event. Results about runs that keep to a discipline are about it. -/
def restrict (machine : Machine σ ε) (guard : σ → ε → Prop) [∀ state event, Decidable (guard state event)] :
    Machine σ ε where
  init := machine.init
  step state event := if guard state event then machine.step state event else none

variable {guard : σ → ε → Prop} [∀ state event, Decidable (guard state event)]

theorem restrict_step {state next : σ} {event : ε} :
    (machine.restrict guard).step state event = some next ↔
      guard state event ∧ machine.step state event = some next := by
  simp [restrict]

theorem Reaches.unrestricted {trace : List ε} {state : σ} (reaches : (machine.restrict guard).Reaches trace state) :
    machine.Reaches trace state := by
  refine reaches.trace_invariant (fun trace state => machine.Reaches trace state) ?_ ?_
  · exact Reaches.nil
  · intro trace state event next _ reached stepped
    exact reached.snoc (restrict_step.mp stepped).2

/-- The rule for runs whose steps all meet a condition on what has happened before them. -/
theorem Reaches.guarded_invariant {guard : List ε × σ → ε → Prop} [∀ state event, Decidable (guard state event)]
    (holds : List ε → σ → Prop) (init : holds [] machine.init)
    (step : ∀ trace state event next, guard (trace, state) event → holds trace state →
      machine.step state event = some next → holds (trace ++ [event]) next)
    {trace final : List ε} {state : σ} (reaches : (machine.traced.restrict guard).Reaches trace (final, state)) :
    final = trace ∧ holds trace state := by
  refine reaches.trace_invariant (fun trace pair => pair.1 = trace ∧ holds trace pair.2) ⟨rfl, init⟩ ?_
  intro trace pair event next _ held stepped
  obtain ⟨before, state⟩ := pair
  obtain ⟨rfl, held⟩ := held
  obtain ⟨met, stepped⟩ := restrict_step.mp stepped
  obtain ⟨longer, stepped⟩ := traced_step.mp stepped
  exact ⟨longer, step _ state event next.2 met held stepped⟩

end Machine

section WaitsFor
variable {α : Type u} {waits : α → α → Prop}

/-- Parties that wait for each other in a circle. -/
def Cyclic (waits : α → α → Prop) : Prop := ∃ party, Relation.TransGen waits party party

theorem cyclic_pair {one other : α} (first : waits one other) (second : waits other one) : Cyclic waits :=
  ⟨one, .tail (.single first) second⟩

/-- Parties that wait only for parties of a smaller rank do not wait in a circle. -/
theorem not_cyclic_of_rank (rank : α → Nat) (falls : ∀ one other, waits one other → rank other < rank one) :
    ¬ Cyclic waits := by
  intro cyclic
  obtain ⟨party, cycle⟩ := cyclic
  have smaller : ∀ other, Relation.TransGen waits party other → rank other < rank party := by
    intro other path
    induction path with
    | single edge => exact falls _ _ edge
    | tail _ edge ih => exact Nat.lt_trans (falls _ _ edge) ih
  exact Nat.lt_irrefl _ (smaller party cycle)

end WaitsFor

end RustAsyncAwait.Library
