import RustAsyncAwait.Library.Lists
import Mathlib.Logic.Basic

/-! Linearizability. A history of operations and their results is compared with
an object that performs one operation at a time. -/

namespace RustAsyncAwait.Library

/-- An object used by one client at a time. -/
structure SequentialObject (σ Op Ret : Type) where
  apply : σ → Op → σ
  answer : σ → Op → Ret

namespace SequentialObject
variable {σ Op Ret : Type} (object : SequentialObject σ Op Ret)

def after (state : σ) (history : List (Op × Ret)) : σ :=
  history.foldl (fun state entry => object.apply state entry.1) state

/-- Every result is the object's own when the operations come in this order. -/
def Legal (state : σ) : List (Op × Ret) → Prop
  | [] => True
  | (operation, result) :: rest => result = object.answer state operation ∧ Legal (object.apply state operation) rest

theorem after_append (state : σ) (first second : List (Op × Ret)) :
    object.after state (first ++ second) = object.after (object.after state first) second :=
  List.foldl_append

theorem legal_append (state : σ) (first second : List (Op × Ret)) :
    object.Legal state (first ++ second) ↔ object.Legal state first ∧ object.Legal (object.after state first) second := by
  induction first generalizing state with
  | nil => simp [Legal, after]
  | cons entry rest ih =>
    obtain ⟨operation, result⟩ := entry
    simp only [List.cons_append, Legal, ih, and_assoc]
    rfl

theorem legal_snoc {state : σ} {history : List (Op × Ret)} {operation : Op} {result : Ret}
    (legal : object.Legal state history) (answered : result = object.answer (object.after state history) operation) :
    object.Legal state (history ++ [(operation, result)]) :=
  (object.legal_append state history _).mpr ⟨legal, answered, trivial⟩

/-- The operations determine the results. -/
theorem legal_unique {state : σ} {first second : List (Op × Ret)} (one : object.Legal state first)
    (other : object.Legal state second) (same : first.map Prod.fst = second.map Prod.fst) : first = second := by
  induction first generalizing state second with
  | nil =>
    cases second with
    | nil => rfl
    | cons entry rest => cases same
  | cons entry rest ih =>
    cases second with
    | nil => cases same
    | cons entry' rest' =>
      obtain ⟨operation, result⟩ := entry
      obtain ⟨operation', result'⟩ := entry'
      simp only [List.map_cons, List.cons.injEq] at same
      obtain ⟨rfl, same⟩ := same
      obtain ⟨rfl, one⟩ := one
      obtain ⟨rfl, other⟩ := other
      rw [ih one other same]

end SequentialObject

section History
variable {ε σ Op Ret : Type} (invoked : ε → Option Op) (responded : ε → Option (Op × Ret))

/-- The operations of the trace that were answered, in the order of the answers. -/
def responses (trace : List ε) : List (Op × Ret) := trace.filterMap responded

theorem responses_snoc (trace : List ε) (event : ε) :
    responses responded (trace ++ [event]) = responses responded trace ++ (responded event).toList :=
  filterMap_snoc responded trace event

/-- A legal order of all answered operations that extends real time: one whose
answer came before another was sent comes first. -/
structure Linearizes (object : SequentialObject σ Op Ret) (start : σ) (trace : List ε) (order : List (Op × Ret)) :
    Prop where
  complete : order.Perm (responses responded trace)
  legal : object.Legal start order
  realTime : ∀ answer send first second, [answer, send].Sublist trace → responded answer = some first →
    invoked send = some second.1 → second ∈ order → [first, second].Sublist order

variable {invoked responded}

/-- A member of the trace that is not before `second` is after all that is. -/
private theorem after_all {first second last : ε} {trace : List ε} (before : [first, second].Sublist trace)
    (member : last ∈ trace) (unreversed : ¬ [last, second].Sublist trace) : [first, last].Sublist trace := by
  obtain ⟨left, right, rfl, inside, rest⟩ := List.cons_sublist_iff.mp before
  rcases List.mem_append.mp member with early | late
  · exact absurd ((List.singleton_sublist.mpr early).append rest) unreversed
  · exact (List.singleton_sublist.mpr inside).append (List.singleton_sublist.mpr late)

/-- If no operation is sent after its answer, a legal order of the answers
themselves linearizes the trace. -/
theorem linearizes_responses {object : SequentialObject σ Op Ret} {start : σ} {trace : List ε}
    (legal : object.Legal start (responses responded trace))
    (unsent : ∀ answer send operation result, [answer, send].Sublist trace → responded answer = some (operation, result) →
      invoked send ≠ some operation) :
    Linearizes invoked responded object start trace (responses responded trace) := by
  refine ⟨List.Perm.refl _, legal, ?_⟩
  intro answer send first second before answered sent member
  obtain ⟨operation, result⟩ := second
  obtain ⟨event, inside, responds⟩ := List.mem_filterMap.mp member
  have later := after_all before inside fun reversed => unsent event send operation result reversed responds sent
  simpa [responses, answered, responds] using later.filterMap responded

end History
end RustAsyncAwait.Library
