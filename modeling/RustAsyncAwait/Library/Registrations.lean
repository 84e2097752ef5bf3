import Mathlib.Data.List.Infix

/-! Requests for one key, in the order in which they are taken: `some item`
registers an item, and `none` ends the registration before it. Some items are
live, and the others have been given up by their owners. -/

namespace RustAsyncAwait.Library
variable {α : Type}

/-- The request for a live item is the last one, and that for any other is followed by its end. -/
def Ordered (live : α → Prop) : List (Option α) → Prop
  | [] => True
  | none :: rest => Ordered live rest
  | some item :: rest => (live item → rest = []) ∧ (¬ live item → rest.head? = some none) ∧ Ordered live rest

namespace Ordered
variable {live after : α → Prop} {item other : α} {request : Option α} {rest requests : List (Option α)}

theorem tail (ordered : Ordered live (request :: rest)) : Ordered live rest := by
  cases request with
  | none => exact ordered
  | some item => exact ordered.2.2

/-- Requests are taken from the front. -/
theorem suffix (ordered : Ordered live requests) (shorter : rest <:+ requests) : Ordered live rest := by
  induction requests with
  | nil => rwa [List.suffix_nil.mp shorter]
  | cons request more ih =>
    rcases List.suffix_cons_iff.mp shorter with same | shorter
    · rw [same]
      exact ordered
    · exact ih ordered.tail shorter

/-- A second registration does not follow a first one. -/
theorem single (ordered : Ordered live (some item :: some other :: rest)) : False := by
  by_cases lives : live item
  · cases ordered.1 lives
  · cases ordered.2.1 lives

/-- A registration that is ended is not that of a live item. -/
theorem ended (ordered : Ordered live (some item :: none :: rest)) : ¬ live item := by
  intro lives
  cases ordered.1 lives

theorem congr (ordered : Ordered live requests) (same : ∀ item, some item ∈ requests → (live item ↔ after item)) :
    Ordered after requests := by
  induction requests with
  | nil => trivial
  | cons request rest ih =>
    have kept := ih ordered.tail fun item member => same item (List.mem_cons_of_mem _ member)
    cases request with
    | none => exact kept
    | some item =>
      have own := same item (List.mem_cons_self ..)
      exact ⟨fun lives => ordered.1 (own.mpr lives), fun gone => ordered.2.1 fun lives => gone (own.mp lives), kept⟩

/-- An item is registered when no request is for a live one. -/
theorem register (ordered : Ordered live requests) (absent : ∀ item, some item ∈ requests → ¬ live item)
    (lives : live other) : Ordered live (requests ++ [some other]) := by
  induction requests with
  | nil => exact ⟨fun _ => rfl, fun gone => absurd lives gone, trivial⟩
  | cons request rest ih =>
    have kept := ih ordered.tail fun item member => absent item (List.mem_cons_of_mem _ member)
    cases request with
    | none => exact kept
    | some item =>
      have gone := absent item (List.mem_cons_self ..)
      have ended := ordered.2.1 gone
      refine ⟨fun lives => absurd lives gone, fun _ => ?_, kept⟩
      cases rest with
      | nil => cases ended
      | cons => exact ended

/-- The live item, if there is one, is given up. -/
theorem unregister (ordered : Ordered live requests) (absent : ∀ item, some item ∈ requests → ¬ after item) :
    Ordered after (requests ++ [none]) := by
  induction requests with
  | nil => trivial
  | cons request rest ih =>
    have kept := ih ordered.tail fun item member => absent item (List.mem_cons_of_mem _ member)
    cases request with
    | none => exact kept
    | some item =>
      refine ⟨fun lives => absurd lives (absent item (List.mem_cons_self ..)), fun _ => ?_, kept⟩
      by_cases lives : live item
      · rw [ordered.1 lives]
        rfl
      · have ended := ordered.2.1 lives
        cases rest with
        | nil => cases ended
        | cons => exact ended

end Ordered
end RustAsyncAwait.Library
