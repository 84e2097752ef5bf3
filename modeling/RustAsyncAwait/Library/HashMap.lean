import Mathlib.Data.List.Basic

/-! `std::collections::HashMap` up to its iteration order, which no modelled
code observes. -/

namespace RustAsyncAwait.Library

abbrev HashMap (κ : Type) (ν : Type) [Ord κ] := Std.ExtTreeMap κ ν

namespace HashMap
variable {κ ν : Type} [Ord κ] [Std.TransOrd κ] [Std.LawfulEqOrd κ] (map : HashMap κ ν)

@[simp] theorem get_insert (key other : κ) (value : ν) [Decidable (key = other)] :
    (map.insert key value)[other]? = if key = other then some value else map[other]? := by
  simp [Std.ExtTreeMap.getElem?_insert]

@[simp] theorem get_erase (key other : κ) [Decidable (key = other)] :
    (map.erase key)[other]? = if key = other then none else map[other]? := by
  simp [Std.ExtTreeMap.getElem?_erase]

theorem get_erase_of_ne [DecidableEq κ] {key other : κ} (different : other ≠ key) : (map.erase key)[other]? = map[other]? := by
  rw [get_erase, if_neg (Ne.symm different)]

theorem empty_iff : map.isEmpty = true ↔ ∀ key : κ, map[key]? = none := by
  rw [Std.ExtTreeMap.isEmpty_iff]
  constructor
  · intro same key
    subst same
    simp
  · intro absent
    ext key value
    simp [absent]

end HashMap
end RustAsyncAwait.Library
