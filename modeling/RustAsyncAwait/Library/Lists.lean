import Mathlib.Data.List.Basic
import Mathlib.Data.List.TakeWhile
import Mathlib.Algebra.GroupWithZero.Nat

/-! Facts about lists: events in the order in which they happened, and sums over
the entries of which one changes. -/

namespace RustAsyncAwait.Library

universe v

/-- `[first, second].Sublist trace` says that `first` happened before `second`.
A new event can only be the second of such a pair. -/
theorem before_snoc {ε : Type v} {first second last : ε} {trace : List ε} :
    [first, second].Sublist (trace ++ [last]) ↔
      [first, second].Sublist trace ∨ first ∈ trace ∧ second = last := by
  constructor
  · intro before
    obtain ⟨left, right, split, inside, tail⟩ := List.sublist_append_iff.mp before
    rcases left with _ | ⟨head, left⟩
    · simp only [List.nil_append] at split
      subst split
      simpa using tail.length_le
    · simp only [List.cons_append, List.cons.injEq] at split
      obtain ⟨rfl, split⟩ := split
      rcases left with _ | ⟨next, left⟩
      · simp only [List.nil_append] at split
        subst split
        exact .inr ⟨by simpa using inside, by simpa using tail⟩
      · simp only [List.cons_append, List.cons.injEq, List.nil_eq, List.append_eq_nil_iff] at split
        obtain ⟨rfl, rfl, rfl⟩ := split
        exact .inl inside
  · intro either
    rcases either with before | ⟨member, rfl⟩
    · exact before.trans (List.sublist_append_left _ _)
    · exact (List.singleton_sublist.mpr member).append (List.Sublist.refl [second])

/-- The same for an event between two others. -/
theorem between_snoc {ε : Type v} {first second third last : ε} {trace : List ε} :
    [first, second, third].Sublist (trace ++ [last]) ↔
      [first, second, third].Sublist trace ∨ [first, second].Sublist trace ∧ third = last := by
  constructor
  · intro between
    obtain ⟨left, right, split, inside, tail⟩ := List.sublist_append_iff.mp between
    rcases List.sublist_singleton.mp tail with rfl | rfl
    · rw [List.append_nil] at split
      exact .inl (split ▸ inside)
    · obtain ⟨rfl, same⟩ := List.append_inj' (show [first, second] ++ [third] = left ++ [last] from split) rfl
      exact .inr ⟨inside, List.singleton_inj.mp same⟩
  · intro either
    rcases either with between | ⟨before, rfl⟩
    · exact between.trans (List.sublist_append_left _ _)
    · exact before.append (List.Sublist.refl [third])

theorem singleton_getElem? {α : Type v} {item found : α} {index : Nat} :
    [item][index]? = some found ↔ index = 0 ∧ item = found := by
  cases index <;> simp

theorem map_modify_of_eq {α β : Type v} (items : List α) (index : Nat) (change : α → α) (view : α → β)
    (unseen : ∀ item, view (change item) = view item) : (items.modify index change).map view = items.map view := by
  apply List.ext_getElem?
  intro other
  by_cases same : index = other <;> simp [same, Option.map_map, Function.comp_def, unseen]

theorem getElem?_set_found {α : Type v} {items : List α} {index : Nat} {old : α} (found : items[index]? = some old)
    (new : α) (other : Nat) : (items.set index new)[other]? = if index = other then some new else items[other]? := by
  by_cases same : index = other
  · rw [if_pos same, ← same]
    exact List.getElem?_set_self (List.getElem?_eq_some_iff.mp found).1
  · rw [if_neg same]
    exact List.getElem?_set_ne same

/-- A view that does not see a replacement. -/
theorem map_set_found {α β : Type v} {items : List α} {index : Nat} {old new : α} (found : items[index]? = some old)
    (view : α → β) (unseen : view new = view old) : (items.set index new).map view = items.map view := by
  apply List.ext_getElem?
  intro other
  rw [List.getElem?_map, List.getElem?_map, getElem?_set_found found]
  split
  · subst other
    rw [found, Option.map_some, Option.map_some, unseen]
  · rfl

theorem filterMap_snoc {ε : Type v} {β : Type*} (view : ε → Option β) (trace : List ε) (event : ε) :
    (trace ++ [event]).filterMap view = trace.filterMap view ++ (view event).toList := by
  cases seen : view event <;> simp [seen]

/-- What is seen of a trace from its first such event on. -/
def seenFrom {ε : Type v} {β : Type*} (starts : ε → Bool) (view : ε → Option β) (trace : List ε) : List β :=
  (trace.dropWhile fun event => !starts event).filterMap view

theorem seenFrom_snoc {ε : Type v} {β : Type*} {starts : ε → Bool} {trace : List ε} (started : ∃ event ∈ trace, starts event = true)
    (view : ε → Option β) (event : ε) : seenFrom starts view (trace ++ [event]) = seenFrom starts view trace ++ (view event).toList := by
  have some_ : trace.dropWhile (fun event => !starts event) ≠ [] := by
    intro empty
    obtain ⟨first, member, start⟩ := started
    have quiet := List.dropWhile_eq_nil_iff.mp empty first member
    simp [start] at quiet
  simp only [seenFrom, List.dropWhile_append, List.isEmpty_iff, some_, if_false]
  exact filterMap_snoc view _ event

theorem seenFrom_first {ε : Type v} {β : Type*} {starts : ε → Bool} {trace : List ε} (quiet : ∀ event ∈ trace, starts event = false)
    (view : ε → Option β) {event : ε} (start : starts event = true) : seenFrom starts view (trace ++ [event]) = (view event).toList := by
  rw [seenFrom, List.dropWhile_append_of_pos fun event member => by simp [quiet event member]]
  cases seen : view event <;> simp [start, seen]

/-- A list up to its first such item, and with it. -/
def through {α : Type v} (last : α → Bool) : List α → List α
  | [] => []
  | item :: rest => if last item then [item] else item :: through last rest

theorem through_append {α : Type v} {last : α → Bool} {items : List α} {item : α} (before : ∀ item ∈ items, last item = false)
    (here : last item = true) (rest : List α) : through last (items ++ item :: rest) = items ++ [item] := by
  induction items with
  | nil => simp [through, here]
  | cons first items ih =>
    have earlier := List.forall_mem_cons.mp before
    simp [through, earlier.1, ih earlier.2]

/-- Replacing one item trades its part for the new item's. -/
theorem perm_flatMap_set {α β : Type v} (items : List α) (parts : α → List β) (index : Nat) (new old : α)
    (found : items[index]? = some old) :
    ((items.set index new).flatMap parts ++ parts old).Perm (items.flatMap parts ++ parts new) := by
  induction items generalizing index with
  | nil => simp at found
  | cons item items ih =>
    cases index with
    | zero =>
      simp only [List.getElem?_cons_zero, Option.some.injEq] at found
      subst found
      rw [List.set_cons_zero, List.flatMap_cons, List.flatMap_cons, List.append_assoc (parts item)]
      exact List.perm_append_comm.trans (List.perm_append_comm.append_left (parts item))
    | succ index =>
      have rest := ih index (by simpa using found)
      simp only [List.set_cons_succ, List.flatMap_cons, List.append_assoc]
      exact rest.append_left _

theorem count_flatMap_set {α β : Type v} [BEq β] (items : List α) (parts : α → List β) (index : Nat) (new old : α)
    (found : items[index]? = some old) (part : β) :
    ((items.set index new).flatMap parts).count part + (parts old).count part =
      (items.flatMap parts).count part + (parts new).count part := by
  have traded := (perm_flatMap_set items parts index new old found).count_eq part
  simpa only [List.count_append] using traded

/-- A part that is there at most once is the part of one item. -/
theorem index_unique {α β : Type v} [BEq β] [LawfulBEq β] {items : List α} {parts : α → List β} {part : β}
    (once : (items.flatMap parts).count part ≤ 1) {first second : Nat} {one other : α}
    (at_first : items[first]? = some one) (in_one : part ∈ parts one)
    (at_second : items[second]? = some other) (in_other : part ∈ parts other) : first = second := by
  induction items generalizing first second with
  | nil => simp at at_first
  | cons item items ih =>
    rw [List.flatMap_cons, List.count_append] at once
    have later {index : Nat} {found : α} (at_index : items[index]? = some found) (inside : part ∈ parts found) :
        0 < (items.flatMap parts).count part :=
      List.count_pos_iff.mpr (List.mem_flatMap.mpr ⟨found, List.mem_of_getElem? at_index, inside⟩)
    cases first with
    | zero =>
      cases second with
      | zero => rfl
      | succ second =>
        cases at_first
        have twice := later at_second in_other
        have here := List.count_pos_iff.mpr in_one
        omega
    | succ first =>
      cases second with
      | zero =>
        cases at_second
        have twice := later at_first in_one
        have here := List.count_pos_iff.mpr in_other
        omega
      | succ second => exact congrArg _ (ih (by omega) at_first at_second)

theorem sum_set (items : List Nat) (index new old : Nat) (found : items[index]? = some old) :
    (items.set index new).sum + old = items.sum + new := by
  have same := (perm_flatMap_set items (fun item => [item]) index new old found).sum_nat
  simpa using same

/-- Replacing one item counts the new one in place of the old one. -/
theorem countP_set {α : Type v} (counted : α → Bool) (items : List α) (index : Nat) (new old : α)
    (found : items[index]? = some old) :
    (items.set index new).countP counted + (if counted old then 1 else 0) =
      items.countP counted + if counted new then 1 else 0 := by
  have traded := (perm_flatMap_set items (fun item => [item]) index new old found).countP_eq counted
  simpa [List.countP_append, List.countP_singleton] using traded

end RustAsyncAwait.Library
