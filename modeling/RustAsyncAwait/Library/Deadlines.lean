import Mathlib.Data.List.Infix
import Mathlib.Data.List.Nodup
import Mathlib.Data.Nat.Find

/-! A queue whose members are asked in turn whether their time has come. One that
says no goes to the end of the queue, and one that says yes leaves it. -/

namespace RustAsyncAwait.Library

universe u
variable {α : Type u} {passed : Nat → α → Bool} {queue : List α} {member : α} {due count : Nat}

/-- The first of the queue is asked. -/
def ask (passed : α → Bool) : List α → List α
  | [] => []
  | first :: rest => if passed first then rest else rest ++ [first]

/-- The queue after some questions. `passed` says whose time has come by which question. -/
def asked (passed : Nat → α → Bool) (queue : List α) : Nat → List α
  | 0 => queue
  | count + 1 => ask (passed count) (asked passed queue count)

/-- The member's time has come with this question, and had not before. -/
structure Due (passed : Nat → α → Bool) (member : α) (due : Nat) : Prop where
  now : passed due member = true
  before : ∀ earlier, earlier < due → passed earlier member = false

theorem due_exists (ends : ∃ count, passed count member = true) : ∃ due, Due passed member due :=
  ⟨Nat.find ends, Nat.find_spec ends, fun _ before => by simpa using Nat.find_min ends before⟩

theorem ask_subperm (passed : α → Bool) (queue : List α) : ∃ left, (ask passed queue).Perm left ∧ left.Sublist queue := by
  cases queue with
  | nil => exact ⟨[], .refl _, .refl _⟩
  | cons first rest =>
    simp only [ask]
    split
    · exact ⟨rest, .refl _, List.sublist_cons_self ..⟩
    · exact ⟨first :: rest, List.perm_append_singleton .., .refl _⟩

theorem asked_nodup (unique : queue.Nodup) (count : Nat) : (asked passed queue count).Nodup := by
  induction count with
  | zero => exact unique
  | succ count ih =>
    obtain ⟨left, same, part⟩ := ask_subperm (passed count) (asked passed queue count)
    exact same.nodup_iff.mpr (ih.sublist part)

theorem asked_succ_subset (count : Nat) : asked passed queue (count + 1) ⊆ asked passed queue count := by
  obtain ⟨left, same, part⟩ := ask_subperm (passed count) (asked passed queue count)
  exact fun _ inside => part.subset (same.subset inside)

theorem asked_subset {more : Nat} (later : count ≤ more) : asked passed queue more ⊆ asked passed queue count := by
  induction later with
  | refl => exact List.Subset.refl _
  | step _ ih => exact List.Subset.trans (asked_succ_subset _) ih

theorem asked_length_le (count : Nat) : (asked passed queue count).length ≤ queue.length := by
  induction count with
  | zero => exact Nat.le_refl _
  | succ count ih =>
    obtain ⟨left, same, part⟩ := ask_subperm (passed count) (asked passed queue count)
    exact same.length_eq ▸ Nat.le_trans part.length_le ih

/-- Nobody leaves before the time has come. -/
theorem asked_keeps (inside : member ∈ asked passed queue count) (early : passed count member = false) :
    member ∈ asked passed queue (count + 1) := by
  rw [asked]
  cases here : asked passed queue count with
  | nil =>
    rw [here] at inside
    cases inside
  | cons first rest =>
    rw [here] at inside
    rw [ask]
    split
    next passed_first =>
      refine (List.mem_cons.mp inside).resolve_left fun same => ?_
      rw [same, passed_first] at early
      cases early
    next => exact (List.perm_append_singleton ..).symm.subset inside

theorem asked_before (inside : member ∈ queue) (early : ∀ earlier, earlier < count → passed earlier member = false) :
    member ∈ asked passed queue count := by
  induction count with
  | zero => exact inside
  | succ count ih =>
    have here := ih fun earlier before => early earlier (Nat.lt_succ_of_lt before)
    exact asked_keeps here (early count (Nat.lt_succ_self count))

/-- Once the time has come, its place in the queue says when a member leaves. -/
theorem asked_place (unique : queue.Nodup) (ends : ∀ later, count ≤ later → passed later member = true) {place : Nat}
    (at_place : (asked passed queue count)[place]? = some member) :
    member ∈ asked passed queue (count + place) ∧ member ∉ asked passed queue (count + place + 1) := by
  induction place generalizing count with
  | zero =>
    refine ⟨List.mem_of_getElem? at_place, ?_⟩
    obtain ⟨rest, front⟩ : ∃ rest, asked passed queue count = member :: rest := by
      cases here : asked passed queue count with
      | nil => simp [here] at at_place
      | cons first rest =>
        simp only [here, List.getElem?_cons_zero, Option.some.injEq] at at_place
        exact ⟨rest, by rw [at_place]⟩
    have alone : (asked passed queue count).Nodup := asked_nodup unique count
    rw [front] at alone
    rw [Nat.add_zero, asked, front, ask, if_pos (ends count (Nat.le_refl count))]
    exact (List.nodup_cons.mp alone).1
  | succ place ih =>
    have moved : (asked passed queue (count + 1))[place]? = some member := by
      rw [asked]
      cases here : asked passed queue count with
      | nil => simp [here] at at_place
      | cons first rest =>
        rw [here, List.getElem?_cons_succ] at at_place
        rw [ask]
        split
        · exact at_place
        · rw [List.getElem?_append_left (List.getElem?_eq_some_iff.mp at_place).1]
          exact at_place
    have next := ih (fun later after => ends later (Nat.le_of_succ_le after)) moved
    rwa [Nat.succ_add_eq_add_succ] at next

section Leaves
variable (unique : queue.Nodup) (stays : ∀ count member, passed count member = true → passed (count + 1) member = true)
include unique stays

/-- A member leaves when its time comes, or fewer questions later than the queue is long. -/
theorem asked_leaves (inside : member ∈ queue) (ends : Due passed member due) :
    ∃ turn, due ≤ turn ∧ turn < due + queue.length ∧
      member ∈ asked passed queue turn ∧ member ∉ asked passed queue (turn + 1) := by
  have still (later : Nat) (after : due ≤ later) : passed later member = true := by
    induction after with
    | refl => exact ends.now
    | step _ ih => exact stays _ member ih
  obtain ⟨place, at_place⟩ := List.getElem?_of_mem (asked_before inside ends.before)
  have short : place < queue.length :=
    Nat.lt_of_lt_of_le (List.getElem?_eq_some_iff.mp at_place).1 (asked_length_le due)
  exact ⟨due + place, Nat.le_add_right due place, Nat.add_lt_add_left short due, asked_place unique still at_place⟩

/-- The queue runs empty if the time of each of its members comes. -/
theorem asked_empties : (∃ count, asked passed queue count = []) ↔ ∀ member ∈ queue, ∃ count, passed count member = true := by
  constructor
  · intro empties member inside
    obtain ⟨count, empty⟩ := empties
    by_contra never
    simp only [not_exists, Bool.not_eq_true] at never
    have still : member ∈ asked passed queue count := asked_before inside fun earlier _ => never earlier
    rw [empty] at still
    cases still
  · intro ends
    have left (part : List α) (subset : part ⊆ queue) : ∃ count, ∀ member ∈ part, member ∉ asked passed queue count := by
      induction part with
      | nil => exact ⟨0, by simp⟩
      | cons first rest ih =>
        have inside := subset (List.mem_cons_self ..)
        obtain ⟨count, gone⟩ := ih fun _ member => subset (List.mem_cons_of_mem _ member)
        obtain ⟨due, first_ends⟩ := due_exists (ends first inside)
        obtain ⟨turn, _, _, _, out⟩ := asked_leaves unique stays inside first_ends
        refine ⟨max count (turn + 1), fun member among => ?_⟩
        rcases List.mem_cons.mp among with same | among
        · exact fun here => out (asked_subset (Nat.le_max_right ..) (same ▸ here))
        · exact fun here => gone member among (asked_subset (Nat.le_max_left ..) here)
    obtain ⟨count, gone⟩ := left queue (List.Subset.refl _)
    refine ⟨count, List.eq_nil_iff_forall_not_mem.mpr fun member here => ?_⟩
    exact gone member (asked_subset (Nat.zero_le count) here) here

end Leaves

end RustAsyncAwait.Library
