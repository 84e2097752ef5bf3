import RustAsyncAwait.Actors
import Mathlib.Algebra.Ring.Int.Defs

/-! The actor and its replacement, compared on the same values. -/

namespace RustAsyncAwait.Actors

/-- The sums of the first one, two and more of the values, on top of a start. -/
def sums (start : Int) : List Int → List Int
  | [] => []
  | value :: rest => (start + value) :: sums (start + value) rest

theorem mem_sums {start sum : Int} {values : List Int} :
    sum ∈ sums start values ↔ ∃ n < values.length, start + (values.take (n + 1)).sum = sum := by
  induction values generalizing start with
  | nil => simp [sums]
  | cons value rest ih =>
    rw [sums, List.mem_cons, ih]
    constructor
    · intro either
      rcases either with rfl | ⟨n, below, rfl⟩
      · exact ⟨0, by simp, by simp⟩
      · exact ⟨n + 1, by simpa using below, by rw [List.take_succ_cons, List.sum_cons, Int.add_assoc]⟩
    · intro found
      obtain ⟨n, below, rfl⟩ := found
      cases n with
      | zero => simp
      | succ n =>
        refine .inr ⟨n, by simpa using below, ?_⟩
        rw [List.take_succ_cons, List.sum_cons, Int.add_assoc]

def fits (width : Nat) (sum : Int) : Prop := -2 ^ (width - 1) ≤ sum ∧ sum < 2 ^ (width - 1)

section AddAssign
variable {width : Nat} {build : Build} {state value next : BitVec width}

theorem fits_toInt (positive : 0 < width) (state : BitVec width) : fits width state.toInt := by
  have low := @BitVec.le_two_mul_toInt width state
  have high := @BitVec.two_mul_toInt_lt width state
  obtain ⟨exponent, rfl⟩ := Nat.exists_eq_add_of_lt positive
  simp only [Nat.zero_add, Int.pow_succ] at low high
  constructor
  · simp only [Nat.zero_add, Nat.add_sub_cancel]
    omega
  · simp only [Nat.zero_add, Nat.add_sub_cancel]
    omega

theorem saddOverflow_iff : state.saddOverflow value = true ↔ ¬ fits width (state.toInt + value.toInt) := by
  unfold BitVec.saddOverflow fits
  simp only [ge_iff_le, Bool.or_eq_true, decide_eq_true_eq]
  omega

theorem add_assign_fits (fit : fits width (state.toInt + value.toInt)) :
    ∃ next, add_assign build state value = some next ∧ next.toInt = state.toInt + value.toInt := by
  have clear : ¬ state.saddOverflow value = true := fun overflows => saddOverflow_iff.mp overflows fit
  refine ⟨state + value, ?_, BitVec.toInt_add_of_not_saddOverflow clear⟩
  rw [add_assign, if_neg fun panics => clear panics.2]

/-- A sum that does not fit is not the value of any state. -/
theorem overflowed (positive : 0 < width) (overflows : ¬ fits width (state.toInt + value.toInt)) :
    next.toInt ≠ state.toInt + value.toInt := by
  intro same
  apply overflows
  rw [← same]
  exact fits_toInt positive next

end AddAssign

/-- The actor answers with the sums exactly when all of them fit in its state. -/
theorem resp_actor_sums (build : Build) (state : BitVec 32) (values : List (BitVec 32)) :
    (resp_actor build state values).map (Option.map BitVec.toInt) =
        (sums state.toInt (values.map BitVec.toInt)).map some ↔
      ∀ sum ∈ sums state.toInt (values.map BitVec.toInt), fits 32 sum := by
  induction values generalizing state with
  | nil => simp [resp_actor, sums]
  | cons value rest ih =>
    rw [List.map_cons, sums, List.forall_mem_cons]
    by_cases fit : fits 32 (state.toInt + value.toInt)
    · obtain ⟨next, added, same⟩ := @add_assign_fits 32 build state value fit
      have widened : (next.signExtend 64).toInt = next.toInt := BitVec.toInt_signExtend_of_le (by decide)
      simp only [resp_actor, added, List.map_cons, Option.map_some, widened, same, List.cons.injEq, true_and]
      rw [← same, ih next, same]
      exact (and_iff_right fit).symm
    · refine iff_of_false (fun answered => ?_) fun all => fit all.1
      cases added : add_assign build state value with
      | none => simp [resp_actor, added] at answered
      | some next =>
        have widened : (next.signExtend 64).toInt = next.toInt := BitVec.toInt_signExtend_of_le (by decide)
        simp only [resp_actor, added, List.map_cons, Option.map_some, widened, List.cons.injEq,
          Option.some.injEq] at answered
        exact overflowed (by decide) fit answered.1

/-- Sums that fit in an `i32` fit in the state of the replacement. -/
theorem calls_sums (build : Build) (state : BitVec 64) (values : List (BitVec 32))
    (fit : ∀ sum ∈ sums state.toInt (values.map BitVec.toInt), fits 32 sum) :
    (calls build state (values.map (BitVec.signExtend 64))).map (Option.map BitVec.toInt) =
      (sums state.toInt (values.map BitVec.toInt)).map some := by
  induction values generalizing state with
  | nil => rfl
  | cons value rest ih =>
    rw [List.map_cons, sums, List.forall_mem_cons] at fit
    have widened : (value.signExtend 64).toInt = value.toInt := BitVec.toInt_signExtend_of_le (by decide)
    have wide : fits 64 (state.toInt + (value.signExtend 64).toInt) := by
      rw [widened]
      have narrow := fit.1
      unfold fits at narrow ⊢
      omega
    obtain ⟨next, added, same⟩ := @add_assign_fits 64 build state (value.signExtend 64) wide
    rw [widened] at same
    have rest := ih next (by rw [same]; exact fit.2)
    simp only [List.map_cons, calls, actor_replacement, added, Option.map_some, rest, sums, same]

/-- Both give the same answers, namely the sums, and neither panics. -/
def Agree (build : Build) (values : List (BitVec 32)) : Prop :=
  let answers := resp_actor build 0 values
  let results := calls build 0 (values.map (BitVec.signExtend 64))
  answers = results ∧ answers.map (Option.map BitVec.toInt) = (sums 0 (values.map BitVec.toInt)).map some

/-- The two agree exactly on the values of which every first few have a sum that
is an `i32`. -/
theorem actors_agree (build : Build) (values : List (BitVec 32)) :
    Agree build values ↔ ∀ n < values.length, fits 32 ((values.map BitVec.toInt).take (n + 1)).sum := by
  have all : (∀ sum ∈ sums 0 (values.map BitVec.toInt), fits 32 sum) ↔
      ∀ n < values.length, fits 32 ((values.map BitVec.toInt).take (n + 1)).sum := by
    simp only [mem_sums, List.length_map, Int.zero_add, forall_exists_index, and_imp,
      forall_apply_eq_imp_iff₂]
  rw [← all]
  constructor
  · intro agree
    exact (resp_actor_sums build 0 values).mp agree.2
  · intro fit
    have answers := (resp_actor_sums build 0 values).mpr fit
    have injective : Function.Injective (Option.map (@BitVec.toInt 64)) :=
      Option.map_injective fun one other => BitVec.eq_of_toInt_eq
    exact ⟨List.map_injective_iff.mpr injective (answers.trans (calls_sums build 0 values fit).symm), answers⟩

/-- The largest `i32` and one more: the actor panics or answers with the smallest `i32`. -/
theorem actors_disagree : ¬ ∃ build, ∀ values, Agree build values := by
  intro always
  obtain ⟨build, agree⟩ := always
  have answers := (agree [0x7fffffff, 1]).1
  revert answers
  cases build with
  | debug => decide
  | release => decide

end RustAsyncAwait.Actors
