import RustAsyncAwait.CoroutineControl
import Mathlib.Tactic.Common

/-! What `main` prints. A live coroutine dies with its first result below 9, so
that the loop has ended with the tenth such result, whoever has drawn it. -/

namespace RustAsyncAwait.CoroutineControl
open Library

variable {rand : Nat → Fin 11} {coroutines left : List RandCoroutine} {locals after : Locals}

/-- The sum of some results. -/
def drawn_sum (rand : Nat → Fin 11) (first count : Nat) : Nat := ((List.range' first count).map fun index => (rand index).val).sum

/-- How many of them are below 9. -/
def low_draws (rand : Nat → Fin 11) (first count : Nat) : Nat := (List.range' first count).countP fun index => (rand index).val < 9

def living (coroutines : List RandCoroutine) : Nat := coroutines.countP RandCoroutine.live

/-- Before each of these results somebody is alive to draw it. -/
def Needed (rand : Nat → Fin 11) (living first count : Nat) : Prop := ∀ fewer, fewer < count → low_draws rand first fewer < living

/-- What a part of the loop has done to the sum and to the coroutines. -/
structure Draws (rand : Nat → Fin 11) (before : Nat) (locals : Locals) (later : Nat) (after : Locals) (count : Nat) : Prop where
  drawn : after.drawn = locals.drawn + count
  total : after.total = locals.total + drawn_sum rand locals.drawn count
  fits : locals.total < u32Size → after.total < u32Size
  living : later + low_draws rand locals.drawn count = before
  needed : Needed rand before locals.drawn count

/-- The sum does not fit any more after some more results. -/
def Over (rand : Nat → Fin 11) (before : Nat) (locals : Locals) : Prop :=
  ∃ count, u32Size ≤ locals.total + drawn_sum rand locals.drawn count ∧ Needed rand before locals.drawn count

theorem sum_add (rand : Nat → Fin 11) (first some_ more : Nat) :
    drawn_sum rand first (some_ + more) = drawn_sum rand first some_ + drawn_sum rand (first + some_) more := by
  simp [drawn_sum, ← List.range'_append_1]

theorem low_add (rand : Nat → Fin 11) (first some_ more : Nat) :
    low_draws rand first (some_ + more) = low_draws rand first some_ + low_draws rand (first + some_) more := by
  simp [low_draws, ← List.range'_append_1]

namespace Draws
variable {before middle later some_ more : Nat} {between : Locals}

theorem refl (living : Nat) (locals : Locals) : Draws rand living locals living locals 0 :=
  ⟨rfl, rfl, id, rfl, fun fewer inside => absurd inside (Nat.not_lt_zero fewer)⟩

theorem needs (first : Draws rand before locals middle between some_) (further : Needed rand middle between.drawn more) :
    Needed rand before locals.drawn (some_ + more) := by
  intro fewer inside
  by_cases early : fewer < some_
  · exact first.needed fewer early
  · obtain ⟨rest, rfl⟩ := Nat.exists_eq_add_of_le (Nat.not_lt.mp early)
    have here := first.living
    have there := further rest (by omega)
    rw [low_add, ← first.drawn]
    omega

theorem trans (first : Draws rand before locals middle between some_) (second : Draws rand middle between later after more) :
    Draws rand before locals later after (some_ + more) := by
  refine ⟨?_, ?_, second.fits ∘ first.fits, ?_, first.needs second.needed⟩
  · rw [second.drawn, first.drawn, Nat.add_assoc]
  · rw [second.total, first.total, first.drawn, sum_add, Nat.add_assoc]
  · have here := first.living
    have there := second.living
    rw [first.drawn] at there
    rw [low_add]
    omega

theorem exceeds (first : Draws rand before locals middle between some_) (exceeds : Over rand middle between) :
    Over rand before locals := by
  obtain ⟨more, large, further⟩ := exceeds
  refine ⟨some_ + more, ?_, first.needs further⟩
  rwa [sum_add, ← first.drawn, ← Nat.add_assoc, ← first.total]

/-- Coroutines that are not visited. -/
theorem beside (draws : Draws rand before locals later after some_) (others : Nat) :
    Draws rand (before + others) locals (later + others) after some_ := by
  refine ⟨draws.drawn, draws.total, draws.fits, ?_, fun fewer inside => Nat.lt_add_right others (draws.needed fewer inside)⟩
  have living := draws.living
  omega

end Draws

theorem Over.beside {before : Nat} (exceeds : Over rand before locals) (others : Nat) : Over rand (before + others) locals := by
  obtain ⟨count, large, needed⟩ := exceeds
  exact ⟨count, large, fun fewer inside => Nat.lt_add_right others (needed fewer inside)⟩

/-- What the visits of some coroutines come to. -/
inductive Visits (rand : Nat → Fin 11) (before : Nat) (locals : Locals) : Option (Nat × Locals) → Prop
  | draws {later count : Nat} {after : Locals} (draws : Draws rand before locals later after count)
      (dead : after.all_dead = true ↔ locals.all_dead = true ∧ before = 0) (more : 0 < before → 0 < count) :
      Visits rand before locals (some (later, after))
  | panics (exceeds : Over rand before locals) : Visits rand before locals none

def RandCoroutine.lives (coroutine : RandCoroutine) : Nat := if coroutine.live then 1 else 0

theorem living_cons (coroutine : RandCoroutine) (rest : List RandCoroutine) :
    living (coroutine :: rest) = coroutine.lives + living rest := by
  rw [living, List.countP_cons, Nat.add_comm]
  rfl

theorem visit_live {coroutine : RandCoroutine} (live : coroutine.live = true) : visit rand coroutine locals =
    if locals.total + (rand locals.drawn).val < u32Size then
      some (⟨(rand locals.drawn).val, decide (9 ≤ (rand locals.drawn).val)⟩,
        ⟨locals.total + (rand locals.drawn).val, false, locals.drawn + 1⟩)
    else none := by
  by_cases low : (rand locals.drawn).val < 9
  · simp [visit, RandCoroutine.generate, live, low, Nat.not_le.mpr low]
  · simp [visit, RandCoroutine.generate, live, low, Nat.not_lt.mp low]

theorem visits (rand : Nat → Fin 11) (coroutine : RandCoroutine) (locals : Locals) :
    Visits rand coroutine.lives locals ((visit rand coroutine locals).map fun done => (done.1.lives, done.2)) := by
  by_cases live : coroutine.live = true
  · rw [visit_live live]
    have one : coroutine.lives = 1 := by simp [RandCoroutine.lives, live]
    have needed : Needed rand coroutine.lives locals.drawn 1 := by
      intro fewer inside
      rw [Nat.lt_one_iff.mp inside, one]
      exact Nat.one_pos
    by_cases fits : locals.total + (rand locals.drawn).val < u32Size
    · rw [if_pos fits]
      refine .draws ⟨rfl, by simp [drawn_sum], fun _ => fits, ?_, needed⟩ (by simp [one]) fun _ => Nat.one_pos
      by_cases low : (rand locals.drawn).val < 9
      · simp [low_draws, RandCoroutine.lives, live, low]
      · simp [low_draws, RandCoroutine.lives, live, low, Nat.not_lt.mp low]
    · rw [if_neg fits]
      exact .panics ⟨1, by simpa [drawn_sum] using fits, needed⟩
  · have same : visit rand coroutine locals = some (coroutine, locals) := if_neg live
    have none_ : coroutine.lives = 0 := by simp [RandCoroutine.lives, live]
    rw [same]
    exact .draws (.refl _ _) (by simp [none_]) fun some_ => absurd some_ (by simp [none_])

theorem pass_cons (rand : Nat → Fin 11) (coroutine : RandCoroutine) (rest : List RandCoroutine) (locals : Locals) :
    pass rand (coroutine :: rest) locals =
      (visit rand coroutine locals).bind fun first => (pass rand rest first.2).map fun others => (first.1 :: others.1, others.2) := by
  cases found : visit rand coroutine locals with
  | none => simp [pass, found]
  | some first => cases passed : pass rand rest first.2 <;> simp [pass, found, passed]

theorem passes (rand : Nat → Fin 11) (coroutines : List RandCoroutine) (locals : Locals) :
    Visits rand (living coroutines) locals ((pass rand coroutines locals).map fun done => (living done.1, done.2)) := by
  induction coroutines generalizing locals with
  | nil => exact .draws (.refl _ _) (by simp [living]) fun some_ => absurd some_ (Nat.lt_irrefl 0)
  | cons coroutine rest ih =>
    have first := visits rand coroutine locals
    rw [living_cons, pass_cons]
    cases visited : visit rand coroutine locals with
    | none =>
      rw [visited] at first
      cases first with
      | panics exceeds => exact .panics (exceeds.beside (living rest))
    | some done =>
      have second := ih done.2
      rw [visited] at first
      cases first with
      | @draws _ _ _ one dead more =>
        rw [Option.bind_some]
        have here := one.beside (living rest)
        cases passed : pass rand rest done.2 with
        | none =>
          rw [passed] at second
          cases second with
          | panics exceeds =>
            refine .panics (here.exceeds ?_)
            rw [Nat.add_comm]
            exact exceeds.beside done.1.lives
        | some others =>
          rw [passed] at second
          cases second with
          | @draws _ _ _ two all further =>
            have there := two.beside done.1.lives
            rw [Nat.add_comm (living rest), Nat.add_comm (living others.1)] at there
            rw [Option.map_some, Option.map_some, living_cons]
            refine .draws (here.trans there) ?_ ?_
            · rw [all, dead, Nat.add_eq_zero_iff, and_assoc]
            · intro some_
              rcases Nat.eq_zero_or_pos coroutine.lives with none_ | alive
              · exact Nat.add_pos_right _ (further (by omega))
              · exact Nat.add_pos_left (more alive) _

/-- The result with which the last coroutine dies. -/
structure LastDraw (rand : Nat → Fin 11) (count : Nat) : Prop where
  ten : low_draws rand 10 count = 10
  earlier : Needed rand 10 10 count

theorem LastDraw.unique {first second : Nat} (one : LastDraw rand first) (other : LastDraw rand second) : first = second := by
  rcases Nat.lt_trichotomy first second with less | same | more
  · exact absurd one.ten (Nat.ne_of_lt (other.earlier first less))
  · exact same
  · exact absurd other.ten (Nat.ne_of_lt (one.earlier second more))

theorem sum_le (rand : Nat → Fin 11) (first : Nat) {fewer count : Nat} (less : fewer ≤ count) :
    drawn_sum rand first fewer ≤ drawn_sum rand first count := by
  obtain ⟨more, rfl⟩ := Nat.exists_eq_add_of_le less
  rw [sum_add]
  exact Nat.le_add_right _ _

/-- The variables of `main` since its loop has begun. -/
def Runs (rand : Nat → Fin 11) : Option (List RandCoroutine × Locals) → Prop
  | some (coroutines, locals) => locals.total < u32Size ∧ ∃ count, Draws rand 10 { drawn := 10 } (living coroutines) locals count
  | none => Over rand 10 { drawn := 10 }

theorem runs_start (rand : Nat → Fin 11) : Runs rand (some (start rand)) :=
  ⟨(by decide : 0 < u32Size), 0, (.refl 10 _ : Draws rand 10 { drawn := 10 } 10 { drawn := 10 } 0)⟩

/-- How much can still happen: a result kills a coroutine or adds at least 9. -/
def remaining : Option (List RandCoroutine × Locals) → Nat
  | some (coroutines, locals) => living coroutines + (u32Size - locals.total) + 1
  | none => 0

/-- Results that are not below 9 add to the sum. -/
theorem low_or_sum (rand : Nat → Fin 11) (first count : Nat) : count ≤ low_draws rand first count + drawn_sum rand first count := by
  induction count with
  | zero => exact Nat.zero_le _
  | succ count ih =>
    rw [low_add, sum_add]
    have one : 1 ≤ low_draws rand (first + count) 1 + drawn_sum rand (first + count) 1 := by
      simp only [low_draws, drawn_sum, List.range'_one, List.countP_singleton, List.map_singleton, List.sum_singleton]
      by_cases low : (rand (first + count)).val < 9
      · simp [low]
      · simp only [low, decide_false]
        omega
    omega

/-- What one round does. -/
inductive Round (rand : Nat → Fin 11) : Option (List RandCoroutine × Locals) →
    Option (Option (List RandCoroutine × Locals)) → Prop
  | panicked (exceeds : Over rand 10 { drawn := 10 }) : Round rand none none
  | ends {coroutines : List RandCoroutine} {locals : Locals} (dead : living coroutines = 0) :
      Round rand (some (coroutines, locals)) none
  | goes_on {state next : Option (List RandCoroutine × Locals)} (runs : Runs rand next)
      (less : remaining next < remaining state) : Round rand state (some next)

theorem round_cases {state : Option (List RandCoroutine × Locals)} (runs : Runs rand state) : Round rand state (round rand state) := by
  cases state with
  | none => exact .panicked runs
  | some pair =>
    obtain ⟨coroutines, locals⟩ := pair
    obtain ⟨fits, count, before⟩ := runs
    have here : Draws rand 10 { drawn := 10 } (living coroutines) { locals with all_dead := true } count :=
      ⟨before.drawn, before.total, before.fits, before.living, before.needed⟩
    have visits := passes rand coroutines { locals with all_dead := true }
    rw [round]
    cases passed : pass rand coroutines { locals with all_dead := true } with
    | none =>
      rw [passed] at visits
      cases visits with
      | panics exceeds => exact .goes_on (here.exceeds exceeds) (Nat.succ_pos _)
    | some pair =>
      obtain ⟨coroutines', locals'⟩ := pair
      rw [passed] at visits
      cases visits with
      | @draws _ more _ drew dead some_ =>
        simp only
        by_cases all : locals'.all_dead = true
        · rw [if_pos all]
          exact .ends (dead.mp all).2
        · rw [if_neg all]
          refine .goes_on ⟨drew.fits fits, _, here.trans drew⟩ ?_
          have alive : 0 < living coroutines := by
            by_contra none_
            exact all (dead.mpr ⟨rfl, by omega⟩)
          have drawn := some_ alive
          have killed := drew.living
          have total := drew.total
          have either := low_or_sum rand locals.drawn more
          have still := drew.fits fits
          simp only [remaining] at *
          omega

theorem main_ends (rand : Nat → Fin 11) : ∃ fuel final, loop (round rand) fuel (some (start rand)) = some final := by
  refine stops_of_rank (Runs rand) remaining ?_ (runs_start rand)
  intro state next runs goes_on
  have cases_ := round_cases runs
  rw [goes_on] at cases_
  cases cases_ with
  | goes_on runs less => exact ⟨runs, less⟩

/-- Where the loop has ended. -/
theorem ended_cases {fuel : Nat} {final : Option (List RandCoroutine × Locals)}
    (ended : loop (round rand) fuel (some (start rand)) = some final) :
    (final = none ∧ Over rand 10 { drawn := 10 }) ∨ ∃ coroutines locals count, final = some (coroutines, locals) ∧
      LastDraw rand count ∧ locals.total = drawn_sum rand 10 count ∧ locals.total < u32Size := by
  have runs : Runs rand final := by
    refine loop_invariant (Runs rand) ?_ (runs_start rand) ended
    intro state next runs goes_on
    have cases_ := round_cases runs
    rw [goes_on] at cases_
    cases cases_ with
    | goes_on runs => exact runs
  have cases_ := round_cases runs
  rw [loop_ended ended] at cases_
  cases cases_ with
  | panicked exceeds => exact .inl ⟨rfl, exceeds⟩
  | @ends coroutines locals dead =>
    obtain ⟨fits, count, draws⟩ := runs
    refine .inr ⟨coroutines, locals, count, rfl, ⟨?_, draws.needed⟩, ?_, fits⟩
    · have living := draws.living
      rw [dead, Nat.zero_add] at living
      exact living
    · rw [draws.total]
      exact Nat.zero_add _

/-- `main` ends whatever is drawn. It prints the sum of the results up to the
tenth one below 9, or panics where that is too much for a `u32`. -/
theorem main_prints_iff (rand : Nat → Fin 11) : (∃ fuel outcome, main rand fuel = some outcome) ∧
    ∀ total, (∃ fuel, main rand fuel = some (some total)) ↔
      ∃ count, LastDraw rand count ∧ total = drawn_sum rand 10 count ∧ total < u32Size := by
  obtain ⟨fuel, final, ended⟩ := main_ends rand
  refine ⟨⟨fuel, final.map fun final => final.2.total, by rw [main, ended, Option.map_some]⟩, fun total => ?_⟩
  constructor
  · intro prints
    obtain ⟨fuel, prints⟩ := prints
    obtain ⟨final, ended, printed⟩ := Option.map_eq_some_iff.mp prints
    rcases ended_cases ended with ⟨rfl, _⟩ | ⟨coroutines, locals, count, rfl, last, sum, fits⟩
    · cases printed
    · cases printed
      exact ⟨count, last, sum, fits⟩
  · intro ends
    obtain ⟨count, last, rfl, fits⟩ := ends
    refine ⟨fuel, ?_⟩
    rcases ended_cases ended with ⟨_, many, large, needed⟩ | ⟨coroutines, locals, other, rfl, also, sum, _⟩
    · have fewer : many ≤ count := by
        by_contra more
        exact absurd last.ten (Nat.ne_of_lt (needed count (Nat.not_le.mp more)))
      have at_most := sum_le rand 10 fewer
      simp only [Nat.zero_add] at large
      omega
    · rw [main, ended, Option.map_some, Option.map_some, sum, also.unique last]

end RustAsyncAwait.CoroutineControl
