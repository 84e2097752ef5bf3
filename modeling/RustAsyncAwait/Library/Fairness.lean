import RustAsyncAwait.Library.Machine

/-! Runs without end. A schedule offers one event at a time; where it cannot
happen, nothing does. What a schedule owes its events is for each system to say. -/

namespace RustAsyncAwait.Library.Machine

universe u v
variable {σ : Type u} {ε : Type v}

def turn (machine : Machine σ ε) (state : σ) (event : ε) : σ := (machine.step state event).getD state

/-- The states that a schedule leads through. -/
def states (machine : Machine σ ε) (schedule : Nat → ε) : Nat → σ
  | 0 => machine.init
  | count + 1 => machine.turn (machine.states schedule count) (schedule count)

variable {machine : Machine σ ε} {schedule : Nat → ε}

theorem turn_cases (machine : Machine σ ε) (state : σ) (event : ε) :
    machine.turn state event = state ∨ machine.step state event = some (machine.turn state event) := by
  unfold turn
  cases machine.step state event with
  | none => exact .inl rfl
  | some next => exact .inr rfl

theorem turn_some {state next : σ} {event : ε} (stepped : machine.step state event = some next) :
    machine.turn state event = next := by
  rw [turn, stepped, Option.getD_some]

/-- What holds at some time, and is undone by none of the steps from then on, goes on to hold. -/
theorem states_stay (holds : σ → Prop) {start : Nat}
    (step : ∀ later next, start ≤ later → machine.step (machine.states schedule later) (schedule later) = some next →
      holds (machine.states schedule later) → holds next)
    (at_start : holds (machine.states schedule start)) {later : Nat} (after : start ≤ later) :
    holds (machine.states schedule later) := by
  induction after with
  | refl => exact at_start
  | @step later after ih =>
    rcases turn_cases machine (machine.states schedule later) (schedule later) with same | stepped
    · rw [states, same]
      exact ih
    · exact step later _ after stepped ih

/-- What no step undoes holds from some time on. -/
theorem states_keep (holds : σ → Prop)
    (step : ∀ state event next, holds state → machine.step state event = some next → holds next)
    {start later : Nat} (at_start : holds (machine.states schedule start)) (after : start ≤ later) :
    holds (machine.states schedule later) :=
  states_stay holds (fun _ next _ stepped kept => step _ _ next kept stepped) at_start after

/-- The events that happen on the way to a state are a trace of it. -/
theorem states_traced (machine : Machine σ ε) (schedule : Nat → ε) (count : Nat) :
    machine.Reaches (machine.traced.states schedule count).1 (machine.traced.states schedule count).2 := by
  have first : machine.Reaches (machine.traced.states schedule 0).1 (machine.traced.states schedule 0).2 := Reaches.nil
  refine states_keep (fun pair : List ε × σ => machine.Reaches pair.1 pair.2) ?_ first (Nat.zero_le count)
  intro pair event next reaches stepped
  obtain ⟨longer, stepped⟩ := traced_step.mp stepped
  rw [longer]
  exact reaches.snoc stepped

theorem traced_turn (machine : Machine σ ε) (pair : List ε × σ) (event : ε) :
    machine.traced.turn pair event = ((machine.step pair.2 event).elim pair fun next => (pair.1 ++ [event], next)) := by
  show ((machine.step pair.2 event).map fun next => (pair.1 ++ [event], next)).getD pair = _
  cases machine.step pair.2 event <;> rfl

theorem states_traced_snd (machine : Machine σ ε) (schedule : Nat → ε) (count : Nat) :
    (machine.traced.states schedule count).2 = machine.states schedule count := by
  induction count with
  | zero => rfl
  | succ count ih =>
    rw [states, states, traced_turn, ih, turn]
    cases machine.step (machine.states schedule count) (schedule count) with
    | none => exact ih
    | some next => rfl

/-- The events of a schedule that have happened by some time. -/
def happened (machine : Machine σ ε) (schedule : Nat → ε) (count : Nat) : List ε := (machine.traced.states schedule count).1

theorem reaches_states (machine : Machine σ ε) (schedule : Nat → ε) (count : Nat) :
    machine.Reaches (machine.happened schedule count) (machine.states schedule count) := by
  rw [← states_traced_snd]
  exact states_traced machine schedule count

theorem happened_succ (machine : Machine σ ε) (schedule : Nat → ε) (count : Nat) :
    machine.happened schedule (count + 1) = machine.happened schedule count ++
      if (machine.step (machine.states schedule count) (schedule count)).isSome then [schedule count] else [] := by
  unfold happened
  rw [states, traced_turn, states_traced_snd]
  cases machine.step (machine.states schedule count) (schedule count) with
  | none => exact (List.append_nil _).symm
  | some next => rfl

/-- What has happened stays so. -/
theorem happened_prefix_of_le {start later : Nat} (after : start ≤ later) :
    machine.happened schedule start <+: machine.happened schedule later := by
  induction after with
  | refl => exact List.prefix_rfl
  | @step later _ ih =>
    rw [happened_succ]
    exact ih.trans (List.prefix_append ..)

/-- A schedule that offers the events of a run leads to where it ends. -/
theorem states_run {start : Nat} {events : List ε} {final : σ}
    (runs : machine.runFrom (machine.states schedule start) events = some final)
    (offered : ∀ index event, events[index]? = some event → schedule (start + index) = event) :
    machine.states schedule (start + events.length) = final := by
  induction events generalizing start with
  | nil => exact Option.some.inj runs
  | cons event rest ih =>
    obtain ⟨next, stepped, runs⟩ := Option.bind_eq_some_iff.mp runs
    have first : schedule start = event := offered 0 event rfl
    have moved : machine.states schedule (start + 1) = next := by rw [states, first, turn_some stepped]
    rw [List.length_cons, Nat.add_comm rest.length, ← Nat.add_assoc]
    apply ih (moved ▸ runs)
    intro index other found
    rw [Nat.add_assoc, Nat.add_comm 1]
    exact offered (index + 1) other found

/-- A schedule that comes round comes round for ever, if the state does once. -/
theorem states_periodic {start period count : Nat} (loops : ∀ count, start ≤ count → schedule (count + period) = schedule count)
    (back : machine.states schedule (start + period) = machine.states schedule start) (after : start ≤ count) (rounds : Nat) :
    machine.states schedule (count + period * rounds) = machine.states schedule count ∧
      schedule (count + period * rounds) = schedule count := by
  have once (count : Nat) (after : start ≤ count) : machine.states schedule (count + period) = machine.states schedule count := by
    induction after with
    | refl => exact back
    | @step count after ih =>
      rw [Nat.succ_eq_add_one, Nat.add_right_comm, states, states, ih, loops count after]
  induction rounds with
  | zero => exact ⟨rfl, rfl⟩
  | succ rounds ih =>
    have behind : start ≤ count + period * rounds := Nat.le_add_right_of_le after
    rw [Nat.mul_succ, ← Nat.add_assoc]
    exact ⟨(once _ behind).trans ih.1, (loops _ behind).trans ih.2⟩

/-- What falls at some turns, and never rises, falls finitely often. -/
theorem turns_end (rank : σ → Nat) (turns : σ → ε → Prop) {start : Nat}
    (falls : ∀ later next, start ≤ later → machine.step (machine.states schedule later) (schedule later) = some next →
      rank next ≤ rank (machine.states schedule later) ∧
        (turns (machine.states schedule later) (schedule later) → rank next < rank (machine.states schedule later))) :
    ∃ last, start ≤ last ∧ ∀ later next, last ≤ later →
      machine.step (machine.states schedule later) (schedule later) = some next →
        ¬ turns (machine.states schedule later) (schedule later) := by
  generalize bound : rank (machine.states schedule start) = distance
  induction distance using Nat.strongRecOn generalizing start with
  | ind distance ih =>
    have below (later : Nat) (after : start ≤ later) : rank (machine.states schedule later) ≤ distance := by
      apply states_stay (fun state => rank state ≤ distance) _ (Nat.le_of_eq bound) after
      intro later next after stepped so_far
      exact Nat.le_trans (falls later next after stepped).1 so_far
    by_cases ends : ∃ later next, start ≤ later ∧ machine.step (machine.states schedule later) (schedule later) = some next ∧
        turns (machine.states schedule later) (schedule later)
    · obtain ⟨later, next, after, stepped, turn⟩ := ends
      have fallen : rank (machine.states schedule (later + 1)) < distance := by
        rw [states, turn_some stepped]
        exact Nat.lt_of_lt_of_le ((falls later next after stepped).2 turn) (below later after)
      obtain ⟨last, behind, none⟩ := ih _ fallen (fun other moved beyond => falls other moved (by omega)) rfl
      exact ⟨last, by omega, none⟩
    · exact ⟨start, Nat.le_refl start, fun later next after stepped turn => ends ⟨later, next, after, stepped, turn⟩⟩

/-- Whoever is able to act again and again acts again and again. -/
def StronglyFair (machine : Machine σ ε) (schedule : Nat → ε) (able : σ → Prop) (acts : ε → Prop) : Prop :=
  ∀ start, (∀ middle, start ≤ middle → ∃ later, middle ≤ later ∧ able (machine.states schedule later)) →
    ∃ later, start ≤ later ∧ acts (schedule later) ∧
      ∃ next, machine.step (machine.states schedule later) (schedule later) = some next

/-- Who comes nearer to a goal with each own step, and is taken further from it by
nobody, comes to a stop. -/
theorem StronglyFair.stops {able : σ → Prop} {acts : ε → Prop} (fair : machine.StronglyFair schedule able acts)
    (rank : σ → Nat) {start : Nat}
    (falls : ∀ later next, start ≤ later → machine.step (machine.states schedule later) (schedule later) = some next →
      rank next ≤ rank (machine.states schedule later) ∧
        (acts (schedule later) → rank next < rank (machine.states schedule later))) :
    ∃ last, start ≤ last ∧ ∀ later, last ≤ later → ¬ able (machine.states schedule later) := by
  obtain ⟨last, after, idle⟩ := turns_end rank (fun _ event => acts event) falls
  by_contra again
  simp only [not_exists, not_and] at again
  obtain ⟨later, behind, acted, next, stepped⟩ := fair last fun middle behind => by
    have some_able := again middle (Nat.le_trans after behind)
    simpa using some_able
  exact idle later next behind stepped acted

section Lasso
variable {stem circle before : List ε} {first event : ε} {start state : σ}

/-- The schedule that goes round in a circle for ever after its stem. -/
def lasso (stem : List ε) (first : ε) (circle : List ε) (count : Nat) : ε :=
  stem.getD count ((first :: circle).getD ((count - stem.length) % (circle.length + 1)) first)

theorem lasso_stem {index : Nat} (found : stem[index]? = some event) : lasso stem first circle index = event := by
  rw [lasso, List.getD_eq_getElem?_getD, found, Option.getD_some]

theorem lasso_circle {index : Nat} (found : (first :: circle)[index]? = some event) (rounds : Nat) :
    lasso stem first circle (stem.length + index + (circle.length + 1) * rounds) = event := by
  have inside : index < circle.length + 1 := (List.getElem?_eq_some_iff.mp found).1
  have past : stem.length ≤ stem.length + index + (circle.length + 1) * rounds := by omega
  have place : (stem.length + index + (circle.length + 1) * rounds - stem.length) % (circle.length + 1) = index := by
    rw [Nat.add_assoc, Nat.add_sub_cancel_left, Nat.add_mul_mod_self_left, Nat.mod_eq_of_lt inside]
  rw [lasso, List.getD_eq_getElem?_getD, List.getElem?_eq_none past, Option.getD_none, place, List.getD_eq_getElem?_getD,
    found, Option.getD_some]

theorem lasso_states (runs : machine.Reaches stem start) (round : machine.runFrom start (first :: circle) = some start)
    (part : before <+: first :: circle) (here : machine.runFrom start before = some state) (rounds : Nat) :
    machine.states (lasso stem first circle) (stem.length + before.length + (circle.length + 1) * rounds) = state := by
  have arrived : machine.states (lasso stem first circle) stem.length = start := by
    have led := @states_run _ _ machine (lasso stem first circle) 0 stem start runs fun index event found =>
      (congrArg _ (Nat.zero_add index)).trans (lasso_stem found)
    rwa [Nat.zero_add] at led
  have along {events : List ε} {final : σ} (part : events <+: first :: circle)
      (leads : machine.runFrom start events = some final) :
      machine.states (lasso stem first circle) (stem.length + events.length) = final := by
    apply states_run (arrived.symm ▸ leads)
    intro index event found
    obtain ⟨rest, whole⟩ := part
    apply lasso_circle _ 0
    rw [← whole, List.getElem?_append_left (List.getElem?_eq_some_iff.mp found).1, found]
  have loops (count : Nat) (after : stem.length ≤ count) :
      lasso stem first circle (count + (circle.length + 1)) = lasso stem first circle count := by
    simp only [lasso, List.getD_eq_getElem?_getD]
    rw [List.getElem?_eq_none (Nat.le_add_right_of_le after), List.getElem?_eq_none after, Nat.sub_add_comm after,
      Nat.add_mod_right]
  have back := (along (List.prefix_refl _) round).trans arrived.symm
  exact (states_periodic loops back (Nat.le_add_right ..) rounds).1.trans (along part here)

/-- It is fair to those who act on the circle, and to those who cannot act there. -/
theorem lasso_fair {able : σ → Prop} {acts : ε → Prop} (runs : machine.Reaches stem start)
    (round : machine.runFrom start (first :: circle) = some start)
    (serves : (∃ event ∈ first :: circle, acts event) ∨
      ∀ before state, before <+: first :: circle → machine.runFrom start before = some state → ¬ able state) :
    machine.StronglyFair (lasso stem first circle) able acts := by
  intro begin_ again
  rcases serves with acting | unable
  · obtain ⟨event, member, acts⟩ := acting
    obtain ⟨before, after, split⟩ := List.append_of_mem member
    rw [split] at round
    obtain ⟨state, here, moves⟩ := (runFrom_append_some machine).mp round
    obtain ⟨next, stepped, _⟩ := Option.bind_eq_some_iff.mp moves
    rw [← split] at round
    have place : (first :: circle)[before.length]? = some event := by simp [split]
    refine ⟨stem.length + before.length + (circle.length + 1) * begin_, ?_, ?_, next, ?_⟩
    · rw [Nat.add_mul, Nat.one_mul]
      omega
    · rwa [lasso_circle place]
    · rw [lasso_circle place, lasso_states runs round (split ▸ List.prefix_append ..) here]
      exact stepped
  · obtain ⟨later, after, able⟩ := again (begin_ + stem.length) (Nat.le_add_right ..)
    have inside := Nat.mod_lt (later - stem.length) (Nat.succ_pos circle.length)
    have place : later = stem.length + (later - stem.length) % (circle.length + 1) +
        (circle.length + 1) * ((later - stem.length) / (circle.length + 1)) := by
      rw [Nat.add_assoc, Nat.mod_add_div]
      omega
    obtain ⟨state, here, _⟩ := (runFrom_append_some machine).mp
      ((List.take_append_drop ((later - stem.length) % (circle.length + 1)) (first :: circle)).symm ▸ round)
    have length : ((first :: circle).take ((later - stem.length) % (circle.length + 1))).length =
        (later - stem.length) % (circle.length + 1) := by
      rw [List.length_take, List.length_cons, Nat.min_eq_left (Nat.le_of_lt inside)]
    have reached := lasso_states runs round (List.take_prefix _ _) here ((later - stem.length) / (circle.length + 1))
    rw [length, ← place] at reached
    rw [reached] at able
    exact absurd able (unable _ _ (List.take_prefix _ _) here)

end Lasso

/-- Whenever the one holds, the other holds then or later. -/
def LeadsTo (machine : Machine σ ε) (schedule : Nat → ε) (holds reached : σ → Prop) : Prop :=
  ∀ start, holds (machine.states schedule start) → ∃ later, start ≤ later ∧ reached (machine.states schedule later)

namespace LeadsTo
variable {first second third : σ → Prop}

theorem now (implies : ∀ state, first state → second state) : machine.LeadsTo schedule first second :=
  fun start holds => ⟨start, Nat.le_refl start, implies _ holds⟩

theorem trans (leads : machine.LeadsTo schedule first second) (on : machine.LeadsTo schedule second third) :
    machine.LeadsTo schedule first third := by
  intro start holds
  obtain ⟨middle, after, reached⟩ := leads start holds
  obtain ⟨last, later, arrived⟩ := on middle reached
  exact ⟨last, Nat.le_trans after later, arrived⟩

theorem either (leads : machine.LeadsTo schedule first third) (also_leads : machine.LeadsTo schedule second third) :
    machine.LeadsTo schedule (fun state => first state ∨ second state) third := by
  intro start holds
  rcases holds with holds | holds
  · exact leads start holds
  · exact also_leads start holds

/-- What holds while the system waits is kept to the end, or ends in another way. -/
theorem meanwhile {held ended : σ → Prop} (leads : machine.LeadsTo schedule first second)
    (keeps : ∀ state event next, held state → machine.step state event = some next → held next ∨ ended next) :
    machine.LeadsTo schedule (fun state => first state ∧ held state)
      (fun state => second state ∧ held state ∨ ended state) := by
  intro start at_start
  obtain ⟨later, after, reached⟩ := leads start at_start.1
  have kept : held (machine.states schedule later) ∨
      ∃ middle, start ≤ middle ∧ ended (machine.states schedule middle) := by
    apply states_stay (fun state => held state ∨ ∃ middle, start ≤ middle ∧ ended (machine.states schedule middle)) _
      (.inl at_start.2) after
    intro later next after stepped kept
    rcases kept with held_ | done
    · rcases keeps _ _ _ held_ stepped with still | done
      · exact .inl still
      · exact .inr ⟨later + 1, Nat.le_succ_of_le after, by rwa [states, turn_some stepped]⟩
    · exact .inr done
  rcases kept with held_ | ⟨middle, behind, done⟩
  · exact ⟨later, after, .inl ⟨reached, held_⟩⟩
  · exact ⟨middle, behind, .inr done⟩

/-- The rule for one step. The system waits for an event, and the schedule
offers it to those who wait for ever. -/
theorem of_event (event : ε) (waits : ∀ state other next, first state → machine.step state other = some next →
      first next ∨ second next)
    (goes : ∀ state, first state → ∃ next, machine.step state event = some next ∧ second next)
    (offered : ∀ start, (∀ later, start ≤ later → first (machine.states schedule later)) →
      ∃ later, start ≤ later ∧ schedule later = event) : machine.LeadsTo schedule first second := by
  intro start at_start
  by_contra never
  simp only [not_exists, not_and] at never
  have always (later : Nat) (after : start ≤ later) : first (machine.states schedule later) := by
    apply states_stay first _ at_start after
    intro later next after stepped waiting
    exact (waits _ _ _ waiting stepped).resolve_right (turn_some stepped ▸ never (later + 1) (Nat.le_succ_of_le after))
  obtain ⟨later, after, offers⟩ := offered start always
  obtain ⟨next, stepped, arrived⟩ := goes _ (always later after)
  apply never (later + 1) (Nat.le_succ_of_le after)
  rw [states, offers, turn_some stepped]
  exact arrived

/-- What holds all along may be used on the way. -/
theorem always {kept : σ → Prop} (holds : ∀ count, kept (machine.states schedule count))
    (leads : machine.LeadsTo schedule (fun state => kept state ∧ first state) second) :
    machine.LeadsTo schedule first second :=
  fun start at_start => leads start ⟨holds start, at_start⟩

/-- The rule for a wait that some turn of the schedule is going to end, whichever it is. -/
theorem of_turns (waits : ∀ count next, first (machine.states schedule count) →
      machine.step (machine.states schedule count) (schedule count) = some next → first next ∨ second next)
    (leaves : ∀ start, (∀ later, start ≤ later → first (machine.states schedule later)) →
      ∃ later, start ≤ later ∧ ¬ first (machine.states schedule later)) : machine.LeadsTo schedule first second := by
  intro start at_start
  by_contra never
  simp only [not_exists, not_and] at never
  have always (later : Nat) (after : start ≤ later) : first (machine.states schedule later) := by
    apply states_stay first _ at_start after
    intro later next after stepped waiting
    exact (waits later next waiting stepped).resolve_right (turn_some stepped ▸ never (later + 1) (Nat.le_succ_of_le after))
  obtain ⟨later, after, left⟩ := leaves start always
  exact left (always later after)

/-- The same rule where every step keeps waiting or ends it. -/
theorem of_leaving (waits : ∀ state event next, first state → machine.step state event = some next →
      first next ∨ second next)
    (leaves : ∀ start, (∀ later, start ≤ later → first (machine.states schedule later)) →
      ∃ later, start ≤ later ∧ ¬ first (machine.states schedule later)) : machine.LeadsTo schedule first second :=
  .of_turns (fun _ next => waits _ _ next) leaves

/-- The rule for a wait of several steps. No step takes the system further from
its goal, and those of whom it is the turn, whom the schedule serves again and
again, take it nearer. -/
theorem of_rank (rank : σ → Nat) (turns : σ → ε → Prop)
    (waits : ∀ state event next, first state → machine.step state event = some next →
      second next ∨ first next ∧ rank next ≤ rank state ∧ (turns state event → rank next < rank state))
    (offered : ∀ start, (∀ later, start ≤ later → first (machine.states schedule later)) →
      ∃ later, start ≤ later ∧ turns (machine.states schedule later) (schedule later) ∧
        ∃ next, machine.step (machine.states schedule later) (schedule later) = some next) :
    machine.LeadsTo schedule first second := by
  intro start at_start
  generalize bound : rank (machine.states schedule start) = distance
  induction distance using Nat.strongRecOn generalizing start with
  | ind distance ih =>
    by_contra never
    simp only [not_exists, not_and] at never
    have always (later : Nat) (after : start ≤ later) :
        first (machine.states schedule later) ∧ rank (machine.states schedule later) ≤ distance := by
      apply states_stay (fun state => first state ∧ rank state ≤ distance) _ ⟨at_start, Nat.le_of_eq bound⟩ after
      intro later next after stepped so_far
      have unreached : ¬ second next := turn_some stepped ▸ never (later + 1) (Nat.le_succ_of_le after)
      obtain ⟨still, closer, _⟩ := (waits _ _ _ so_far.1 stepped).resolve_left unreached
      exact ⟨still, Nat.le_trans closer so_far.2⟩
    obtain ⟨later, after, turn, next, stepped⟩ := offered start fun later after => (always later after).1
    have reached : machine.states schedule (later + 1) = next := by rw [states, turn_some stepped]
    obtain ⟨still, _, nearer⟩ := (waits _ _ _ (always later after).1 stepped).resolve_left
      (reached ▸ never (later + 1) (Nat.le_succ_of_le after))
    obtain ⟨last, on, arrived⟩ := ih (rank next) (Nat.lt_of_lt_of_le (nearer turn) (always later after).2) (later + 1)
      (reached ▸ still) (congrArg rank reached)
    exact never last (Nat.le_trans (Nat.le_succ_of_le after) on) arrived

end LeadsTo

end RustAsyncAwait.Library.Machine
