import RustAsyncAwait.Proofs.EventBusDelivery

/-! Ids over runs of any length. The counter comes back to an id after 2^32
subscriptions, so an id is fresh unless one as old as that is still around. -/

namespace RustAsyncAwait.EventBus
open Library

variable {T : Type}

/-- The id belongs to a live handle, to a queue of the chamber, or to the dead ids. -/
def Around (state : State T) (id : Nat) : Prop :=
  id ∈ state.handles ∨ state.chamber[id]? ≠ none ∨ id ∈ state.dead_ids

/-- No id is still around when the counter, having wrapped, comes to it again. -/
def ShortLived (trace : List (Event T)) : Prop :=
  ∀ before id middle next after state, trace = before ++ .subscribe id :: (middle ++ .subscribe next :: after) →
    .subscribe id ∉ middle → (eventBus T).Reaches (before ++ .subscribe id :: middle) state → Around state id →
      subscriptions middle + 1 < u32Size

theorem ShortLived.prefix {first second : List (Event T)} (short : ShortLived (first ++ second)) : ShortLived first := by
  intro before id middle next after state split
  apply short before id middle next (after ++ second) state
  simp [split]

theorem subscriptions_append (first second : List (Event T)) :
    subscriptions (first ++ second) = subscriptions first + subscriptions second := List.countP_append

theorem subscriptions_cons (id : Nat) (trace : List (Event T)) :
    subscriptions (.subscribe id :: trace) = subscriptions trace + 1 := by simp [subscriptions]

/-- An id was handed out in these events, where the counter had come to it. -/
structure Issued (trace before : List (Event T)) (id : Nat) (middle : List (Event T)) : Prop where
  split : trace = before ++ .subscribe id :: middle
  counter : id = subscriptions before % u32Size
  latest : .subscribe id ∉ middle

theorem Issued.snoc {trace before middle : List (Event T)} {id : Nat} {event : Event T} (issued : Issued trace before id middle)
    (other : event ≠ .subscribe id) : Issued (trace ++ [event]) before id (middle ++ [event]) where
  split := by simp [issued.split]
  counter := issued.counter
  latest := by simp [issued.latest, Ne.symm other]

/-- The counter, and the origin of every id that is around. -/
structure Origins (trace : List (Event T)) (state : State T) : Prop where
  count : state.count = subscriptions trace % u32Size
  distinct : state.handles.Nodup
  dead : ∀ id, id ∈ state.dead_ids ∨ id ∈ state.collector.copy → id ∉ state.handles
  issued : ∀ id, Around state id → ∃ before middle, Issued trace before id middle

/-- The id that the next subscription gets is not around. -/
theorem Origins.fresh {trace : List (Event T)} {state : State T} (origins : Origins trace state)
    (reaches : (eventBus T).Reaches trace state) (short : ShortLived (trace ++ [.subscribe state.count])) :
    ¬ Around state state.count := by
  intro around
  obtain ⟨before, middle, issued⟩ := origins.issued _ around
  have lived := short before state.count middle state.count [] state (by simp [issued.split]) issued.latest
    (issued.split ▸ reaches) around
  have now := origins.count
  have then_ := issued.counter
  rw [issued.split, subscriptions_append, subscriptions_cons] at now
  unfold u32Size at *
  omega

/-- Steps that hand out no id. -/
theorem Origins.frame {trace : List (Event T)} {state next : State T} {event : Event T} (origins : Origins trace state)
    (silent : ∀ id, event ≠ .subscribe id) (count : next.count = state.count)
    (handles : next.handles.Sublist state.handles)
    (dead : ∀ id, id ∈ next.dead_ids ∨ id ∈ next.collector.copy → id ∉ next.handles)
    (around : ∀ id, Around next id → Around state id) : Origins (trace ++ [event]) next where
  count := by
    have same : subscriptions [event] = 0 := by
      cases event with
      | subscribe id => exact absurd rfl (silent id)
      | _ => rfl
    rw [count, origins.count, subscriptions_append, same, Nat.add_zero]
  distinct := origins.distinct.sublist handles
  dead := dead
  issued := by
    intro id found
    obtain ⟨before, middle, issued⟩ := origins.issued id (around id found)
    exact ⟨before, middle ++ [event], issued.snoc (silent id)⟩

theorem Origins.subscribe {trace : List (Event T)} {state : State T} (origins : Origins trace state)
    (free : state.collector = .idle) (fresh : ¬ Around state state.count) :
    Origins (trace ++ [.subscribe state.count]) state.subscribe := by
  simp only [Around, not_or, ne_eq, not_not] at fresh
  obtain ⟨unheld, unqueued, undead⟩ := fresh
  refine ⟨?_, ?_, ?_, ?_⟩
  · rw [subscriptions_append, subscriptions_cons, State.subscribe, origins.count, Nat.mod_add_mod]
    rfl
  · simpa [State.subscribe] using origins.distinct.concat unheld
  · intro id dead
    have old := origins.dead id dead
    have other : id ≠ state.count := by
      intro same
      subst same
      rcases dead with dead | copied
      · exact undead dead
      · simp [State.subscribe, free, Collector.copy] at copied
    simp [State.subscribe, old, other]
  · intro id around
    by_cases same : id = state.count
    · subst same
      exact ⟨trace, [], ⟨rfl, origins.count, List.not_mem_nil⟩⟩
    · have older : Around state id := by simpa [Around, State.subscribe, same, Ne.symm same] using around
      obtain ⟨before, middle, issued⟩ := origins.issued id older
      exact ⟨before, _, issued.snoc fun again => same (Event.subscribe.inj again).symm⟩

theorem Origins.step {trace : List (Event T)} {state next : State T} {event : Event T} (origins : Origins trace state)
    (reaches : (eventBus T).Reaches trace state) (short : ShortLived (trace ++ [event]))
    (stepped : EventBus.step state event = some next) : Origins (trace ++ [event]) next := by
  cases step_cases stepped with
  | subscribe free => exact origins.subscribe free (origins.fresh reaches short)
  | send free =>
    refine origins.frame (by simp) rfl (.refl _) origins.dead ?_
    intro id around
    simpa [Around, State.send] using around
  | @poll polled queue free live found =>
    refine origins.frame (by simp) rfl (.refl _) origins.dead ?_
    intro id around
    by_cases same : id = polled
    · subst same
      exact .inl live
    · simpa [Around, State.poll, Ne.symm same] using around
  | panic free live missing => exact origins.frame (by simp) rfl (.refl _) origins.dead (fun _ around => around)
  | @drop dropped live =>
    refine origins.frame (by simp) rfl List.erase_sublist ?_ ?_
    · intro id dead
      by_cases same : id = dropped
      · subst same
        exact origins.distinct.not_mem_erase
      · have old : id ∈ state.dead_ids ∨ id ∈ state.collector.copy := by
          simpa [State.unsubscribe, same] using dead
        exact fun held => origins.dead id old (List.mem_of_mem_erase held)
    · intro id around
      rcases around with held | queued | dead
      · exact .inl (List.mem_of_mem_erase held)
      · exact .inr (.inl queued)
      · rcases List.mem_append.mp dead with dead | same
        · exact .inr (.inr dead)
        · rw [List.mem_singleton.mp same]
          exact .inl live
  | lock free =>
    refine origins.frame (by simp) rfl (.refl _) ?_ (fun _ around => around)
    intro id dead
    exact origins.dead id (dead.imp_right fun copied => absurd copied List.not_mem_nil)
  | clone locked =>
    refine origins.frame (by simp) rfl (.refl _) ?_ (fun _ around => around)
    intro id dead
    exact origins.dead id (.inl (or_self_iff.mp dead))
  | clear cloned =>
    refine origins.frame (by simp) rfl (.refl _) ?_ ?_
    · intro id dead
      apply origins.dead id
      rw [cloned]
      exact .inr (dead.resolve_left List.not_mem_nil)
    · intro id around
      exact around.imp_right fun rest => .inl (rest.resolve_right List.not_mem_nil)
  | @remove removed rest removing =>
    refine origins.frame (by simp) rfl (.refl _) ?_ ?_
    · intro id dead
      apply origins.dead id
      rw [removing]
      exact dead.imp_right (List.mem_cons_of_mem _)
    · intro id around
      by_cases same : id = removed
      · subst same
        exact around.imp_right fun rest => .inr (rest.resolve_left (by simp))
      · simpa [Around, Ne.symm same] using around
  | unlock removed =>
    refine origins.frame (by simp) rfl (.refl _) ?_ (fun _ around => around)
    intro id dead
    exact origins.dead id (dead.imp_right fun copied => absurd copied List.not_mem_nil)

theorem reaches_origins {trace : List (Event T)} {state : State T} (reaches : (eventBus T).Reaches trace state)
    (short : ShortLived trace) : Origins trace state := by
  refine reaches.trace_invariant (fun trace state => ShortLived trace → Origins trace state) ?_ ?_ short
  · intro _
    constructor <;> simp [eventBus, subscriptions, Collector.copy, Around]
  · intro trace state event next earlier origins stepped short
    exact (origins short.prefix).step earlier short stepped

/-- A new id is neither that of a live handle nor in the chamber nor dead, and
what the collector removes has no live handle. -/
theorem ids_unique {trace : List (Event T)} {state : State T} (reaches : (eventBus T).Reaches trace state)
    (short : ShortLived trace) :
    (∀ before id after earlier, trace = before ++ .subscribe id :: after → (eventBus T).Reaches before earlier →
      ¬ Around earlier id) ∧
    ∀ before id after earlier, trace = before ++ .remove id :: after → (eventBus T).Reaches before earlier →
      id ∉ earlier.handles := by
  refine ⟨?_, ?_⟩
  · intro before id after earlier split at_before
    obtain ⟨next, taken, _⟩ := Machine.Reaches.step_at (split ▸ reaches) at_before
    have stepped : step earlier (.subscribe id) = some next := taken
    have upTo : trace = (before ++ [.subscribe id]) ++ after := by simp [split]
    rw [upTo] at short
    have origins := reaches_origins at_before short.prefix.prefix
    cases step_cases stepped with
    | subscribe free => exact origins.fresh at_before short.prefix
  · intro before id after earlier split at_before
    obtain ⟨next, taken, _⟩ := Machine.Reaches.step_at (split ▸ reaches) at_before
    have stepped : step earlier (.remove id) = some next := taken
    rw [split] at short
    have origins := reaches_origins at_before short.prefix
    cases step_cases stepped with
    | remove removing =>
      apply origins.dead id
      rw [removing]
      exact .inr (List.mem_cons_self ..)

/-- No id of a run with at most 2^32 subscriptions comes up twice. -/
theorem shortLived_of_subscriptions {trace : List (Event T)} (few : subscriptions trace ≤ u32Size) : ShortLived trace := by
  intro before id middle next after state split _ _ _
  rw [split, subscriptions_append, subscriptions_cons, subscriptions_append, subscriptions_cons] at few
  omega

/-- A handle lives while another one is dropped and collected. -/
theorem ids_unique_around_drop :
    let trace : List (Event Nat) := [.subscribe 0, .subscribe 1, .drop 1, .lock, .clone, .clear, .remove 1, .unlock, .subscribe 2]
    ∃ state, (eventBus Nat).Reaches trace state ∧
      (∀ before id after earlier, trace = before ++ .subscribe id :: after → (eventBus Nat).Reaches before earlier →
        ¬ Around earlier id) ∧
      ∀ before id after earlier, trace = before ++ .remove id :: after → (eventBus Nat).Reaches before earlier →
        id ∉ earlier.handles := by
  intro trace
  have runs : ((eventBus Nat).runFrom (eventBus Nat).init trace).isSome = true := by decide
  obtain ⟨state, reaches⟩ := Option.isSome_iff_exists.mp runs
  exact ⟨state, reaches, ids_unique reaches (shortLived_of_subscriptions (by decide))⟩

/-- Subscriptions alone go round the counter, and the first handle stays. -/
theorem subscribe_again (count : Nat) :
    ∃ (trace : List (Event Nat)) (state : State Nat), (eventBus Nat).Reaches trace state ∧ state.collector = .idle ∧
      state.count = count % u32Size ∧ (0 < count → 0 ∈ state.handles) := by
  induction count with
  | zero => exact ⟨[], (eventBus Nat).init, .nil, rfl, rfl, fun none => absurd none (Nat.lt_irrefl 0)⟩
  | succ count ih =>
    obtain ⟨trace, state, reaches, free, counter, first⟩ := ih
    have stepped : (eventBus Nat).step state (.subscribe state.count) = some state.subscribe := by
      simp [eventBus, step, free]
    refine ⟨_, _, reaches.snoc stepped, free, ?_, fun _ => ?_⟩
    · rw [State.subscribe, counter, Nat.mod_add_mod]
    · rcases Nat.eq_zero_or_pos count with zero | positive
      · subst zero
        simp [State.subscribe, counter]
      · exact List.mem_append_left _ (first positive)

/-- Subscription number 2^32 + 1 gets the id of the first handle. -/
theorem not_ids_unique :
    ¬ ∀ (trace : List (Event Nat)) (state next : State Nat) (id : Nat), (eventBus Nat).Reaches trace state →
      step state (.subscribe id) = some next → ¬ Around state id := by
  intro always
  obtain ⟨trace, state, reaches, free, counter, first⟩ := subscribe_again u32Size
  have zero : state.count = 0 := by rw [counter, Nat.mod_self]
  have stepped : step state (.subscribe 0) = some state.subscribe := by simp [step, free, zero]
  exact always trace state _ 0 reaches stepped (.inl (first (by decide)))

end RustAsyncAwait.EventBus
