import RustAsyncAwait.Proofs.EventBusDelivery

/-! Queues of dropped handles. The collector reads `dead_ids` under one lock and
clears it under the next, so an id pushed in between is forgotten. -/

namespace RustAsyncAwait.EventBus
open Library

variable {T : Type}

/-- The id has a queue in the chamber, and no handle will poll it. -/
def Orphan (state : State T) (id : Nat) : Prop := state.chamber[id]? ≠ none ∧ id ∉ state.handles

def NoLeak (state : State T) : Prop :=
  ∀ id, Orphan state id → id ∈ state.dead_ids ∨ id ∈ state.collector.copy

/-- No handle is dropped between the collector's clone and its clear, unless its
id is in the copy, has another handle or has no queue. -/
def Caught (state : State T) : Event T → Prop
  | .drop id =>
    match state.collector with
    | .cloned dead_ids => id ∈ dead_ids ∨ id ∈ state.handles.erase id ∨ state.chamber[id]? = none
    | _ => True
  | _ => True

instance (state : State T) (event : Event T) : Decidable (Caught state event) := by
  unfold Caught
  split
  · split <;> infer_instance
  · infer_instance

/-- Between the clone and the clear the copy alone has to hold the orphans. -/
def Covered (state : State T) : Prop :=
  ∀ id, Orphan state id →
    match state.collector with
    | .cloned dead_ids => id ∈ dead_ids
    | collector => id ∈ state.dead_ids ∨ id ∈ collector.copy

private theorem Covered.noLeak {state : State T} (covered : Covered state) : NoLeak state := by
  intro id orphan
  have known := covered id orphan
  cases collector : state.collector with
  | cloned dead_ids => exact .inr (by simpa [collector, Collector.copy] using known)
  | idle | locked | removing dead_ids => simpa [collector, Collector.copy] using known

private theorem Covered.step {state next : State T} {event : Event T} (covered : Covered state)
    (caught : Caught state event) (stepped : Step state event next) : Covered next := by
  intro id ⟨queued, unheld⟩
  cases stepped with
  | subscribe free =>
    have other : state.count ≠ id := fun same => unheld (by simp [State.subscribe, same])
    have known := covered id ⟨by simpa [State.subscribe, other] using queued,
      fun live => unheld (List.mem_append_left _ live)⟩
    simpa [State.subscribe, free] using known
  | send free =>
    have known := covered id ⟨by simpa [State.send] using queued, unheld⟩
    simpa [State.send, free] using known
  | @poll polled queue free live found =>
    have other : polled ≠ id := fun same => unheld (same ▸ live)
    have known := covered id ⟨by simpa [State.poll, other] using queued, unheld⟩
    simpa [State.poll, free] using known
  | panic free live missing => exact covered id ⟨queued, unheld⟩
  | @drop dropped live =>
    by_cases same : dropped = id
    · subst same
      cases collector : state.collector with
      | cloned dead_ids =>
        simp only [Caught, collector] at caught
        exact caught.resolve_right fun rest => rest.elim unheld queued
      | idle | locked | removing dead_ids => simp [State.unsubscribe]
    · have known := covered id ⟨queued, fun held => unheld ((List.mem_erase_of_ne (Ne.symm same)).mpr held)⟩
      cases collector : state.collector with
      | cloned dead_ids =>
        simp only [collector] at known
        exact known
      | idle | locked | removing dead_ids =>
        simp only [collector] at known
        exact known.imp_left (List.mem_append_left _)
  | lock free =>
    have known := covered id ⟨queued, unheld⟩
    simpa [free, Collector.copy] using known
  | clone locked =>
    have known := covered id ⟨queued, unheld⟩
    simpa [locked, Collector.copy] using known
  | clear cloned =>
    have known := covered id ⟨queued, unheld⟩
    simp only [cloned] at known
    exact .inr known
  | @remove removed rest removing =>
    have other : removed ≠ id := by
      intro same
      subst same
      simp at queued
    have known := covered id ⟨by simpa [other] using queued, unheld⟩
    simpa [removing, Collector.copy, Ne.symm other] using known
  | unlock removed =>
    have known := covered id ⟨queued, unheld⟩
    simpa [removed, Collector.copy] using known

/-- An id that the collector will come to, or whose queue is gone. -/
private def Doomed (id : Nat) (state : State T) : Prop :=
  id ∉ state.handles ∧
    (state.chamber[id]? = none ∨
      match state.collector with
      | .idle | .locked => id ∈ state.dead_ids
      | .cloned dead_ids | .removing dead_ids => id ∈ dead_ids)

private theorem Doomed.step {id : Nat} {state next : State T} {event : Event T} (doomed : Doomed id state)
    (silent : event ≠ .subscribe id) (stepped : Step state event next) : Doomed id next := by
  obtain ⟨unheld, doomed⟩ := doomed
  cases stepped with
  | subscribe free =>
    have other : state.count ≠ id := fun same => silent (congrArg _ same)
    simp only [free] at doomed
    refine ⟨by simpa [State.subscribe, Ne.symm other] using unheld, ?_⟩
    simpa [State.subscribe, free, other] using doomed
  | send free =>
    simp only [free] at doomed
    exact ⟨unheld, by simpa [State.send, free] using doomed⟩
  | @poll polled queue free live found =>
    have other : polled ≠ id := fun same => unheld (same ▸ live)
    simp only [free] at doomed
    exact ⟨unheld, by simpa [State.poll, free, other] using doomed⟩
  | panic free live missing => exact ⟨unheld, doomed⟩
  | drop live =>
    refine ⟨fun held => unheld (List.mem_of_mem_erase held), doomed.imp_right fun known => ?_⟩
    cases collector : state.collector with
    | idle | locked =>
      simp only [collector] at known
      exact List.mem_append_left _ known
    | cloned dead_ids | removing dead_ids =>
      simp only [collector] at known
      exact known
  | lock free => exact ⟨unheld, by simpa [free] using doomed⟩
  | clone locked => exact ⟨unheld, by simpa [locked] using doomed⟩
  | clear cloned => exact ⟨unheld, by simpa [cloned] using doomed⟩
  | @remove removed rest removing =>
    refine ⟨unheld, ?_⟩
    by_cases same : removed = id
    · exact .inl (by simp [same])
    · simpa [removing, same, Ne.symm same] using doomed
  | unlock removed =>
    refine ⟨unheld, .inl (doomed.resolve_right ?_)⟩
    simp [removed]

/-- A whole round of the collector ends with the queue gone. -/
private theorem round_removes {id : Nat} {state final : State T} {later : List (Event T)} (doomed : Doomed id state)
    (silent : .subscribe id ∉ later) (runs : (eventBus T).runFrom state (later ++ [.unlock]) = some final) :
    final.chamber[id]? = none := by
  obtain ⟨last, runs, unlocks⟩ := ((eventBus T).runFrom_append_some).mp runs
  have doomed : Doomed id last := by
    refine Machine.runFrom_invariant (Doomed id) ?_ doomed runs
    intro state event next member doomed stepped
    exact doomed.step (fun same => silent (same ▸ member)) (step_cases stepped)
  obtain ⟨_, stepped, same⟩ := Option.bind_eq_some_iff.mp unlocks
  cases same
  cases step_cases (show step last .unlock = some final from stepped) with
  | unlock removed =>
    apply doomed.2.resolve_right
    simp [removed]

/-- As long as no drop falls between the clone and the clear, every orphan is
known to the collector, and its next whole round removes the queue. -/
theorem orphans_caught {trace : List (Event T)} {state : State T}
    (reaches : ((eventBus T).restrict Caught).Reaches trace state) :
    NoLeak state ∧ ∀ id, Orphan state id → state.collector = .idle → ∀ later final,
      (eventBus T).runFrom state (later ++ [.unlock]) = some final → .subscribe id ∉ later →
        final.chamber[id]? = none := by
  have covered : Covered state := by
    refine reaches.invariant Covered ?_ ?_
    · intro id orphan
      exact absurd rfl orphan.1
    · intro state event next covered stepped
      obtain ⟨caught, stepped⟩ := Machine.restrict_step.mp stepped
      exact covered.step caught (step_cases stepped)
  refine ⟨covered.noLeak, fun id orphan free later final runs silent => ?_⟩
  have known := covered id orphan
  simp only [free, Collector.copy, List.not_mem_nil, or_false] at known
  exact round_removes ⟨orphan.2, .inr (by simpa only [free] using known)⟩ silent runs

/-- A handle is dropped while the collector holds only the chamber lock. -/
theorem orphans_caught_early_drop :
    let trace : List (Event Nat) := [.subscribe 0, .lock, .drop 0, .clone, .clear, .remove 0, .unlock, .subscribe 1, .drop 1]
    ∃ state, ((eventBus Nat).restrict Caught).Reaches trace state ∧ NoLeak state := by
  intro trace
  have runs : (((eventBus Nat).restrict Caught).runFrom (eventBus Nat).init trace).isSome = true := by decide
  obtain ⟨state, reaches⟩ := Option.isSome_iff_exists.mp runs
  exact ⟨state, reaches, (orphans_caught reaches).1⟩

/-- The condition is exact: any other drop is forgotten at the clear. -/
theorem uncaught_drop_leaks {state next : State T} {id : Nat} (dropped : step state (.drop id) = some next)
    (uncaught : ¬ Caught state (.drop id)) : ∃ after, step next .clear = some after ∧ ¬ NoLeak after := by
  cases step_cases dropped with
  | drop live =>
    cases collector : state.collector with
    | idle | locked | removing dead_ids => simp [Caught, collector] at uncaught
    | cloned dead_ids =>
      simp only [Caught, collector, not_or] at uncaught
      obtain ⟨uncopied, unheld, queued⟩ := uncaught
      refine ⟨_, by simp [step, State.unsubscribe]; rfl, fun kept => ?_⟩
      rcases kept id ⟨queued, unheld⟩ with dead | copied
      · cases dead
      · exact uncopied copied

/-- A handle dropped between the clone and the clear. -/
theorem orphan_forgotten :
    ¬ ∀ (trace : List (Event Nat)) (state : State Nat), (eventBus Nat).Reaches trace state → NoLeak state := by
  intro kept
  let final : State Nat := { chamber := (∅ : HashMap Nat (List Nat)).insert 0 [], count := 1, collector := .removing [] }
  have reaches : (eventBus Nat).Reaches [.subscribe 0, .lock, .clone, .drop 0, .clear] final := rfl
  have orphan : Orphan final 0 := ⟨by simp [final], by simp [final]⟩
  simpa [final, Collector.copy] using kept _ final reaches 0 orphan

/-- The collector does not know the id, and no handle has it. -/
def Forgotten (id : Nat) (state : State T) : Prop :=
  id ∉ state.handles ∧ id ∉ state.dead_ids ∧ id ∉ state.collector.copy

private theorem Forgotten.step {id : Nat} {state next : State T} {event : Event T} {queue : List T}
    (forgotten : Forgotten id state) (queued : state.chamber[id]? = some queue) (silent : event ≠ .subscribe id)
    (stepped : Step state event next) :
    Forgotten id next ∧ next.chamber[id]? = some (queue ++ event.sent?.toList) := by
  obtain ⟨unheld, undead, uncopied⟩ := forgotten
  cases stepped with
  | subscribe free =>
    have other : state.count ≠ id := fun same => silent (congrArg _ same)
    refine ⟨⟨by simpa [State.subscribe, Ne.symm other] using unheld, undead, uncopied⟩, ?_⟩
    simpa [State.subscribe, other, Event.sent?] using queued
  | send free => exact ⟨⟨unheld, undead, uncopied⟩, by simp [State.send, queued, Event.sent?]⟩
  | @poll polled found free live present =>
    have other : polled ≠ id := fun same => unheld (same ▸ live)
    exact ⟨⟨unheld, undead, uncopied⟩, by simpa [State.poll, other, Event.sent?] using queued⟩
  | panic free live missing => exact ⟨⟨unheld, undead, uncopied⟩, by simpa [Event.sent?] using queued⟩
  | @drop dropped live =>
    have other : id ≠ dropped := fun same => unheld (same ▸ live)
    refine ⟨⟨fun held => unheld (List.mem_of_mem_erase held), ?_, uncopied⟩, ?_⟩
    · simp [State.unsubscribe, undead, other]
    · simpa [State.unsubscribe, Event.sent?] using queued
  | lock free => exact ⟨⟨unheld, undead, by simp [Collector.copy]⟩, by simpa [Event.sent?] using queued⟩
  | clone locked => exact ⟨⟨unheld, undead, undead⟩, by simpa [Event.sent?] using queued⟩
  | clear cloned =>
    simp only [cloned, Collector.copy] at uncopied
    exact ⟨⟨unheld, by simp, uncopied⟩, by simpa [Event.sent?] using queued⟩
  | @remove removed rest removing =>
    simp only [removing, Collector.copy, List.mem_cons, not_or] at uncopied
    exact ⟨⟨unheld, undead, uncopied.2⟩, by simpa [Ne.symm uncopied.1, Event.sent?] using queued⟩
  | unlock removed => exact ⟨⟨unheld, undead, by simp [Collector.copy]⟩, by simpa [Event.sent?] using queued⟩

/-- Once forgotten, a queue is there for ever and grows with every send. -/
theorem forgotten_grows {id : Nat} {state final : State T} {later : List (Event T)} {queue : List T}
    (forgotten : Forgotten id state) (queued : state.chamber[id]? = some queue) (silent : .subscribe id ∉ later)
    (runs : (eventBus T).runFrom state later = some final) :
    final.chamber[id]? = some (queue ++ later.filterMap Event.sent?) := by
  induction later generalizing state queue with
  | nil =>
    cases runs
    simpa using queued
  | cons event later ih =>
    obtain ⟨next, stepped, runs⟩ := Option.bind_eq_some_iff.mp runs
    simp only [List.mem_cons, not_or] at silent
    obtain ⟨forgotten, queued⟩ := forgotten.step queued (Ne.symm silent.1) (step_cases stepped)
    rw [ih forgotten queued silent.2 runs, List.append_assoc]
    cases event <;> rfl

end RustAsyncAwait.EventBus
