import RustAsyncAwait.HeartbeatActor

/-! When `heartbeat_actor` resets the store. It looks at the entries only after
its loop, so no timeout is ever answered by a reset. -/

namespace RustAsyncAwait.HeartbeatActor
open Library
open KeyValueStore (ActorType RoutingMessage)

/-- Some actor's last heartbeat is more than 500 ms old. -/
def Seen.Stale (map : Seen) (now : Instant) : Prop :=
  ∃ actor value, map actor = some value ∧ value < now - from_millis 500

/-- The clock where the entries should be looked at: at a timeout, and when the
channel has been closed. -/
def Event.checked : Event → Option Instant
  | .timeout now | .close now _ => some now
  | .heartbeat _ _ => none

theorem sweep_fresh {ago : Instant} {map : Seen} {entries : List (ActorType × Instant)}
    (fresh : ∀ entry ∈ entries, ¬ entry.2 < ago) : sweep ago map entries = (map, []) := by
  induction entries with
  | nil => rfl
  | cons entry entries ih =>
    obtain ⟨recent, fresh⟩ := List.forall_mem_cons.mp fresh
    simp only [sweep, recent, if_false, ih fresh]

theorem sweep_stale {ago : Instant} {map : Seen} {entries : List (ActorType × Instant)}
    (stale : ∃ entry ∈ entries, entry.2 < ago) :
    sweep ago map entries = ((map.remove .keyValue).remove .writer, [.reset .keyValue]) := by
  induction entries with
  | nil => simp at stale
  | cons entry entries ih =>
    obtain ⟨key, value⟩ := entry
    by_cases old : value < ago
    · cases key <;> simp [sweep, old]
    · simp only [sweep, old, if_false]
      apply ih
      simpa [old] using stale

/-- Whatever its order, the iterator meets every entry. -/
theorem Seen.mem_iter {map : Seen} {order : List ActorType} (whole : order.Perm [.keyValue, .writer])
    {actor : ActorType} {value : Instant} : (actor, value) ∈ map.iter order ↔ map actor = some value := by
  have all : actor ∈ order := whole.mem_iff.mpr (by cases actor <;> simp)
  simp [Seen.iter, List.mem_filterMap, all]

theorem Seen.stale_iter {map : Seen} {order : List ActorType} (whole : order.Perm [.keyValue, .writer]) {now : Instant} :
    (∃ entry ∈ map.iter order, entry.2 < now - from_millis 500) ↔ map.Stale now := by
  constructor
  · intro stale
    obtain ⟨⟨actor, value⟩, member, old⟩ := stale
    exact ⟨actor, value, (mem_iter whole).mp member, old⟩
  · intro stale
    obtain ⟨actor, value, present, old⟩ := stale
    exact ⟨(actor, value), (mem_iter whole).mpr present, old⟩

inductive Step (state : State) : Event → State → Prop
  | heartbeat {actor : ActorType} {now : Instant} : Step state (.heartbeat actor now)
      { state with now, map := state.map.insert actor now }
  | timeout {now : Instant} : Step state (.timeout now) { state with now }
  | fresh {now : Instant} {order : List ActorType} (recent : ¬ state.map.Stale now) :
      Step state (.close now order) { state with now, returned := true }
  | stale {now : Instant} {order : List ActorType} (old : state.map.Stale now) :
      Step state (.close now order)
        { now, map := (state.map.remove .keyValue).remove .writer, sent := state.sent ++ [.reset .keyValue],
          returned := true }

theorem step_cases {state next : State} {event : Event} (stepped : state.step event = some next) :
    state.returned = false ∧ Step state event next := by
  obtain ⟨⟨running, _⟩, stepped⟩ := Option.ite_none_right_eq_some.mp stepped
  refine ⟨running, ?_⟩
  cases event with
  | heartbeat actor now => cases stepped; exact .heartbeat
  | timeout now => cases stepped; exact .timeout
  | close now order =>
    obtain ⟨whole, stepped⟩ := Option.ite_none_right_eq_some.mp stepped
    by_cases old : state.map.Stale now
    · simp only [sweep_stale ((Seen.stale_iter whole).mpr old)] at stepped
      cases stepped
      exact .stale old
    · have recent : ∀ entry ∈ state.map.iter order, ¬ entry.2 < now - from_millis 500 := by
        intro entry member below
        exact old ((Seen.stale_iter whole).mp ⟨entry, member, below⟩)
      simp only [sweep_fresh recent, List.append_nil] at stepped
      cases stepped
      exact .fresh old

/-- A timeout or a closing of the run finds no heartbeat older than 500 ms. -/
def Fresh (start : Instant) (trace : List Event) : Prop :=
  ∀ before event after earlier now, trace = before ++ event :: after →
    (heartbeat_actor start).Reaches before earlier → event.checked = some now → ¬ earlier.map.Stale now

/-- What the actor is for. Whenever it times out with a heartbeat that is too
old, the router gets one reset before the next receive, and both entries are
gone; and it gets none in a run without such a timeout. -/
structure Detects (start : Instant) (trace : List Event) : Prop where
  resets : ∀ before now after earlier later, trace = before ++ .timeout now :: after →
    (heartbeat_actor start).Reaches before earlier → earlier.step (.timeout now) = some later →
    earlier.map.Stale now → later.sent = earlier.sent ++ [.reset .keyValue] ∧ ∀ actor, later.map actor = none
  silent : (∀ before now after earlier, trace = before ++ .timeout now :: after →
      (heartbeat_actor start).Reaches before earlier → ¬ earlier.map.Stale now) →
    ∀ state, (heartbeat_actor start).Reaches trace state → state.sent = []

theorem Fresh.prefix {start : Instant} {trace : List Event} {event : Event} (fresh : Fresh start (trace ++ [event])) :
    Fresh start trace := by
  intro before other after earlier now split reaches checked
  apply fresh before other (after ++ [event]) earlier now _ reaches checked
  rw [split, List.append_assoc, List.cons_append]

theorem sent_fresh {start : Instant} {trace : List Event} {state : State} (fresh : Fresh start trace)
    (reaches : (heartbeat_actor start).Reaches trace state) : state.sent = [] := by
  revert fresh
  apply reaches.trace_invariant (fun trace state => Fresh start trace → state.sent = []) (fun _ => rfl)
  intro trace state event next reaches silent stepped fresh
  have none := silent fresh.prefix
  cases (step_cases stepped).2 with
  | heartbeat | timeout | fresh => exact none
  | stale old => exact absurd old (fresh trace _ [] state _ rfl reaches rfl)

/-- The actor does nothing more once it has returned. -/
theorem runFrom_returned {start : Instant} {state final : State} {trace : List Event} (returned : state.returned = true)
    (runs : (heartbeat_actor start).runFrom state trace = some final) : final = state := by
  cases trace with
  | nil => exact (Option.some.inj runs).symm
  | cons event trace =>
    obtain ⟨next, stepped, _⟩ := Option.bind_eq_some_iff.mp runs
    rw [(step_cases stepped).1] at returned
    cases returned

theorem fresh_close {start : Instant} {after : List Event} {now : Instant} {order : List ActorType}
    {earlier final : State} (runs : (heartbeat_actor start).runFrom earlier (.close now order :: after) = some final)
    (silent : final.sent = []) : ¬ earlier.map.Stale now := by
  obtain ⟨next, stepped, runs⟩ := Option.bind_eq_some_iff.mp runs
  cases (step_cases stepped).2 with
  | fresh recent => exact recent
  | stale old =>
    rw [runFrom_returned rfl runs] at silent
    simp at silent

/-- A run of `heartbeat_actor` does what it is for exactly when no heartbeat is
ever too old where it should look. -/
theorem detects_iff_fresh {start : Instant} {trace : List Event} {state : State}
    (reaches : (heartbeat_actor start).Reaches trace state) : Detects start trace ↔ Fresh start trace := by
  constructor
  · intro detects
    have timeouts : ∀ before now after earlier, trace = before ++ .timeout now :: after →
        (heartbeat_actor start).Reaches before earlier → ¬ earlier.map.Stale now := by
      intro before now after earlier split reached stale
      subst split
      obtain ⟨middle, again, runs⟩ := reaches.split
      cases reached.symm.trans again
      obtain ⟨later, stepped, _⟩ := Option.bind_eq_some_iff.mp runs
      have reset := (detects.resets before now after earlier later rfl reached stepped stale).1
      cases (step_cases stepped).2 with
      | timeout => simp at reset
    intro before event after earlier now split reached checked
    cases event with
    | heartbeat actor now => cases checked
    | timeout now =>
      cases checked
      exact timeouts before _ after earlier split reached
    | close now order =>
      cases checked
      subst split
      obtain ⟨middle, again, runs⟩ := reaches.split
      cases reached.symm.trans again
      exact fresh_close runs (detects.silent timeouts state reaches)
  · intro fresh
    constructor
    · intro before now after earlier later split reached _ stale
      exact absurd stale (fresh before _ after earlier now split reached rfl)
    · intro _ state reached
      exact sent_fresh fresh reached

/-- Both actors beat, and are looked at 400 ms later. -/
theorem detects_iff_fresh_beating :
    Detects 0 [.heartbeat .writer 0, .heartbeat .keyValue 100000000, .timeout 300000000, .timeout 500000000] ↔
      Fresh 0 [.heartbeat .writer 0, .heartbeat .keyValue 100000000, .timeout 300000000, .timeout 500000000] := by
  obtain ⟨state, reaches⟩ : ∃ state, (heartbeat_actor 0).Reaches
    [.heartbeat .writer 0, .heartbeat .keyValue 100000000, .timeout 300000000, .timeout 500000000] state := ⟨_, rfl⟩
  exact detects_iff_fresh reaches

/-- The writer beats once and is not heard of again: three timeouts later, 600 ms
have passed, and nothing is sent. -/
theorem misses_crash :
    ¬ ∀ start trace state, (heartbeat_actor start).Reaches trace state → Detects start trace := by
  intro detects
  obtain ⟨state, reaches⟩ : ∃ state, (heartbeat_actor 0).Reaches
    [.heartbeat .writer 0, .timeout 200000000, .timeout 400000000, .timeout 600000000] state := ⟨_, rfl⟩
  have fresh := (detects_iff_fresh reaches).mp (detects 0 _ state reaches)
  apply fresh [.heartbeat .writer 0, .timeout 200000000, .timeout 400000000] (.timeout 600000000) [] _ _ rfl rfl rfl
  exact ⟨.writer, 0, rfl, by decide⟩

end RustAsyncAwait.HeartbeatActor
