import RustAsyncAwait.Proofs.KeyValueRequests
import RustAsyncAwait.Proofs.KeyValueRestart

/-! What a step of the store does to the incarnations and to the file, and how an
incarnation follows another one. -/

namespace RustAsyncAwait.KeyValueStore
open Library

variable {json : Json} {state next : System} {event : Event} {inc moved : Incarnation}

/-- A step of the store, as far as the incarnations and the file are concerned. -/
inductive Moves (json : Json) (state : System) (event : Event) (next : System) : Prop
  | still (inert : ∀ index, (∀ own, event ≠ .actor index own) ∧ ∀ own, event ≠ .writer index own)
      (same : next.incarnations = state.incarnations) (file : next.file = state.file)
  | receives {message inc} (forwards : event = .forward) (holds : state.router = .forward message)
      (found : state.incarnations[state.current]? = some inc)
      (after : next.incarnations = state.incarnations.set state.current { inc with inbox := inc.inbox ++ [message] })
      (file : next.file = state.file)
  | replaces {actor rest} (routes : event = .route) (idle : state.router = .recv)
      (front : state.routerChannel = .reset actor :: rest)
      (after : next.incarnations =
        (state.incarnations.modify state.current fun inc => { inc with closed := true, aborted := true }) ++ [({} : Incarnation)])
      (file : next.file = state.file)
  | acts {index own inc moved} (acts : event = .actor index own) (found : state.incarnations[index]? = some inc)
      (stepped : ActorStep inc own moved) (after : next.incarnations = state.incarnations.set index moved)
      (file : next.file = state.file)
  | writes {index own inc pair} (writes : event = .writer index own) (found : state.incarnations[index]? = some inc)
      (stepped : WriterStep json ⟨inc, state.file⟩ own pair) (after : next.incarnations = state.incarnations.set index pair.inc)
      (file : next.file = pair.file)

theorem SystemStep.moves (stepped : SystemStep json state event next) : Moves json state event next := by
  cases stepped with
  | call | send | reset | routeMessage | routeBeat | refuse | forwardBeat | wakeUp | heartbeat =>
    exact .still (by simp) rfl rfl
  | routeReset idle front => exact .replaces rfl idle front rfl rfl
  | forward holds found alive room => exact .receives rfl holds found rfl rfl
  | actor found stepped _ => exact .acts rfl found stepped rfl rfl
  | actorBeat found stepped _ => exact .acts rfl found stepped rfl rfl
  | writer found stepped _ => exact .writes rfl found stepped rfl rfl
  | writerBeat found stepped _ => exact .writes rfl found stepped rfl rfl

/-- What a step makes of one incarnation. -/
inductive Changes (json : Json) (state : System) (event : Event) (index : Nat) (inc : Incarnation) : Incarnation → Prop
  | same (inert : (∀ own, event ≠ .actor index own) ∧ ∀ own, event ≠ .writer index own) :
      Changes json state event index inc inc
  | receives {message} (forwards : event = .forward) (holds : state.router = .forward message) (last : index = state.current) :
      Changes json state event index inc { inc with inbox := inc.inbox ++ [message] }
  | replaced {actor rest} (routes : event = .route) (idle : state.router = .recv)
      (front : state.routerChannel = .reset actor :: rest) (last : index = state.current) :
      Changes json state event index inc { inc with closed := true, aborted := true }
  | acts {own moved} (acts : event = .actor index own) (stepped : ActorStep inc own moved) :
      Changes json state event index inc moved
  | writes {own pair} (writes : event = .writer index own) (stepped : WriterStep json ⟨inc, state.file⟩ own pair) :
      Changes json state event index inc pair.inc

theorem Moves.changes (moves : Moves json state event next) {index : Nat} (found : state.incarnations[index]? = some inc) :
    ∃ after, next.incarnations[index]? = some after ∧ Changes json state event index inc after := by
  have inside := (List.getElem?_eq_some_iff.mp found).1
  cases moves with
  | still inert same => exact ⟨inc, by rw [same, found], .same (inert index)⟩
  | @receives message last forwards holds at_last after =>
    by_cases own : state.current = index
    · subst own
      cases found.symm.trans at_last
      exact ⟨_, by rw [after, List.getElem?_set_self inside], .receives forwards holds rfl⟩
    · exact ⟨inc, by rw [after, List.getElem?_set_ne own, found], .same (by simp [forwards])⟩
  | replaces routes idle front after =>
    rw [after, List.getElem?_append_left (by rwa [List.length_modify]), List.getElem?_modify, found]
    by_cases own : state.current = index
    · exact ⟨_, by rw [Option.map_eq_map, Option.map_some, if_pos own], .replaced routes idle front own.symm⟩
    · exact ⟨inc, by rw [Option.map_eq_map, Option.map_some, if_neg own], .same (by simp [routes])⟩
  | @acts other own before moved acts at_other stepped after =>
    by_cases same : other = index
    · subst same
      cases found.symm.trans at_other
      exact ⟨moved, by rw [after, List.getElem?_set_self inside], .acts acts stepped⟩
    · exact ⟨inc, by rw [after, List.getElem?_set_ne same, found], .same (by simp [acts, same])⟩
  | @writes other own before pair writes at_other stepped after =>
    by_cases same : other = index
    · subst same
      cases found.symm.trans at_other
      exact ⟨pair.inc, by rw [after, List.getElem?_set_self inside], .writes writes stepped⟩
    · exact ⟨inc, by rw [after, List.getElem?_set_ne same, found], .same (by simp [writes, same])⟩

/-- The incarnations of a state come from those before it, and a new one from a reset. -/
theorem Moves.came_from (moves : Moves json state event next) {index : Nat} {after : Incarnation}
    (found : next.incarnations[index]? = some after) :
    (∃ inc, state.incarnations[index]? = some inc ∧ Changes json state event index inc after) ∨
      after = {} ∧ index = state.incarnations.length ∧ next.incarnations.length = state.incarnations.length + 1 := by
  by_cases inside : index < state.incarnations.length
  · obtain ⟨moved, at_index, changes⟩ := moves.changes (List.getElem?_eq_getElem inside)
    cases at_index.symm.trans found
    exact .inl ⟨_, List.getElem?_eq_getElem inside, changes⟩
  · have bound := (List.getElem?_eq_some_iff.mp found).1
    cases moves with
    | still _ same => rw [same] at bound; exact absurd bound inside
    | receives _ _ _ after | acts _ _ _ after | writes _ _ _ after =>
      rw [after, List.length_set] at bound
      exact absurd bound inside
    | replaces _ _ _ after =>
      rw [after, List.length_append, List.length_modify, List.length_singleton] at bound
      have last : index = state.incarnations.length := by omega
      rw [after, last, List.getElem?_append_right (by simp), List.length_modify, Nat.sub_self] at found
      cases found
      exact .inr ⟨rfl, last, by simp [after]⟩

/-- An actor spawns its writer when it starts. -/
def Incarnation.Fresh (inc : Incarnation) : Prop :=
  (inc.actor = .start → inc.writer = .unspawned) ∧ (inc.writer = .unspawned → inc.actor = .start ∨ inc.actor = .stopped)

theorem Changes.fresh {index : Nat} (changes : Changes json state event index inc moved) (fresh : inc.Fresh) : moved.Fresh := by
  obtain ⟨start, unspawned⟩ := fresh
  cases changes with
  | same | receives | replaced => exact ⟨start, unspawned⟩
  | acts _ stepped =>
    cases stepped with
    | start => exact ⟨fun place => (nomatch place), fun place => (nomatch place)⟩
    | panic | close | cancel => exact ⟨fun place => (nomatch place), fun _ => .inr rfl⟩
    | takeMap place | recv place | pass place | refuse place | log place | answer place | timeout place | heartbeat place =>
      refine ⟨fun place => (nomatch place), fun outside => ?_⟩
      rcases unspawned outside with other | other <;> cases place.symm.trans other
  | @writes own pair _ stepped =>
    obtain ⟨actor, _⟩ := stepped.actor_eq
    have spawned : pair.inc.writer ≠ .unspawned ∧ inc.writer ≠ .unspawned := by
      cases stepped with
      | «open» place =>
        refine ⟨?_, fun outside => nomatch place.symm.trans outside⟩
        cases state.file <;> exact fun place => nomatch place
      | unreadable place =>
        refine ⟨fun place => (nomatch place), fun outside => ?_⟩
        rcases place with place | ⟨_, place⟩ <;> cases place.symm.trans outside
      | fail writing =>
        refine ⟨fun place => (nomatch place), fun outside => ?_⟩
        simp only [outside] at writing
        cases writing
      | read place | parse place | create place | recv place | setLen place | seek place | write place | flush place
      | timeout place | heartbeat place | close place =>
        exact ⟨fun place => (nomatch place), fun outside => nomatch place.symm.trans outside⟩
    exact ⟨fun place => absurd (start (actor.symm.trans place)) spawned.2, fun outside => absurd outside spawned.1⟩

/-- The router sends to the last incarnation, and has aborted the others. -/
structure Succession (state : System) : Prop where
  present : ∃ inc, state.incarnations[state.current]? = some inc
  replaced : ∀ (index : Nat) (inc : Incarnation), state.incarnations[index]? = some inc → index ≠ state.current →
    inc.aborted = true
  fresh : ∀ (index : Nat) (inc : Incarnation), state.incarnations[index]? = some inc → inc.Fresh

theorem Changes.aborted {index : Nat} (changes : Changes json state event index inc moved) (aborted : inc.aborted = true) :
    moved.aborted = true := by
  cases changes with
  | same | receives | replaced => first | exact aborted | rfl
  | acts _ stepped => cases stepped <;> exact aborted
  | writes _ stepped =>
    obtain ⟨_, _, _, same⟩ := stepped.actor_eq
    exact same.trans aborted

namespace Succession

theorem initial (file : Option Bytes) : Succession { file } := by
  refine ⟨⟨_, rfl⟩, ?_, ?_⟩
  · intro index inc found different
    obtain ⟨rfl, rfl⟩ := singleton_getElem?.mp found
    exact absurd rfl different
  · intro index inc found
    obtain ⟨rfl, rfl⟩ := singleton_getElem?.mp found
    exact ⟨fun _ => rfl, fun _ => .inl rfl⟩

theorem step (succession : Succession state) (moves : Moves json state event next) : Succession next := by
  obtain ⟨last, at_last⟩ := succession.present
  have inside := (List.getElem?_eq_some_iff.mp at_last).1
  have length : next.incarnations.length = state.incarnations.length ∨
      next.incarnations.length = state.incarnations.length + 1 ∧ ∃ actor rest, event = .route ∧ state.router = .recv ∧
        state.routerChannel = .reset actor :: rest := by
    cases moves with
    | still _ same => exact .inl (by rw [same])
    | receives _ _ _ after | acts _ _ _ after | writes _ _ _ after => exact .inl (by rw [after, List.length_set])
    | replaces routes idle front after => exact .inr ⟨by simp [after], _, _, routes, idle, front⟩
  refine ⟨?_, ?_, ?_⟩
  · have bound : next.current < next.incarnations.length := by
      simp only [System.current] at inside ⊢
      omega
    exact ⟨_, List.getElem?_eq_getElem bound⟩
  · intro index after found different
    rcases moves.came_from found with ⟨inc, before, changes⟩ | ⟨_, last, longer⟩
    · by_cases own : index = state.current
      · rcases length with same | ⟨longer, _, _, routes, idle, front⟩
        · exact absurd (own.trans (by simp [System.current, same])) different
        · -- the last one before the reset
          cases moves with
          | replaces _ _ _ set =>
            rw [set, List.getElem?_append_left (by rw [List.length_modify, own]; exact inside), own,
              List.getElem?_modify_eq, at_last] at found
            cases found
            rfl
          | still _ same => rw [same] at longer; omega
          | receives _ _ _ set | acts _ _ _ set | writes _ _ _ set =>
            rw [set, List.length_set] at longer
            omega
      · exact changes.aborted (succession.replaced index inc before own)
    · exact absurd (by simp [System.current, longer, last]) different
  · intro index after found
    rcases moves.came_from found with ⟨inc, before, changes⟩ | ⟨rfl, _⟩
    · exact changes.fresh (succession.fresh index inc before)
    · exact ⟨fun _ => rfl, fun _ => .inl rfl⟩

end Succession

end RustAsyncAwait.KeyValueStore
