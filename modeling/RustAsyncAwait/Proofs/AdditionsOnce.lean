import RustAsyncAwait.Proofs.AdditionSteps

/-! Additions and their results. Each id is handed over to one call of `get_add`,
which returns the outcome of its addition. -/

namespace RustAsyncAwait.AddHandler
open Library
open Actors (Build)

variable {build : Build} {state : State}

/-- What a call of `send_add` or of `get_add` returns. -/
def Call.send_result (call : Call) : Option (Except String String) :=
  match call.request, call.handler with
  | .send_add _ _, .returned result => some (send_add result)
  | _, _ => none

def Call.get_result (call : Call) : Option (Except String (BitVec 32)) :=
  match call.request, call.handler with
  | .get_add _, .returned result => some (get_add result)
  | _, _ => none

/-- The outcome of adding these two: the sum, or the text of the error if the task has panicked. -/
def Outcome (build : Build) (a b : BitVec 32) : Except String (BitVec 32) → Prop
  | .ok sum => async_add build a b = some sum
  | .error _ => True

/-- This call of `send_add` has returned this id, for the task of this handle. -/
structure Sends (call : Call) (a b : BitVec 32) (id : String) (handle : Nat) : Prop where
  request : call.request = .send_add a b
  result : call.send_result = some (.ok id)
  handle : call.handle = some handle

/-- This call of `get_add` has taken this handle. -/
structure Takes (call : Call) (id : String) (handle : Nat) : Prop where
  request : call.request = .get_add id
  handle : call.handle = some handle

/-- What the table is for. -/
structure Once (build : Build) (state : State) : Prop where
  /-- A returned id is in the map, or exactly one `get_add` has been given its handle. -/
  handed : ∀ call ∈ state.calls, ∀ id, call.send_result = some (.ok id) →
    ∃ a b handle, Sends call a b id handle ∧ Adds state.tasks handle a b ∧
      (state.map[id]? = some handle ∧ (∀ other ∈ state.calls, ∀ held, ¬ Takes other id held) ∨
        state.map[id]? = none ∧ ∃ getter taker, state.calls[getter]? = some taker ∧ Takes taker id handle ∧
          ∀ (index : Nat) other held, state.calls[index]? = some other → Takes other id held → index = getter)
  /-- That one returns the outcome of that addition, and any other finds no handle. -/
  answered : ∀ call ∈ state.calls, ∀ id result, call.request = .get_add id → call.get_result = some result →
    (call.handle = none ∧ result = .error "No handle found") ∨
      ∃ sender ∈ state.calls, ∃ a b handle, Sends sender a b id handle ∧ Takes call id handle ∧
        state.tasks[handle]? = some ⟨a, b, some result⟩ ∧ Outcome build a b result
  /-- A `get_add` that looks for an id in the map is given its handle. -/
  found : ∀ index call id handle next, state.calls[index]? = some call → call.handler = .enter none none (some id) →
    state.map[id]? = some handle → state.step build (.enter index) = some next →
      next.map[id]? = none ∧ ∃ taker, next.calls[index]? = some taker ∧ Takes taker id handle
  /-- An entry is changed only by the calls on its id. -/
  isolated : ∀ event next id, state.step build event = some next → next.map[id]? ≠ state.map[id]? →
    ∃ index call, event.caller = some index ∧ state.calls[index]? = some call ∧
      (call.request = .get_add id ∨ id ∈ call.issued)
  /-- The last branch of `send_add` and that of `get_add` are not reached. -/
  reached : ∀ call ∈ state.calls, ∀ result, call.handler = .returned result →
    (∀ a b, call.request = .send_add a b → ∃ id, result = .ok (none, some id)) ∧
      ∀ id, call.request = .get_add id → (∃ sum, result = .ok (some sum, none)) ∨ ∃ e, result = .error e

theorem Stands.sends {tasks : List Task} {call : Call} {id : String} (stands : Stands tasks call)
    (result : call.send_result = some (.ok id)) :
    call.sent = [id] ∧ ∃ a b handle, Sends call a b id handle ∧ Adds tasks handle a b := by
  cases stands with
  | sent adds =>
    cases result
    exact ⟨rfl, _, _, _, ⟨rfl, rfl, rfl⟩, adds⟩
  | start request => cases request <;> cases result
  | spawned | made | waits | got | missing => cases result

theorem Stands.sent_sends {tasks : List Task} {call : Call} {id : String} {handle : Nat} (stands : Stands tasks call)
    (sent : call.sent = [id]) (holds : call.handle = some handle) : ∃ a b, Sends call a b id handle := by
  cases stands with
  | sent adds =>
    cases sent
    exact ⟨_, _, rfl, rfl, holds⟩
  | start request => cases request <;> cases sent
  | spawned | made | waits | got | missing => cases sent

theorem Stands.adds {tasks : List Task} {call : Call} {a b : BitVec 32} {id : String} {handle : Nat}
    (stands : Stands tasks call) (sends : Sends call a b id handle) : Adds tasks handle a b := by
  obtain ⟨request, result, holds⟩ := sends
  cases stands with
  | sent adds =>
    cases request
    cases holds
    exact adds
  | start request =>
    cases request
    cases result
  | spawned | made | waits | got | missing => cases result

theorem get_add_joined (outcome : Except String (BitVec 32)) : get_add (joined outcome) = outcome := by
  cases outcome <;> rfl

theorem mem_taken {call : Call} {id : String} : id ∈ call.taken ↔ ∃ handle, Takes call id handle := by
  obtain ⟨request, handler, handle⟩ := call
  constructor
  · intro member
    cases request with
    | send_add a b => cases member
    | get_add other =>
      cases handle with
      | none => cases member
      | some held =>
        cases List.mem_singleton.mp member
        exact ⟨held, rfl, rfl⟩
  · intro takes
    obtain ⟨held, gets, holds⟩ := takes
    cases gets
    cases holds
    exact List.mem_singleton_self id

/-- The id of a call that has returned it is in the map, or exactly one call has taken it. -/
theorem Kept.handed (kept : Kept build state) {call : Call} (member : call ∈ state.calls) {id : String}
    (result : call.send_result = some (.ok id)) :
    ∃ a b handle, Sends call a b id handle ∧ Adds state.tasks handle a b ∧
      (state.map[id]? = some handle ∧ (∀ other ∈ state.calls, ∀ held, ¬ Takes other id held) ∨
        state.map[id]? = none ∧ ∃ getter taker, state.calls[getter]? = some taker ∧ Takes taker id handle ∧
          ∀ (index : Nat) other held, state.calls[index]? = some other → Takes other id held → index = getter) := by
  obtain ⟨sent, a, b, handle, sends, adds⟩ := (kept.stands call member).sends result
  refine ⟨a, b, handle, sends, adds, ?_⟩
  -- the only handle that has been sent under this id is this call's
  have only {held : Nat} (other : Sent state.calls id held) : held = handle := by
    obtain ⟨second, inside, sends_too, holds⟩ := other
    obtain ⟨first, at_first⟩ := List.getElem?_of_mem member
    obtain ⟨index, at_index⟩ := List.getElem?_of_mem inside
    have same := kept.same_call at_first (sent_issued sent) at_index (sent_issued sends_too)
    subst same
    exact Option.some.inj (holds.symm.trans sends.handle)
  have balance := kept.once id
  have one : (state.calls.flatMap Call.sent).count id = 1 := by
    have inside : 0 < (state.calls.flatMap Call.sent).count id :=
      List.count_pos_iff.mpr (List.mem_flatMap.mpr ⟨call, member, by simp [sent]⟩)
    have least := kept.fresh id
    have below := (sent_sublist state.calls).count_le id
    omega
  cases present : state.map[id]? with
  | some held =>
    refine .inl ⟨congrArg _ (only (kept.inside id held present)), ?_⟩
    intro other inside taken takes
    have some_taken : 0 < (state.calls.flatMap Call.taken).count id :=
      List.count_pos_iff.mpr (List.mem_flatMap.mpr ⟨other, inside, mem_taken.mpr ⟨taken, takes⟩⟩)
    simp only [stored, present, reduceCtorEq, if_false] at balance
    omega
  | none =>
    simp only [stored, present, if_true] at balance
    have some_taken : id ∈ state.calls.flatMap Call.taken := List.count_pos_iff.mp (by omega)
    obtain ⟨taker, inside, takes⟩ := List.mem_flatMap.mp some_taken
    obtain ⟨held, takes⟩ := mem_taken.mp takes
    obtain ⟨getter, at_getter⟩ := List.getElem?_of_mem inside
    refine .inr ⟨rfl, getter, taker, at_getter, ?_, ?_⟩
    · rw [← only (kept.owned taker inside id held takes.request takes.handle)]
      exact takes
    · intro index other taken at_index takes_too
      exact index_unique (by omega) at_index (mem_taken.mpr ⟨taken, takes_too⟩) at_getter (mem_taken.mpr ⟨held, takes⟩)

theorem Kept.answered (kept : Kept build state) {call : Call} (member : call ∈ state.calls) {id : String}
    {result : Except String (BitVec 32)} (gets : call.request = .get_add id) (returned : call.get_result = some result) :
    (call.handle = none ∧ result = .error "No handle found") ∨
      ∃ sender ∈ state.calls, ∃ a b handle, Sends sender a b id handle ∧ Takes call id handle ∧
        state.tasks[handle]? = some ⟨a, b, some result⟩ ∧ Outcome build a b result := by
  have owned := kept.owned call member id
  cases kept.stands call member with
  | start request => cases request <;> cases returned
  | spawned | made | sent | waits => cases returned
  | missing =>
    cases returned
    exact .inl ⟨rfl, rfl⟩
  | @got other handle a b outcome found =>
    cases gets
    rw [show Call.get_result _ = some (get_add (joined outcome)) from rfl, get_add_joined] at returned
    cases returned
    obtain ⟨sender, inside, sent, holds⟩ := owned handle rfl rfl
    obtain ⟨_, _, sends⟩ := (kept.stands sender inside).sent_sends sent holds
    obtain ⟨_, same⟩ := (kept.stands sender inside).adds sends
    cases same.symm.trans found
    refine .inr ⟨sender, inside, a, b, handle, sends, ⟨rfl, rfl⟩, found, ?_⟩
    cases result with
    | ok sum => exact kept.sums _ (List.mem_of_getElem? found) sum rfl
    | error e => exact trivial

/-- A call that finds its id in the map takes the handle out of it. -/
theorem Kept.taken (kept : Kept build state) {index : Nat} {call : Call} {id : String} {handle : Nat} {next : State}
    (at_index : state.calls[index]? = some call) (enters : call.handler = .enter none none (some id))
    (present : state.map[id]? = some handle) (stepped : state.step build (.enter index) = some next) :
    next.map[id]? = none ∧ ∃ taker, next.calls[index]? = some taker ∧ Takes taker id handle := by
  have inside := (List.getElem?_eq_some_iff.mp at_index).1
  cases step_cases kept.stands stepped with
  | spawn at_call =>
    cases at_index.symm.trans at_call
    cases enters
  | @remove _ held other at_call found =>
    cases at_index.symm.trans at_call
    cases enters
    cases present.symm.trans found
    refine ⟨by simp, _, List.getElem?_set_self inside, rfl, rfl⟩
  | missing at_call absent =>
    cases at_index.symm.trans at_call
    cases enters
    cases present.symm.trans absent
  | ends apart => cases apart

theorem Kept.isolated (kept : Kept build state) {event : Event} {next : State} {id : String}
    (stepped : state.step build event = some next) (changed : next.map[id]? ≠ state.map[id]?) :
    ∃ index call, event.caller = some index ∧ state.calls[index]? = some call ∧
      (call.request = .get_add id ∨ id ∈ call.issued) := by
  cases step_cases kept.stands stepped with
  | call | spawn | missing | new_v4 | join | ends => exact absurd rfl changed
  | @remove index handle other at_index present =>
    refine ⟨index, _, rfl, at_index, .inl ?_⟩
    apply Classical.byContradiction
    intro different
    exact changed (HashMap.get_erase_of_ne state.map (fun same => different (by rw [same])))
  | @insert index handle a b other at_index =>
    refine ⟨index, _, rfl, at_index, .inr ?_⟩
    apply Classical.byContradiction
    intro different
    have unlike : other ≠ id := fun same => different (by rw [same]; exact List.mem_singleton_self id)
    exact changed (by rw [HashMap.get_insert, if_neg unlike])

theorem Stands.reached {tasks : List Task} {call : Call} (stands : Stands tasks call)
    {result : Except String (Option (BitVec 32) × Option String)} (returned : call.handler = .returned result) :
    (∀ a b, call.request = .send_add a b → ∃ id, result = .ok (none, some id)) ∧
      ∀ id, call.request = .get_add id → (∃ sum, result = .ok (some sum, none)) ∨ ∃ e, result = .error e := by
  cases stands with
  | start request => cases request <;> cases returned
  | spawned | made | waits => cases returned
  | sent =>
    cases returned
    refine ⟨fun a b _ => ⟨_, rfl⟩, ?_⟩
    intro id gets
    cases gets
  | @got _ _ _ _ outcome =>
    cases returned
    constructor
    · intro a b sends
      cases sends
    · intro id _
      cases outcome with
      | ok sum => exact .inl ⟨sum, rfl⟩
      | error e => exact .inr ⟨e, rfl⟩
  | missing =>
    cases returned
    constructor
    · intro a b sends
      cases sends
    · intro id _
      exact .inr ⟨_, rfl⟩

theorem additions_once {trace : List Event} (reaches : (add_handler build).Reaches trace state) : Once build state := by
  have kept := reaches_kept reaches
  refine ⟨?_, ?_, ?_, ?_, ?_⟩
  · intro call member id
    exact kept.handed member
  · intro call member id result
    exact kept.answered member
  · intro index call id handle next at_index enters present stepped
    exact kept.taken at_index enters present stepped
  · intro event next id stepped changed
    exact kept.isolated stepped changed
  · intro call member result returned
    exact (kept.stands call member).reached returned

/-- Two threads ask for one id; the second finds no handle. -/
theorem additions_once_twice : ∃ state,
    (add_handler .debug).Reaches [.call (.send_add 1 2), .enter 0, .new_v4 0 "a", .insert 0, .call (.get_add "a"),
      .call (.get_add "a"), .enter 1, .enter 2, .finish 0, .join 1] state ∧
    (state.calls.map Call.get_result = [none, some (.ok 3), some (.error "No handle found")] ∧ Once .debug state) := by
  obtain ⟨state, reaches, results⟩ : ∃ state,
    (add_handler .debug).Reaches [.call (.send_add 1 2), .enter 0, .new_v4 0 "a", .insert 0, .call (.get_add "a"),
      .call (.get_add "a"), .enter 1, .enter 2, .finish 0, .join 1] state ∧
    state.calls.map Call.get_result = [none, some (.ok 3), some (.error "No handle found")] := ⟨_, rfl, rfl⟩
  exact ⟨state, reaches, results, additions_once reaches⟩

end RustAsyncAwait.AddHandler
