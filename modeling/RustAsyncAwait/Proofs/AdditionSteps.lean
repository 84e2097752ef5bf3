import RustAsyncAwait.AddHandler
import RustAsyncAwait.Library.Lists

/-! The steps of the calls, and what they keep: an id is in the map from when its
`send_add` has put it there until one `get_add` takes its handle out. -/

namespace RustAsyncAwait.AddHandler
open Library
open Actors (Build)

variable {build : Build} {state next : State}

/-- The id under which a `send_add` has put its handle into the map. -/
def Call.sent (call : Call) : List String :=
  match call.request, call.handler with
  | .send_add _ _, .returned (.ok (_, some id)) => [id]
  | _, _ => []

/-- The id whose handle a `get_add` has taken out. -/
def Call.taken (call : Call) : List String :=
  match call.request, call.handle with
  | .get_add id, some _ => [id]
  | _, _ => []

/-- The call whose step this is. -/
def Event.caller : Event → Option Nat
  | .enter index | .new_v4 index _ | .insert index | .join index => some index
  | .call _ | .finish _ | .panic _ _ => none

/-- A task that has been spawned for this addition. -/
def Adds (tasks : List Task) (handle : Nat) (a b : BitVec 32) : Prop := ∃ outcome, tasks[handle]? = some ⟨a, b, outcome⟩

/-- Where a call can stand, and what it holds there. -/
inductive Stands (tasks : List Task) : Call → Prop
  | start (request : Request) : Stands tasks ⟨request, request.arguments, none⟩
  | spawned {a b : BitVec 32} {handle : Nat} (adds : Adds tasks handle a b) :
      Stands tasks ⟨.send_add a b, .new_v4 handle, some handle⟩
  | made {a b : BitVec 32} {handle : Nat} {id : String} (adds : Adds tasks handle a b) :
      Stands tasks ⟨.send_add a b, .insert id handle, some handle⟩
  | sent {a b : BitVec 32} {handle : Nat} {id : String} (adds : Adds tasks handle a b) :
      Stands tasks ⟨.send_add a b, .returned (.ok (none, some id)), some handle⟩
  | waits {id : String} {handle : Nat} : Stands tasks ⟨.get_add id, .block_on handle, some handle⟩
  | got {id : String} {handle : Nat} {a b : BitVec 32} {outcome : Except String (BitVec 32)}
      (found : tasks[handle]? = some ⟨a, b, some outcome⟩) :
      Stands tasks ⟨.get_add id, .returned (joined outcome), some handle⟩
  | missing {id : String} : Stands tasks ⟨.get_add id, .returned (.error "No handle found"), none⟩

/-- What each event does, in a state whose calls stand where they can. -/
inductive Step (build : Build) (state : State) : Event → State → Prop
  | call {request : Request} :
      Step build state (.call request) { state with calls := state.calls ++ [⟨request, request.arguments, none⟩] }
  | spawn {index : Nat} {a b : BitVec 32} (at_index : state.calls[index]? = some ⟨.send_add a b, .enter a b none, none⟩) :
      Step build state (.enter index)
        { state with
          tasks := state.tasks ++ [⟨a, b, none⟩]
          calls := state.calls.set index ⟨.send_add a b, .new_v4 state.tasks.length, some state.tasks.length⟩ }
  | remove {index handle : Nat} {id : String} (at_index : state.calls[index]? = some ⟨.get_add id, .enter none none id, none⟩)
      (present : state.map[id]? = some handle) :
      Step build state (.enter index)
        { state with
          map := state.map.erase id
          calls := state.calls.set index ⟨.get_add id, .block_on handle, some handle⟩ }
  | missing {index : Nat} {id : String} (at_index : state.calls[index]? = some ⟨.get_add id, .enter none none id, none⟩)
      (absent : state.map[id]? = none) :
      Step build state (.enter index)
        { state with calls := state.calls.set index ⟨.get_add id, .returned (.error "No handle found"), none⟩ }
  | new_v4 {index handle : Nat} {a b : BitVec 32} {id : String}
      (at_index : state.calls[index]? = some ⟨.send_add a b, .new_v4 handle, some handle⟩)
      (fresh : id ∉ state.calls.flatMap Call.issued) :
      Step build state (.new_v4 index id)
        { state with calls := state.calls.set index ⟨.send_add a b, .insert id handle, some handle⟩ }
  | insert {index handle : Nat} {a b : BitVec 32} {id : String}
      (at_index : state.calls[index]? = some ⟨.send_add a b, .insert id handle, some handle⟩) :
      Step build state (.insert index)
        { state with
          map := state.map.insert id handle
          calls := state.calls.set index ⟨.send_add a b, .returned (.ok (none, some id)), some handle⟩ }
  | join {index handle : Nat} {id : String} {a b : BitVec 32} {outcome : Except String (BitVec 32)}
      (at_index : state.calls[index]? = some ⟨.get_add id, .block_on handle, some handle⟩)
      (found : state.tasks[handle]? = some ⟨a, b, some outcome⟩) :
      Step build state (.join index)
        { state with calls := state.calls.set index ⟨.get_add id, .returned (joined outcome), some handle⟩ }
  | ends {event : Event} {index : Nat} {a b : BitVec 32} {outcome : Except String (BitVec 32)}
      (apart : event.caller = none) (found : state.tasks[index]? = some ⟨a, b, none⟩)
      (sum : ∀ sum, outcome = .ok sum → async_add build a b = some sum) :
      Step build state event { state with tasks := state.tasks.set index ⟨a, b, some outcome⟩ }

theorem step_cases {event : Event} (stands : ∀ call ∈ state.calls, Stands state.tasks call)
    (stepped : state.step build event = some next) : Step build state event next := by
  cases event with
  | call request =>
    cases stepped
    exact .call
  | enter index =>
    obtain ⟨call, at_index, stepped⟩ := Option.bind_eq_some_iff.mp stepped
    cases stands call (List.mem_of_getElem? at_index) with
    | start request =>
      cases request with
      | send_add a b =>
        cases stepped
        exact .spawn at_index
      | get_add id =>
        simp only [Request.arguments, State.enter, Option.some.injEq] at stepped
        subst stepped
        split
        · rename_i present
          exact .remove at_index present
        · rename_i absent
          exact .missing at_index absent
    | spawned | made | sent | waits | got | missing => cases stepped
  | new_v4 index id =>
    obtain ⟨call, at_index, stepped⟩ := Option.bind_eq_some_iff.mp stepped
    cases stands call (List.mem_of_getElem? at_index) with
    | spawned =>
      obtain ⟨fresh, stepped⟩ := Option.ite_none_left_eq_some.mp stepped
      cases stepped
      exact .new_v4 at_index fresh
    | start request => cases request <;> cases stepped
    | made | sent | waits | got | missing => cases stepped
  | insert index =>
    obtain ⟨call, at_index, stepped⟩ := Option.bind_eq_some_iff.mp stepped
    cases stands call (List.mem_of_getElem? at_index) with
    | made =>
      cases stepped
      exact .insert at_index
    | start request => cases request <;> cases stepped
    | spawned | sent | waits | got | missing => cases stepped
  | join index =>
    obtain ⟨call, at_index, stepped⟩ := Option.bind_eq_some_iff.mp stepped
    cases stands call (List.mem_of_getElem? at_index) with
    | waits =>
      obtain ⟨outcome, ended, rfl⟩ := Option.map_eq_some_iff.mp stepped
      obtain ⟨⟨a, b, _⟩, found, ended⟩ := Option.bind_eq_some_iff.mp ended
      cases ended
      exact .join at_index found
    | start request => cases request <;> cases stepped
    | spawned | made | sent | got | missing => cases stepped
  | finish index =>
    obtain ⟨ended, finishes, rfl⟩ := Option.map_eq_some_iff.mp stepped
    obtain ⟨⟨a, b, outcome⟩, found, finishes⟩ := Option.bind_eq_some_iff.mp finishes
    obtain ⟨running, finishes⟩ := Option.ite_none_right_eq_some.mp finishes
    obtain ⟨value, added, rfl⟩ := Option.map_eq_some_iff.mp finishes
    cases running
    apply Step.ends rfl found
    intro sum same
    cases same
    exact added
  | panic index text =>
    obtain ⟨ended, panics, rfl⟩ := Option.map_eq_some_iff.mp stepped
    obtain ⟨⟨a, b, outcome⟩, found, panics⟩ := Option.bind_eq_some_iff.mp panics
    obtain ⟨running, panics⟩ := Option.ite_none_right_eq_some.mp panics
    cases running
    cases panics
    apply Step.ends rfl found
    intro sum same
    cases same

/-- A `send_add` has put this handle into the map under this id. -/
def Sent (calls : List Call) (id : String) (handle : Nat) : Prop :=
  ∃ call ∈ calls, call.sent = [id] ∧ call.handle = some handle

def stored (map : HashMap String Nat) (id : String) : Nat := if map[id]? = none then 0 else 1

/-- An id that has been put into the map is there, or one `get_add` has taken it out. -/
structure Kept (build : Build) (state : State) : Prop where
  stands : ∀ call ∈ state.calls, Stands state.tasks call
  sums : ∀ task ∈ state.tasks, ∀ sum, task.outcome = some (.ok sum) → async_add build task.a task.b = some sum
  fresh : ∀ id, (state.calls.flatMap Call.issued).count id ≤ 1
  once : ∀ id, (state.calls.flatMap Call.taken).count id + stored state.map id = (state.calls.flatMap Call.sent).count id
  inside : ∀ id handle, state.map[id]? = some handle → Sent state.calls id handle
  owned : ∀ call ∈ state.calls, ∀ id handle, call.request = .get_add id → call.handle = some handle → Sent state.calls id handle

/-- Tasks are spawned and end, and stay as they are then. -/
def Grows (tasks later : List Task) : Prop :=
  ∀ (handle : Nat) a b outcome, tasks[handle]? = some ⟨a, b, outcome⟩ →
    ∃ final, later[handle]? = some ⟨a, b, final⟩ ∧ (outcome ≠ none → final = outcome)

theorem Grows.refl (tasks : List Task) : Grows tasks tasks := fun _ _ _ outcome found => ⟨outcome, found, fun _ => rfl⟩

theorem Grows.spawn (tasks : List Task) (task : Task) : Grows tasks (tasks ++ [task]) := by
  intro handle a b outcome found
  refine ⟨outcome, ?_, fun _ => rfl⟩
  rw [List.getElem?_append_left (List.getElem?_eq_some_iff.mp found).1]
  exact found

theorem Grows.ends {tasks : List Task} {index : Nat} {a b : BitVec 32} (found : tasks[index]? = some ⟨a, b, none⟩)
    (outcome : Option (Except String (BitVec 32))) : Grows tasks (tasks.set index ⟨a, b, outcome⟩) := by
  intro handle a' b' before at_handle
  by_cases same : index = handle
  · subst same
    cases found.symm.trans at_handle
    refine ⟨outcome, ?_, fun ended => absurd rfl ended⟩
    simp [(List.getElem?_eq_some_iff.mp found).1]
  · refine ⟨before, ?_, fun _ => rfl⟩
    rw [List.getElem?_set_ne same]
    exact at_handle

theorem Stands.later {tasks later : List Task} {call : Call} (stands : Stands tasks call) (grows : Grows tasks later) :
    Stands later call := by
  have kept {handle : Nat} {a b : BitVec 32} (adds : Adds tasks handle a b) : Adds later handle a b := by
    obtain ⟨outcome, found⟩ := adds
    obtain ⟨final, found, _⟩ := grows handle a b outcome found
    exact ⟨final, found⟩
  cases stands with
  | start request => exact .start request
  | spawned adds => exact .spawned (kept adds)
  | made adds => exact .made (kept adds)
  | sent adds => exact .sent (kept adds)
  | waits => exact .waits
  | got found =>
    obtain ⟨final, found, same⟩ := grows _ _ _ _ found
    rw [same (by simp)] at found
    exact .got found
  | missing => exact .missing

theorem Sent.set {calls : List Call} {id : String} {handle index : Nat} {old new : Call} (sent : Sent calls id handle)
    (at_index : calls[index]? = some old) (unsent : old.sent = []) : Sent (calls.set index new) id handle := by
  obtain ⟨call, member, sends, holds⟩ := sent
  obtain ⟨other, at_other⟩ := List.getElem?_of_mem member
  refine ⟨call, List.mem_of_getElem? (i := other) ?_, sends, holds⟩
  rw [List.getElem?_set_ne, at_other]
  intro same
  subst same
  cases at_index.symm.trans at_other
  rw [unsent] at sends
  cases sends

/-- A call takes a step, at which the tasks and the map change with it. -/
theorem Kept.moves {index : Nat} {old new : Call} {tasks : List Task} {map : HashMap String Nat} (kept : Kept build state)
    (at_index : state.calls[index]? = some old) (unsent : old.sent = [])
    (grows : Grows state.tasks tasks)
    (sums : ∀ task ∈ tasks, ∀ sum, task.outcome = some (.ok sum) → async_add build task.a task.b = some sum)
    (stands : Stands tasks new)
    (fresh : new.issued = old.issued ∨ ∃ id, new.issued = [id] ∧ id ∉ state.calls.flatMap Call.issued)
    (once : ∀ id, new.taken.count id + stored map id = old.taken.count id + stored state.map id + new.sent.count id)
    (inside : ∀ id handle, map[id]? = some handle → state.map[id]? = some handle ∨ new.sent = [id] ∧ new.handle = some handle)
    (owned : ∀ id handle, new.request = .get_add id → new.handle = some handle →
      state.map[id]? = some handle ∨ old.request = .get_add id ∧ old.handle = some handle) :
    Kept build ⟨map, tasks, state.calls.set index new⟩ := by
  have before {id : String} {handle : Nat} (sent : Sent state.calls id handle) :
      Sent (state.calls.set index new) id handle := sent.set at_index unsent
  have in_range : index < state.calls.length := (List.getElem?_eq_some_iff.mp at_index).1
  refine ⟨?_, sums, ?_, ?_, ?_, ?_⟩
  · intro call member
    rcases List.mem_or_eq_of_mem_set member with earlier | same
    · exact (kept.stands call earlier).later grows
    · rw [same]
      exact stands
  · intro id
    have traded := count_flatMap_set state.calls Call.issued index new old at_index id
    have least := kept.fresh id
    rcases fresh with same | ⟨made, only, unmade⟩
    · rw [same] at traded
      simp only
      omega
    · rw [only] at traded
      by_cases own : id = made
      · subst own
        rw [List.count_eq_zero.mpr unmade, List.count_singleton_self] at traded
        simp only
        omega
      · rw [List.count_singleton, beq_false_of_ne (Ne.symm own)] at traded
        simp only [Bool.false_eq_true, if_false] at traded ⊢
        omega
  · intro id
    have takes := count_flatMap_set state.calls Call.taken index new old at_index id
    have sends := count_flatMap_set state.calls Call.sent index new old at_index id
    have balance := kept.once id
    have change := once id
    rw [unsent, List.count_nil] at sends
    simp only
    omega
  · intro id handle present
    rcases inside id handle present with earlier | own
    · exact before (kept.inside id handle earlier)
    · exact ⟨new, List.mem_set in_range new, own⟩
  · intro call member id handle gets holds
    rcases List.mem_or_eq_of_mem_set member with earlier | same
    · exact before (kept.owned call earlier id handle gets holds)
    · subst same
      rcases owned id handle gets holds with present | ⟨gets, holds⟩
      · exact before (kept.inside id handle present)
      · exact before (kept.owned old (List.mem_of_getElem? at_index) id handle gets holds)

theorem stored_insert (map : HashMap String Nat) (id other : String) (handle : Nat) :
    stored (map.insert id handle) other = if id = other then 1 else stored map other := by
  by_cases same : id = other <;> simp [stored, HashMap.get_insert, same]

theorem stored_erase (map : HashMap String Nat) (id other : String) :
    stored (map.erase id) other = if id = other then 0 else stored map other := by
  by_cases same : id = other <;> simp [stored, HashMap.get_erase, same]

theorem sent_issued {call : Call} {id : String} (sent : call.sent = [id]) : id ∈ call.issued := by
  obtain ⟨request, handler, handle⟩ := call
  cases request with
  | get_add other => cases sent
  | send_add a b =>
    cases handler with
    | enter | new_v4 | insert | block_on => cases sent
    | returned result =>
      rcases result with _ | ⟨_, _ | other⟩
      · cases sent
      · cases sent
      · cases sent
        exact List.mem_singleton_self id

theorem sent_sublist (calls : List Call) : (calls.flatMap Call.sent).Sublist (calls.flatMap Call.issued) := by
  induction calls with
  | nil => exact .slnil
  | cons call calls ih =>
    refine List.Sublist.append ?_ ih
    by_cases unsent : call.sent = []
    · rw [unsent]
      exact List.nil_sublist _
    · obtain ⟨id, sent⟩ : ∃ id, call.sent = [id] := by
        unfold Call.sent at unsent ⊢
        split
        · exact ⟨_, rfl⟩
        · simp_all
      rw [sent]
      exact List.singleton_sublist.mpr (sent_issued sent)

/-- An id has been made by one call of `send_add`. -/
theorem Kept.same_call (kept : Kept build state) {first second : Nat} {one other : Call} {id : String}
    (at_first : state.calls[first]? = some one) (in_one : id ∈ one.issued)
    (at_second : state.calls[second]? = some other) (in_other : id ∈ other.issued) : one = other := by
  have same := index_unique (kept.fresh id) at_first in_one at_second in_other
  subst same
  exact Option.some.inj (at_first.symm.trans at_second)

/-- An id that is still to be put into the map is not in there. -/
theorem Kept.unstored {index handle : Nat} {a b : BitVec 32} {id : String} (kept : Kept build state)
    (at_index : state.calls[index]? = some ⟨.send_add a b, .insert id handle, some handle⟩) : stored state.map id = 0 := by
  unfold stored
  split
  · rfl
  · rename_i present
    obtain ⟨held, present⟩ := Option.ne_none_iff_exists'.mp present
    obtain ⟨call, member, sends, _⟩ := kept.inside id held present
    obtain ⟨other, at_other⟩ := List.getElem?_of_mem member
    have same := kept.same_call at_index (List.mem_singleton_self id) at_other (sent_issued sends)
    subst same
    cases sends

theorem Kept.step {event : Event} (kept : Kept build state) (stepped : state.step build event = some next) :
    Kept build next := by
  cases step_cases kept.stands stepped with
  | @call request =>
    have nothing : (⟨request, request.arguments, none⟩ : Call).issued = [] ∧
        (⟨request, request.arguments, none⟩ : Call).taken = [] ∧ (⟨request, request.arguments, none⟩ : Call).sent = [] := by
      cases request <;> exact ⟨rfl, rfl, rfl⟩
    have before {id : String} {handle : Nat} (sent : Sent state.calls id handle) :
        Sent (state.calls ++ [⟨request, request.arguments, none⟩]) id handle := by
      obtain ⟨call, member, sent⟩ := sent
      exact ⟨call, List.mem_append_left _ member, sent⟩
    refine ⟨?_, kept.sums, ?_, ?_, fun id handle present => before (kept.inside id handle present), ?_⟩
    · intro call member
      rcases List.mem_append.mp member with earlier | new
      · exact kept.stands call earlier
      · rw [List.mem_singleton.mp new]
        exact .start request
    · intro id
      simpa [nothing] using kept.fresh id
    · intro id
      simpa [nothing] using kept.once id
    · intro call member id handle gets holds
      rcases List.mem_append.mp member with earlier | new
      · exact before (kept.owned call earlier id handle gets holds)
      · rw [List.mem_singleton.mp new] at holds
        cases holds
  | @spawn index a b at_index =>
    apply kept.moves at_index rfl (.spawn _ _)
    · intro task member
      rcases List.mem_append.mp member with earlier | new
      · exact kept.sums task earlier
      · rw [List.mem_singleton.mp new]
        intro sum ended
        cases ended
    · exact .spawned ⟨none, by simp⟩
    · exact .inl rfl
    · intro id
      rfl
    · intro id handle present
      exact .inl present
    · intro id handle gets
      cases gets
  | @remove index handle id at_index present =>
    apply kept.moves at_index rfl (.refl _) kept.sums .waits (.inl rfl)
    · intro other
      rw [stored_erase]
      by_cases same : id = other
      · subst same
        simp [Call.taken, Call.sent, stored, present]
      · simp [Call.taken, Call.sent, same]
    · intro other held found
      rw [HashMap.get_erase] at found
      exact .inl (Option.ite_none_left_eq_some.mp found).2
    · intro other held gets holds
      cases gets
      cases holds
      exact .inl present
  | @missing index id at_index absent =>
    apply kept.moves at_index rfl (.refl _) kept.sums .missing (.inl rfl)
    · intro other
      rfl
    · intro other held found
      exact .inl found
    · intro other held gets holds
      cases holds
  | @new_v4 index handle a b id at_index fresh =>
    have stands := kept.stands _ (List.mem_of_getElem? at_index)
    cases stands with
    | spawned adds =>
      apply kept.moves at_index rfl (.refl _) kept.sums (.made adds) (.inr ⟨id, rfl, fresh⟩)
      · intro other
        rfl
      · intro other held found
        exact .inl found
      · intro other held gets
        cases gets
  | @insert index handle a b id at_index =>
    have stands := kept.stands _ (List.mem_of_getElem? at_index)
    cases stands with
    | made adds =>
      apply kept.moves at_index rfl (.refl _) kept.sums (.sent adds) (.inl rfl)
      · intro other
        rw [stored_insert]
        by_cases same : id = other
        · subst same
          simp [Call.taken, Call.sent, kept.unstored at_index]
        · simp [Call.taken, Call.sent, same]
      · intro other held found
        rw [HashMap.get_insert] at found
        by_cases same : id = other
        · subst same
          exact .inr ⟨rfl, by simpa using found⟩
        · rw [if_neg same] at found
          exact .inl found
      · intro other held gets
        cases gets
  | @join index handle id a b outcome at_index found =>
    apply kept.moves at_index rfl (.refl _) kept.sums (.got found) (.inl rfl)
    · intro other
      rfl
    · intro other held present
      exact .inl present
    · intro other held gets holds
      exact .inr ⟨gets, holds⟩
  | @ends _ index a b outcome _ found sum =>
    refine ⟨fun call member => (kept.stands call member).later (.ends found _), ?_, kept.fresh, kept.once, kept.inside, kept.owned⟩
    intro task member value ended
    rcases List.mem_or_eq_of_mem_set member with earlier | new
    · exact kept.sums task earlier value ended
    · subst new
      exact sum value (Option.some.inj ended)

theorem reaches_kept {trace : List Event} (reaches : (add_handler build).Reaches trace state) : Kept build state := by
  apply reaches.invariant (Kept build)
  · refine ⟨?_, ?_, ?_, ?_, ?_, ?_⟩ <;> simp [add_handler, stored]
  · intro state event next kept stepped
    exact kept.step stepped

end RustAsyncAwait.AddHandler
