import RustAsyncAwait.MioServer
import RustAsyncAwait.Library.Lists

/-! What a poll receives of a connection that it accepts: all of the message, if
every read finds some of it as long as it is not complete. -/

namespace RustAsyncAwait.MioServer
open Library

inductive Step (state : State) : Event → State → Prop
  | connect {message : List UInt8} (some_ : message ≠ []) : Step state (.connect message) (state.connect message)
  | send {index count : Nat} {client : Client} (at_index : state.clients[index]? = some client)
      (room : client.arrived + count ≤ client.message.length) :
      Step state (.send index count)
        { state with clients := state.clients.set index { client with arrived := client.arrived + count } }
  | close {index : Nat} {client : Client} (at_index : state.clients[index]? = some client)
      (sent : client.arrived = client.message.length) :
      Step state (.close index) { state with clients := state.clients.set index { client with closed := true } }
  | timeout (idle : state.place = .idle) : Step state .timeout state
  | readable (idle : state.place = .idle) (edge : state.readable = true) :
      Step state .readable { state with readable := false, place := .accept }
  | accept {client : Nat} {backlog : List Nat} (at_accept : state.place = .accept) (front : state.backlog = client :: backlog) :
      Step state .accept { state with backlog, place := .read client [] }
  | refused (at_accept : state.place = .accept) (none : state.backlog = []) :
      Step state .accept { state with place := .panicked }
  | read {index : Nat} {client : Client} {received_data bytes : List UInt8} (at_read : state.place = .read index received_data)
      (at_index : state.clients[index]? = some client) (some_ : bytes ≠ []) (front : bytes <+: client.waiting) :
      Step state (.read (.ok bytes))
        { state with
          clients := state.clients.set index { client with taken := client.taken + bytes.length }
          place := .read index (received_data ++ bytes) }
  | returns {index : Nat} {client : Client} {received_data : List UInt8} {result : ReadResult}
      (at_read : state.place = .read index received_data) (at_index : state.clients[index]? = some client)
      (nothing : client.waiting = []) (ends : result = .ok [] ∧ client.closed = true ∨ result = .wouldBlock) :
      Step state (.read result) (state.return_ index received_data)

theorem step_cases {state next : State} {event : Event} (stepped : state.step event = some next) : Step state event next := by
  cases event with
  | connect message =>
    obtain ⟨some_, stepped⟩ := Option.ite_none_right_eq_some.mp stepped
    cases stepped
    exact .connect some_
  | send index count =>
    obtain ⟨client, at_index, stepped⟩ := Option.bind_eq_some_iff.mp stepped
    obtain ⟨room, stepped⟩ := Option.ite_none_right_eq_some.mp stepped
    cases stepped
    exact .send at_index room
  | close index =>
    obtain ⟨client, at_index, stepped⟩ := Option.bind_eq_some_iff.mp stepped
    obtain ⟨sent, stepped⟩ := Option.ite_none_right_eq_some.mp stepped
    cases stepped
    exact .close at_index sent
  | timeout =>
    obtain ⟨⟨idle, _⟩, stepped⟩ := Option.ite_none_right_eq_some.mp stepped
    cases stepped
    exact .timeout idle
  | readable =>
    obtain ⟨⟨idle, edge⟩, stepped⟩ := Option.ite_none_right_eq_some.mp stepped
    cases stepped
    exact .readable idle edge
  | accept =>
    obtain ⟨at_accept, stepped⟩ := Option.ite_none_right_eq_some.mp stepped
    split at stepped
    · rename_i client backlog front
      cases stepped
      exact .accept at_accept front
    · rename_i none
      cases stepped
      exact .refused at_accept none
  | read result =>
    simp only [State.step] at stepped
    split at stepped
    · rename_i index received_data at_read
      obtain ⟨client, at_index, stepped⟩ := Option.bind_eq_some_iff.mp stepped
      cases result with
      | ok bytes =>
        by_cases empty : bytes = []
        · subst empty
          simp only [State.read, if_true] at stepped
          obtain ⟨⟨nothing, closed⟩, stepped⟩ := Option.ite_none_right_eq_some.mp stepped
          cases stepped
          exact .returns at_read at_index nothing (.inl ⟨rfl, closed⟩)
        · simp only [State.read, if_neg empty] at stepped
          obtain ⟨⟨front, _⟩, stepped⟩ := Option.ite_none_right_eq_some.mp stepped
          cases stepped
          exact .read at_read at_index empty front
      | wouldBlock =>
        obtain ⟨⟨nothing, _⟩, stepped⟩ := Option.ite_none_right_eq_some.mp stepped
        cases stepped
        exact .returns at_read at_index nothing (.inr rfl)
      | failed => cases stepped
    · cases stepped

def State.message (state : State) (client : Nat) : Option (List UInt8) := state.clients[client]?.map Client.message

/-- A read made in this state finds some bytes, or all of the message has arrived. -/
def State.prompt (state : State) (client : Nat) : Prop :=
  ∀ received_data entry, state.place = .read client received_data → state.clients[client]? = some entry →
    entry.waiting ≠ [] ∨ entry.arrived = entry.message.length

/-- Every read of this client's stream is prompt. -/
def Prompt (trace : List Event) (client : Nat) : Prop :=
  ∀ before result after state, trace = before ++ .read result :: after → server.Reaches before state → state.prompt client

theorem prompt_iff_meets {trace : List Event} {client : Nat} :
    Prompt trace client ↔ server.Meets (fun state event => ∀ result, event = .read result → state.prompt client) trace := by
  constructor
  · intro prompt before event after state split at_before result same
    exact prompt before result after state (same ▸ split) at_before
  · intro meets before result after state split at_before
    exact meets before (.read result) after state split at_before result rfl

theorem prompt_snoc {trace : List Event} {state : State} {event : Event} {client : Nat} (reaches : server.Reaches trace state) :
    Prompt (trace ++ [event]) client ↔ Prompt trace client ∧ ∀ result, event = .read result → state.prompt client := by
  rw [prompt_iff_meets, prompt_iff_meets, Machine.meets_snoc reaches]

/-- A step leaves a client prompt, unless it is a late read of its stream. -/
theorem prompt_step {trace : List Event} {state : State} {event : Event} {client : Nat} (reaches : server.Reaches trace state)
    (found : ∀ result, event = .read result → state.prompt client) : Prompt (trace ++ [event]) client ↔ Prompt trace client := by
  rw [prompt_snoc reaches]
  exact and_iff_left found

theorem prompt_other {state : State} {index client : Nat} {received_data : List UInt8}
    (at_read : state.place = .read index received_data) (other : client ≠ index) : state.prompt client := by
  intro _ _ at_client _
  cases at_read.symm.trans at_client
  exact absurd rfl other

/-! ## A client's bytes -/

/-- What has been read has arrived, and what has arrived has been sent. -/
structure Client.Sound (client : Client) : Prop where
  some_ : client.message ≠ []
  taken : client.taken ≤ client.arrived
  arrived : client.arrived ≤ client.message.length

namespace Client
variable {client : Client}

theorem Sound.waiting_length (sound : client.Sound) : client.waiting.length = client.arrived - client.taken := by
  rw [waiting, List.length_drop, List.length_take, Nat.min_eq_left sound.arrived]

theorem Sound.waiting_nil (sound : client.Sound) : client.waiting = [] ↔ client.taken = client.arrived := by
  rw [← List.length_eq_zero_iff, sound.waiting_length]
  have taken := sound.taken
  omega

/-- A read goes on in the message where the last one stopped. -/
theorem Sound.read (sound : client.Sound) {bytes : List UInt8} (front : bytes <+: client.waiting) :
    { client with taken := client.taken + bytes.length }.Sound ∧
      client.message.take client.taken ++ bytes = client.message.take (client.taken + bytes.length) := by
  have length := front.length_le
  rw [sound.waiting_length] at length
  have taken := sound.taken
  refine ⟨⟨sound.some_, by simp only; omega, sound.arrived⟩, ?_⟩
  rw [List.prefix_iff_eq_take, waiting, List.drop_take, List.take_take] at front
  rw [List.take_add]
  congr 1
  rw [Nat.min_eq_left length] at front
  exact front

/-- Once nothing is waiting, all of the message has been read if all of it has arrived. -/
theorem Sound.whole (sound : client.Sound) (nothing : client.waiting = []) :
    client.message.take client.taken = client.message ↔ client.arrived = client.message.length := by
  have arrived := sound.arrived
  rw [sound.waiting_nil.mp nothing]
  constructor
  · intro whole
    have length := congrArg List.length whole
    rw [List.length_take, Nat.min_eq_left arrived] at length
    exact length
  · intro all
    rw [all, List.take_length]

end Client

/-! ## What every run keeps -/

/-- Every connection is in the backlog, in a poll, or behind one, and each edge
has one of the backlog behind it. -/
structure Kept (state : State) : Prop where
  backlog : ∀ index ∈ state.backlog, ∃ client, state.clients[index]? = some client ∧ client.taken = 0
  nodup : state.backlog.Nodup
  edges : state.readable.toNat + (if state.place = .accept then 1 else 0) ≤ state.backlog.length
  serves : state.place ≠ .panicked
  sound : ∀ client ∈ state.clients, client.Sound
  reading : ∀ index received_data, state.place = .read index received_data →
    index ∉ state.backlog ∧ (∀ accepted ∈ state.returned, accepted.client ≠ index) ∧
      ∃ client, state.clients[index]? = some client ∧ received_data = client.message.take client.taken
  returned : ∀ accepted ∈ state.returned, accepted.client < state.clients.length ∧ accepted.client ∉ state.backlog

theorem Kept.at_index {state : State} (kept : Kept state) {index : Nat} {client : Client}
    (at_index : state.clients[index]? = some client) : client.Sound :=
  kept.sound client (List.mem_of_getElem? at_index)

theorem Kept.waits {state : State} (kept : Kept state) {index : Nat} (waits : index ∈ state.backlog) :
    index < state.clients.length := by
  obtain ⟨client, at_index, _⟩ := kept.backlog index waits
  exact (List.getElem?_eq_some_iff.mp at_index).1

theorem kept_init : Kept {} where
  backlog := by simp
  nodup := List.nodup_nil
  edges := by simp
  serves := by simp
  sound := by simp
  reading := by simp
  returned := by simp

/-- A client that sends or closes stays where it is. -/
theorem Kept.set {state : State} (kept : Kept state) {index : Nat} {client changed : Client}
    (at_index : state.clients[index]? = some client) (sound : changed.Sound)
    (message : changed.message = client.message) (taken : changed.taken = client.taken) :
    Kept { state with clients := state.clients.set index changed } where
  backlog other waits := by
    obtain ⟨entry, at_other, unread⟩ := kept.backlog other waits
    rw [getElem?_set_found at_index]
    split
    · subst other
      cases at_index.symm.trans at_other
      exact ⟨changed, rfl, taken.trans unread⟩
    · exact ⟨entry, at_other, unread⟩
  nodup := kept.nodup
  edges := kept.edges
  serves := kept.serves
  sound other member := by
    rcases List.mem_or_eq_of_mem_set member with old | same
    · exact kept.sound other old
    · exact same ▸ sound
  reading other received_data at_read := by
    obtain ⟨out, fresh, entry, at_other, received⟩ := kept.reading other received_data at_read
    refine ⟨out, fresh, ?_⟩
    rw [getElem?_set_found at_index]
    split
    · subst other
      cases at_index.symm.trans at_other
      exact ⟨changed, rfl, by rw [received, message, taken]⟩
    · exact ⟨entry, at_other, received⟩
  returned accepted member := by
    rw [List.length_set]
    exact kept.returned accepted member

theorem Kept.connect {state : State} (kept : Kept state) {message : List UInt8} (some_ : message ≠ []) :
    Kept (state.connect message) where
  backlog index waits := by
    rcases List.mem_append.mp waits with old | new
    · obtain ⟨client, at_index, unread⟩ := kept.backlog index old
      exact ⟨client, (List.getElem?_append_left (kept.waits old)).trans at_index, unread⟩
    · rw [List.mem_singleton.mp new]
      exact ⟨_, List.getElem?_concat_length, rfl⟩
  nodup := by
    refine List.nodup_append.mpr ⟨kept.nodup, by simp, ?_⟩
    intro old waits new member
    rw [List.mem_singleton.mp member]
    exact Nat.ne_of_lt (kept.waits waits)
  edges := by
    have edges := kept.edges
    show 1 + (if state.place = .accept then 1 else 0) ≤ (state.backlog ++ [state.clients.length]).length
    rw [List.length_append, List.length_singleton]
    omega
  serves := kept.serves
  sound client member := by
    rcases List.mem_append.mp member with old | new
    · exact kept.sound client old
    · rw [List.mem_singleton.mp new]
      exact ⟨some_, Nat.le_refl 0, Nat.zero_le _⟩
  reading index received_data at_read := by
    obtain ⟨out, fresh, client, at_index, received⟩ := kept.reading index received_data at_read
    have inside := (List.getElem?_eq_some_iff.mp at_index).1
    refine ⟨?_, fresh, client, (List.getElem?_append_left inside).trans at_index, received⟩
    simp only [State.connect, List.mem_append, List.mem_singleton, not_or]
    exact ⟨out, Nat.ne_of_lt inside⟩
  returned accepted member := by
    obtain ⟨inside, out⟩ := kept.returned accepted member
    simp only [State.connect, List.length_append, List.length_singleton, List.mem_append, List.mem_singleton, not_or]
    exact ⟨Nat.lt_succ_of_lt inside, out, Nat.ne_of_lt inside⟩

theorem return_eq (state : State) (index : Nat) (received_data : List UInt8) :
    ∃ place result, (place = .idle ∨ place = .finished) ∧
      result = (if received_data = [] then .pending else .ready (from_utf8_lossy received_data)) ∧
      state.return_ index received_data =
        { state with place, returned := state.returned ++ [⟨index, received_data, result⟩] } := by
  unfold State.return_
  by_cases empty : received_data = []
  · exact ⟨.idle, .pending, .inl rfl, by rw [if_pos empty], by rw [if_pos empty]⟩
  · exact ⟨.finished, .ready (from_utf8_lossy received_data), .inr rfl, by rw [if_neg empty], by rw [if_neg empty]⟩

theorem Kept.return_ {state : State} (kept : Kept state) {index : Nat} {received_data : List UInt8}
    (at_read : state.place = .read index received_data) : Kept (state.return_ index received_data) := by
  obtain ⟨out, fresh, client, at_index, _⟩ := kept.reading index received_data at_read
  obtain ⟨place, result, left, _, same⟩ := return_eq state index received_data
  rw [same]
  refine ⟨kept.backlog, kept.nodup, ?_, ?_, kept.sound, ?_, ?_⟩
  · have edges := kept.edges
    rcases left with rfl | rfl <;> simp only [reduceCtorEq, if_false] <;> omega
  · rcases left with rfl | rfl <;> simp
  · intro other received reading
    rcases left with rfl | rfl <;> cases reading
  · intro accepted member
    rcases List.mem_append.mp member with old | new
    · exact kept.returned accepted old
    · rw [List.mem_singleton.mp new]
      exact ⟨(List.getElem?_eq_some_iff.mp at_index).1, out⟩

theorem Kept.step {state next : State} {event : Event} (kept : Kept state) (stepped : Step state event next) : Kept next := by
  cases stepped with
  | connect some_ => exact kept.connect some_
  | send at_index room =>
    have sound := kept.at_index at_index
    exact kept.set at_index ⟨sound.some_, Nat.le_add_right_of_le sound.taken, room⟩ rfl rfl
  | close at_index =>
    have sound := kept.at_index at_index
    exact kept.set at_index ⟨sound.some_, sound.taken, sound.arrived⟩ rfl rfl
  | timeout => exact kept
  | readable idle edge =>
    have edges := kept.edges
    rw [idle, edge] at edges
    exact ⟨kept.backlog, kept.nodup, by simpa using edges, by simp, kept.sound, by simp, kept.returned⟩
  | @accept client backlog at_accept front =>
    have edges := kept.edges
    have nodup := kept.nodup
    obtain ⟨entry, at_client, unread⟩ := kept.backlog client (by simp [front])
    rw [at_accept, front, if_pos rfl] at edges
    rw [front, List.nodup_cons] at nodup
    refine ⟨?_, nodup.2, ?_, by simp, kept.sound, ?_, ?_⟩
    · exact fun other waits => kept.backlog other (by simp [front, waits])
    · simpa using edges
    · intro index received_data at_read
      cases at_read
      refine ⟨nodup.1, ?_, entry, at_client, by rw [unread, List.take_zero]⟩
      intro accepted member same
      exact (kept.returned accepted member).2 (by simp [front, same])
    · intro accepted member
      obtain ⟨inside, out⟩ := kept.returned accepted member
      rw [front, List.mem_cons, not_or] at out
      exact ⟨inside, out.2⟩
  | refused at_accept none =>
    have edges := kept.edges
    simp [at_accept, none] at edges
  | @read index client received_data bytes at_read at_index some_ front =>
    obtain ⟨out, fresh, entry, at_entry, received⟩ := kept.reading index received_data at_read
    cases at_index.symm.trans at_entry
    obtain ⟨sound, longer⟩ := (kept.at_index at_index).read front
    have edges := kept.edges
    rw [at_read, if_neg (by simp)] at edges
    refine ⟨?_, kept.nodup, ?_, by simp, ?_, ?_, ?_⟩
    · intro other waits
      rw [getElem?_set_found at_index, if_neg (fun same : index = other => out (same ▸ waits))]
      exact kept.backlog other waits
    · simpa using edges
    · intro other member
      rcases List.mem_or_eq_of_mem_set member with old | same
      · exact kept.sound other old
      · exact same ▸ sound
    · intro other data reading
      cases reading
      refine ⟨out, fresh, _, (getElem?_set_found at_index _ index).trans (if_pos rfl), ?_⟩
      rw [received]
      exact longer
    · simpa using kept.returned
  | returns at_read => exact kept.return_ at_read

theorem message_set {state : State} {index other : Nat} {client changed : Client} {message : List UInt8}
    (at_index : state.clients[index]? = some client) (same : changed.message = client.message)
    (sent : state.message other = some message) :
    (state.clients.set index changed)[other]?.map Client.message = some message := by
  rw [← List.getElem?_map, map_set_found at_index Client.message same, List.getElem?_map]
  exact sent

/-- What a client means to send does not change. -/
theorem Step.message {state next : State} {event : Event} (stepped : Step state event next) {client : Nat} {message : List UInt8}
    (sent : state.message client = some message) : next.message client = some message := by
  cases stepped with
  | connect =>
    obtain ⟨entry, at_client, rfl⟩ := Option.map_eq_some_iff.mp sent
    have inside := (List.getElem?_eq_some_iff.mp at_client).1
    exact Option.map_eq_some_iff.mpr ⟨entry, (List.getElem?_append_left inside).trans at_client, rfl⟩
  | send at_index => exact message_set at_index rfl sent
  | close at_index => exact message_set at_index rfl sent
  | read _ at_index => exact message_set at_index rfl sent
  | returns =>
    obtain ⟨place, result, _, _, same⟩ := return_eq state _ _
    rw [same]
    exact sent
  | timeout | readable | accept | refused => exact sent

/-- A poll that has returned has received all of the message if every read was prompt. -/
structure Received (trace : List Event) (state : State) (accepted : Accepted) (message : List UInt8) : Prop where
  sent : state.message accepted.client = some message
  some_ : message ≠ []
  whole : accepted.received_data = message ↔ Prompt trace accepted.client
  result : accepted.result =
    if accepted.received_data = [] then .pending else .ready (from_utf8_lossy accepted.received_data)

structure History (trace : List Event) (state : State) : Prop where
  kept : Kept state
  open_ : ∀ client, (∀ accepted ∈ state.returned, accepted.client ≠ client) → Prompt trace client
  returned : ∀ accepted ∈ state.returned, ∃ message, Received trace state accepted message

theorem Received.later {trace : List Event} {state next : State} {event : Event} {accepted : Accepted} {message : List UInt8}
    (received : Received trace state accepted message) (stepped : Step state event next)
    (same : Prompt (trace ++ [event]) accepted.client ↔ Prompt trace accepted.client) :
    Received (trace ++ [event]) next accepted message :=
  ⟨stepped.message received.sent, received.some_, received.whole.trans same.symm, received.result⟩

/-- A step that is no read, and returns from no poll. -/
theorem History.other {trace : List Event} {state next : State} {event : Event} (history : History trace state)
    (reaches : server.Reaches trace state) (stepped : Step state event next) (returned : next.returned = state.returned)
    (other : ∀ result, event ≠ .read result) : History (trace ++ [event]) next where
  kept := history.kept.step stepped
  open_ client fresh := by
    apply (prompt_step reaches fun result same => absurd same (other result)).mpr
    exact history.open_ client (returned ▸ fresh)
  returned accepted member := by
    obtain ⟨message, received⟩ := history.returned accepted (returned ▸ member)
    exact ⟨message, received.later stepped (prompt_step reaches fun result same => absurd same (other result))⟩

theorem History.step {trace : List Event} {state next : State} {event : Event} (history : History trace state)
    (reaches : server.Reaches trace state) (stepped : Step state event next) : History (trace ++ [event]) next := by
  have stays := stepped
  cases stepped with
  | @read index client received_data bytes at_read at_index some_ front =>
    have found : state.prompt index := by
      intro _ entry _ at_entry
      cases at_index.symm.trans at_entry
      refine .inl fun nothing => some_ ?_
      rw [nothing] at front
      exact List.prefix_nil.mp front
    have prompt (other : Nat) : Prompt (trace ++ [.read (.ok bytes)]) other ↔ Prompt trace other := by
      refine prompt_step reaches fun _ _ => ?_
      by_cases same : other = index
      · exact same ▸ found
      · exact prompt_other at_read same
    refine ⟨history.kept.step stays, fun other fresh => (prompt other).mpr (history.open_ other fresh), ?_⟩
    intro accepted member
    obtain ⟨message, received⟩ := history.returned accepted member
    exact ⟨message, received.later stays (prompt accepted.client)⟩
  | @returns index client received_data result at_read at_index nothing ends =>
    obtain ⟨out, fresh, entry, at_entry, taken⟩ := history.kept.reading index received_data at_read
    cases at_index.symm.trans at_entry
    have sound := history.kept.at_index at_index
    have others (other : Nat) (different : other ≠ index) :
        Prompt (trace ++ [.read result]) other ↔ Prompt trace other :=
      prompt_step reaches fun _ _ => prompt_other at_read different
    have here : received_data = client.message ↔ Prompt (trace ++ [.read result]) index := by
      rw [prompt_snoc reaches, taken, sound.whole nothing]
      constructor
      · intro all
        refine ⟨history.open_ index fresh, fun _ _ => ?_⟩
        intro _ entry _ at_entry
        cases at_index.symm.trans at_entry
        exact .inr all
      · intro prompt
        rcases prompt.2 result rfl received_data client at_read at_index with found | all
        · exact absurd nothing found
        · exact all
    refine ⟨history.kept.step stays, ?_, ?_⟩
    all_goals obtain ⟨place, polled, _, is_result, same⟩ := return_eq state index received_data
    · intro other unseen
      rw [same] at unseen
      have different : other ≠ index := fun equal => unseen _ (List.mem_append_right _ (List.mem_singleton_self _)) equal.symm
      exact (others other different).mpr
        (history.open_ other fun accepted member => unseen accepted (List.mem_append_left _ member))
    · intro accepted member
      rw [same] at member
      rcases List.mem_append.mp member with old | new
      · obtain ⟨message, received⟩ := history.returned accepted old
        exact ⟨message, received.later stays (others accepted.client (fresh accepted old))⟩
      · cases List.mem_singleton.mp new
        exact ⟨client.message, stays.message (Option.map_eq_some_iff.mpr ⟨client, at_index, rfl⟩), sound.some_, here, is_result⟩
  | connect | send | close | timeout | readable | accept | refused =>
    exact history.other reaches stays rfl (fun _ => nofun)

theorem history_reaches {trace : List Event} {state : State} (reaches : server.Reaches trace state) : History trace state := by
  refine reaches.trace_invariant History ⟨kept_init, ?_, by simp [server]⟩ ?_
  · intro client _ before result after state split
    simp at split
  · intro trace state event next earlier history stepped
    exact history.step earlier (step_cases stepped)

/-- The read loop of a poll goes on while bytes come, and each of them is one
of the message; so it ends. -/
theorem reading_ends {state : State} (kept : Kept state) {index : Nat} {received_data : List UInt8}
    (at_read : state.place = .read index received_data) :
    ∃ message, state.message index = some message ∧ received_data <+: message ∧
      (∃ result next, server.step state (.read result) = some next) ∧
      ∀ event next, server.step state event = some next →
        (next.place = state.place ∧ ∀ result, event ≠ .read result) ∨
        (∃ bytes ≠ [], event = .read (.ok bytes) ∧ next.place = .read index (received_data ++ bytes)) ∨
        ∃ result, next.returned = state.returned ++ [⟨index, received_data, result⟩] := by
  obtain ⟨_, _, client, at_index, received⟩ := kept.reading index received_data at_read
  have sound := kept.at_index at_index
  have step (result : ReadResult) : server.step state (.read result) = state.read index client received_data result := by
    simp [server, State.step, at_read, at_index]
  refine ⟨client.message, Option.map_eq_some_iff.mpr ⟨client, at_index, rfl⟩, ?_, ?_, ?_⟩
  · rw [received]
    exact List.take_prefix ..
  · by_cases nothing : client.waiting = []
    · by_cases closed : client.closed = true
      · exact ⟨.ok [], _, (step _).trans (by rw [State.read, if_pos rfl, if_pos ⟨nothing, closed⟩])⟩
      · rw [Bool.not_eq_true] at closed
        exact ⟨.wouldBlock, _, (step _).trans (by rw [State.read, if_pos ⟨nothing, closed⟩])⟩
    · have some_ : client.waiting.take buffer_len ≠ [] := by
        simpa [List.take_eq_nil_iff, buffer_len] using nothing
      have fits : (client.waiting.take buffer_len).length ≤ buffer_len := List.length_take_le ..
      exact ⟨.ok (client.waiting.take buffer_len), _,
        (step _).trans (by rw [State.read, if_neg some_, if_pos ⟨List.take_prefix .., fits⟩])⟩
  · intro event next stepped
    cases step_cases stepped with
    | connect => exact .inl ⟨rfl, fun _ => nofun⟩
    | send => exact .inl ⟨rfl, fun _ => nofun⟩
    | close => exact .inl ⟨rfl, fun _ => nofun⟩
    | timeout => exact .inl ⟨rfl, fun _ => nofun⟩
    | readable idle => cases at_read.symm.trans idle
    | accept at_accept => cases at_read.symm.trans at_accept
    | refused at_accept => cases at_read.symm.trans at_accept
    | @read _ _ _ bytes reading _ some_ =>
      cases at_read.symm.trans reading
      exact .inr (.inl ⟨bytes, some_, rfl, rfl⟩)
    | returns reading =>
      cases at_read.symm.trans reading
      obtain ⟨place, result, _, _, same⟩ := return_eq state index received_data
      exact .inr (.inr ⟨result, by rw [same]⟩)

/-- A text whose reads are prompt is returned as it was sent. -/
theorem returns_text {trace : List Event} {state : State} {accepted : Accepted} {text : String}
    (reaches : server.Reaches trace state) (member : accepted ∈ state.returned)
    (sent : state.message accepted.client = some (as_bytes text)) (prompt : Prompt trace accepted.client) :
    accepted.result = .ready text := by
  obtain ⟨message, received⟩ := (history_reaches reaches).returned accepted member
  cases received.sent.symm.trans sent
  have whole := received.whole.mpr prompt
  rw [received.result, whole, if_neg received.some_, from_utf8_lossy_as_bytes]

/-- A poll that accepts a connection returns, and returns all of its message if
and only if each of its reads finds some bytes or comes after all have arrived. -/
theorem receives_iff {trace : List Event} {state : State} (reaches : server.Reaches trace state) :
    state.place ≠ .panicked ∧
    (∀ index received_data, state.place = .read index received_data →
      ∃ message, state.message index = some message ∧ received_data <+: message ∧
        (∃ result next, server.step state (.read result) = some next) ∧
        ∀ event next, server.step state event = some next →
          (next.place = state.place ∧ ∀ result, event ≠ .read result) ∨
          (∃ bytes ≠ [], event = .read (.ok bytes) ∧ next.place = .read index (received_data ++ bytes)) ∨
          ∃ result, next.returned = state.returned ++ [⟨index, received_data, result⟩]) ∧
    ∀ accepted ∈ state.returned, ∃ message, state.message accepted.client = some message ∧
      (accepted.result = .ready (from_utf8_lossy message) ∧ accepted.received_data = message ↔
        Prompt trace accepted.client) := by
  have history := history_reaches reaches
  refine ⟨history.kept.serves, fun _ _ at_read => reading_ends history.kept at_read, ?_⟩
  intro accepted member
  obtain ⟨message, received⟩ := history.returned accepted member
  refine ⟨message, received.sent, ?_⟩
  rw [← received.whole]
  refine ⟨And.right, fun whole => ⟨?_, whole⟩⟩
  rw [received.result, whole, if_neg received.some_]

/-- A message of two chunks that has arrived before the poll, which the client
closes the connection behind. -/
theorem receives_iff_arrived :
    Prompt [.timeout, .connect [72, 105], .send 0 1, .readable, .send 0 1, .accept, .read (.ok [72, 105]), .read .wouldBlock,
      .close 0] 0 := by
  have reaches : server.Reaches
      [.timeout, .connect [72, 105], .send 0 1, .readable, .send 0 1, .accept, .read (.ok [72, 105]), .read .wouldBlock, .close 0]
      { clients := [⟨[72, 105], 2, 2, true⟩], place := .finished,
        returned := [⟨0, [72, 105], .ready (from_utf8_lossy [72, 105])⟩] } := rfl
  obtain ⟨message, sent, same⟩ := (receives_iff reaches).2.2 _ (List.mem_singleton_self _)
  cases sent
  exact same.mp ⟨rfl, rfl⟩

/-- The client connects, and the poll reads before its first byte has come: the
stream is gone when it comes. -/
theorem not_receives : ¬ ∀ trace state, server.Reaches trace state → ∀ accepted ∈ state.returned,
    ∃ message, state.message accepted.client = some message ∧
      accepted.result = .ready (from_utf8_lossy message) ∧ accepted.received_data = message := by
  intro receives
  have reaches : server.Reaches
      [.connect [72, 105], .readable, .accept, .read .wouldBlock, .send 0 2, .close 0, .timeout]
      { clients := [⟨[72, 105], 2, 0, true⟩], returned := [⟨0, [], .pending⟩] } := rfl
  obtain ⟨message, _, ready, _⟩ := receives _ _ reaches _ (List.mem_singleton_self _)
  cases ready

end RustAsyncAwait.MioServer
