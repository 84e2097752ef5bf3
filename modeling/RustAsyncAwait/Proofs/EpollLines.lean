import RustAsyncAwait.Proofs.EpollCrashes

/-! Lines that wait in a `BufReader`. One event leads to one `read_line`, so a
line that epoll does not know of is only served at the client's next bytes. -/

namespace RustAsyncAwait.EpollServer
open Library ReadLine

/-- A client's connection that the server has not closed. -/
def Open (state : State) (client : Nat) : Prop :=
  client ∈ state.backlog ∨ ∃ (fd : RawFd) (entry : Entry), state.fd_to_buf[fd]? = some entry ∧ entry.client = client

/-- The complete lines that an open client has sent so far have been echoed to it. -/
def Echoed (state : State) : Prop :=
  ∀ id client, Open state id → state.clients[id]? = some client →
    ∃ rest, client.taken ++ client.queue = client.echoed ++ rest ∧ newline ∉ rest

/-- The server waits, and no descriptor is ready. -/
def Quiet (state : State) : Prop := state.place = .epoll_wait ∧ ∀ fd ∈ state.interest, state.ready fd = false

/-- `read_line` returns the last line of the buffer, unless epoll goes on
reporting the socket; a raw write takes the whole line; and `EpollCtlAdd` succeeds. -/
def State.served (state : State) : Event → Bool
  | .accept _ _ added => added
  | .consume =>
    match state.place with
    | .read_line fd _ _ => (state.connection fd).all fun (entry, client) =>
      !(entry.buffered.dropWhile (· != newline)).tail.contains newline || client.readable
    | _ => true
  | .write count =>
    match state.place with
    | .returned _ buf _ => count = buf.length
    | _ => true
  | _ => true

def attentive : Machine State Event := server.restrict fun state event => state.served event = true

/-- The bytes of the line in hand that a descriptor has given. -/
def Place.in_hand (fd : RawFd) : Place → List UInt8
  | .read_line current buf _ | .returned current buf _ => if current = fd then buf else []
  | _ => []

def Place.reads (fd : RawFd) : Place → Bool
  | .read_line current _ _ => current = fd
  | _ => false

/-- What has been read is echoed, in hand or in the buffer, and between two
reads a line in the buffer is not the last that epoll knows of. -/
def Held (in_hand : List UInt8) (reads : Bool) (entry : Entry) (client : Client) : Prop :=
  client.taken = client.echoed ++ in_hand ++ entry.buffered ∧
    (reads = false → newline ∈ entry.buffered → client.readable = true)

structure Ledger (state : State) : Prop where
  held : ∀ fd entry client, state.fd_to_buf[fd]? = some entry → state.clients[entry.client]? = some client →
    Held (state.place.in_hand fd) (state.place.reads fd) entry client
  fresh : ∀ id ∈ state.backlog, ∀ client, state.clients[id]? = some client → client.taken = [] ∧ client.echoed = []

namespace Ledger
variable {state next : State}

/-- A step that touches the connection of one descriptor. -/
theorem update (ledger : Ledger state) (tables : Tables state) {fd : RawFd} {entry changed : Entry} {moved : Client}
    (found : state.fd_to_buf[fd]? = some entry)
    (map : ∀ other, next.fd_to_buf[other]? = if fd = other then some changed else state.fd_to_buf[other]?)
    (same : changed.client = entry.client)
    (clients : ∀ id, next.clients[id]? = if entry.client = id then some moved else state.clients[id]?)
    (backlog : next.backlog = state.backlog)
    (others : ∀ other, fd ≠ other → next.place.in_hand other = state.place.in_hand other ∧
      next.place.reads other = state.place.reads other)
    (held : Held (next.place.in_hand fd) (next.place.reads fd) changed moved) : Ledger next := by
  have owned := owner_of_found found
  refine ⟨?_, ?_⟩
  · intro other entry' client' found' socket'
    rw [map] at found'
    split at found'
    · rename_i here
      cases found'
      rw [clients, if_pos same.symm] at socket'
      cases socket'
      rwa [← here]
    · rename_i different
      have apart : entry.client ≠ entry'.client := by
        intro both
        have one := (tables.apart fd other _ _ _ _ owned (owner_of_found found')).2 (.inr both)
        exact different one
      rw [clients, if_neg apart] at socket'
      rw [(others other different).1, (others other different).2]
      exact ledger.held other entry' client' found' socket'
  · intro id member client' socket'
    rw [backlog] at member
    have accepted := (tables.opened fd _ _ owned).2.2.2.2
    have different : entry.client ≠ id := by
      intro same
      subst same
      exact accepted member
    rw [clients, if_neg different] at socket'
    exact ledger.fresh id member client' socket'

/-- A step after which no line is in hand, and none was. -/
theorem idle (ledger : Ledger state) (map : next.fd_to_buf = state.fd_to_buf) (clients : next.clients = state.clients)
    (backlog : next.backlog = state.backlog) (none : ∀ fd, state.place.in_hand fd = [] ∧ state.place.reads fd = false)
    (still : ∀ fd, next.place.in_hand fd = []) : Ledger next := by
  refine ⟨?_, ?_⟩
  · intro fd entry client found socket
    rw [map] at found
    rw [clients] at socket
    obtain ⟨bytes, lines⟩ := ledger.held fd entry client found socket
    rw [(none fd).1] at bytes
    rw [(none fd).2] at lines
    rw [still]
    exact ⟨bytes, fun _ => lines rfl⟩
  · rw [backlog, clients]
    exact ledger.fresh

end Ledger

theorem set_socket {clients : List Client} {id : Nat} {client : Client} (socket : clients[id]? = some client)
    (moved : Client) (other : Nat) : (clients.set id moved)[other]? = if id = other then some moved else clients[other]? := by
  rw [List.getElem?_set, if_pos (List.getElem?_eq_some_iff.mp socket).1]

theorem same_socket {clients : List Client} {id : Nat} {client : Client} (socket : clients[id]? = some client)
    (other : Nat) : clients[other]? = if id = other then some client else clients[other]? := by
  split
  · rename_i same
    rw [← same, socket]
  · rfl

theorem same_entry {state : State} {fd : RawFd} {entry : Entry} (found : state.fd_to_buf[fd]? = some entry)
    (other : RawFd) : state.fd_to_buf[other]? = if fd = other then some entry else state.fd_to_buf[other]? := by
  split
  · rename_i same
    rw [← same, found]
  · rfl

theorem dropWhile_line {line rest : List UInt8} (clear : newline ∉ line) :
    (line ++ [newline] ++ rest).dropWhile (· != newline) = newline :: rest := by
  rw [List.append_assoc, List.dropWhile_append_of_pos]
  · rfl
  · intro byte member
    rw [bne_iff_ne]
    intro same
    subst same
    exact clear member

theorem Tables.socket {state : State} (tables : Tables state) {fd : RawFd} {entry : Entry}
    (found : state.fd_to_buf[fd]? = some entry) : ∃ client, state.clients[entry.client]? = some client :=
  ⟨_, List.getElem?_eq_getElem (tables.opened fd _ _ (owner_of_found found)).2.2.2.1⟩

namespace Ledger
variable {state : State}

theorem connect (ledger : Ledger state) (tables : Tables state) :
    Ledger { state with clients := state.clients ++ [{}], backlog := state.backlog ++ [state.clients.length] } := by
  refine ⟨?_, ?_⟩
  · intro fd entry client found socket
    have made := (tables.opened fd _ _ (owner_of_found found)).2.2.2.1
    rw [List.getElem?_append_left made] at socket
    exact ledger.held fd entry client found socket
  · intro id member client socket
    rcases List.mem_append.mp member with old | new
    · rw [List.getElem?_append_left (tables.backlog.2 id old)] at socket
      exact ledger.fresh id old client socket
    · rw [List.mem_singleton.mp new, List.getElem?_concat_length, Option.some.injEq] at socket
      rw [← socket]
      exact ⟨rfl, rfl⟩

theorem client (ledger : Ledger state) {id : Nat} {client changed : Client} (socket : state.clients[id]? = some client)
    (same : changed.taken = client.taken ∧ changed.echoed = client.echoed)
    (readable : client.readable = true → changed.readable = true) :
    Ledger { state with clients := state.clients.set id changed } := by
  refine ⟨?_, ?_⟩
  · intro fd entry client' found socket'
    simp only [set_socket socket] at socket'
    split at socket'
    · rename_i here
      cases socket'
      obtain ⟨bytes, lines⟩ := ledger.held fd entry client found (here ▸ socket)
      exact ⟨by rw [same.1, same.2]; exact bytes, fun idle line => readable (lines idle line)⟩
    · exact ledger.held fd entry client' found socket'
  · intro other member client' socket'
    simp only [set_socket socket] at socket'
    split at socket'
    · rename_i here
      cases socket'
      rw [same.1, same.2]
      exact ledger.fresh id (here ▸ member) client socket
    · exact ledger.fresh other member client' socket'

theorem accept (ledger : Ledger state) {fd reader : RawFd} {added : Bool} {id : Nat} {batch : List RawFd}
    {backlog : List Nat} (here : state.place = .events (listen_fd :: batch)) (waits : state.backlog = id :: backlog) :
    Ledger { state with
      fds := fd :: reader :: state.fds
      interest := if added then fd :: state.interest else state.interest
      fd_to_buf := state.fd_to_buf.insert fd { client := id, reader }
      backlog := backlog
      place := .events batch } := by
  refine ⟨?_, ?_⟩
  · intro other entry client found socket
    simp only [HashMap.get_insert] at found
    split at found
    · cases found
      obtain ⟨taken, echoed⟩ := ledger.fresh id (by simp [waits]) client socket
      exact ⟨by simp [taken, echoed, Place.in_hand], fun _ line => (by cases line)⟩
    · have held := ledger.held other entry client found socket
      rwa [here] at held
  · intro other member client socket
    exact ledger.fresh other (by rw [waits]; exact List.mem_cons_of_mem _ member) client socket

theorem close (ledger : Ledger state) {fd : RawFd} {batch : List RawFd} {fds interest : List RawFd}
    (here : state.place = .returned fd [] batch) :
    Ledger { state with fds, interest, fd_to_buf := state.fd_to_buf.erase fd, place := .events batch } := by
  refine ⟨?_, ledger.fresh⟩
  intro other entry client found socket
  simp only [HashMap.get_erase] at found
  split at found
  · cases found
  · rename_i different
    have held := ledger.held other entry client found socket
    simpa [here, Place.in_hand, Place.reads, different] using held

theorem ends (ledger : Ledger state) {fd : RawFd} {buf : List UInt8} {batch : List RawFd}
    (here : state.place = .read_line fd buf batch)
    (empty : ∀ entry, state.fd_to_buf[fd]? = some entry → entry.buffered = []) :
    Ledger { state with place := .returned fd buf batch } := by
  refine ⟨fun other entry client found socket => ?_, ledger.fresh⟩
  obtain ⟨bytes, lines⟩ := ledger.held other entry client found socket
  rw [here] at bytes lines
  refine ⟨bytes, fun _ line => ?_⟩
  by_cases same : fd = other
  · rw [empty entry (same ▸ found)] at line
    cases line
  · exact lines (by simpa [Place.reads] using same) line

end Ledger

theorem step_ledger {state next : State} {event : Event} (ledger : Ledger state) (tables : Tables state)
    (served : state.served event = true) (stepped : step state event = some next) (runs : next.place ≠ .panicked) :
    Ledger next := by
  cases step_cases stepped with
  | connect => exact ledger.connect tables
  | client socket same grown ended outside =>
    refine ledger.client socket same fun readable => ?_
    obtain ⟨bytes, grown⟩ := grown
    simp only [Client.readable, Bool.or_assoc, Bool.or_eq_true, Bool.not_eq_true', List.isEmpty_eq_false_iff] at readable ended ⊢
    rcases readable with queued | silent
    · refine .inl ?_
      rw [grown]
      exact List.append_ne_nil_of_left_ne_nil queued bytes
    · exact .inr (ended silent)
  | epoll_wait here _ _ | interrupted here | accept_fails here | again here =>
    exact ledger.idle rfl rfl rfl (fun fd => by simp [here, Place.in_hand, Place.reads]) fun fd => rfl
  | accept here waits fresh other two => exact ledger.accept here waits
  | try_clone_fails _ | fill_buf_fails _ | invalid _ | write_fails _ | get_none _ _ _ | close_fails _ _ => exact absurd rfl runs
  | get_mut here other found =>
    refine ledger.idle rfl rfl rfl (fun fd => by simp [here, Place.in_hand, Place.reads]) fun fd => ?_
    simp [Place.in_hand]
  | @fill_buf count fd buf batch entry client here found socket empty =>
    obtain ⟨bytes, _⟩ := ledger.held fd entry client found socket
    refine ledger.update tables found (fun other => HashMap.get_insert _ fd other _) rfl (set_socket socket _) rfl
      (fun other different => ⟨rfl, rfl⟩) ⟨?_, ?_⟩
    · simp [bytes, empty]
    · simp [here, Place.reads]
  | end_of_stream here empty => exact ledger.ends here empty
  | @line fd buf line rest batch entry here found split clear =>
    obtain ⟨client, socket⟩ := tables.socket found
    obtain ⟨bytes, _⟩ := ledger.held fd entry client found socket
    refine ledger.update tables found (fun other => HashMap.get_insert _ fd other _) rfl (same_socket socket) rfl
      (fun other different => by simp [here, Place.in_hand, Place.reads, different]) ⟨?_, fun _ more => ?_⟩
    · simp [bytes, here, Place.in_hand, split]
    · have last := served
      simp only [State.served, here, connection_some.mpr ⟨found, socket⟩, Option.all_some, split,
        dropWhile_line clear, List.tail_cons, Bool.or_eq_true, Bool.not_eq_true'] at last
      refine last.resolve_left fun none => ?_
      rw [List.contains_iff_mem.mpr more] at none
      cases none
  | @part fd buf batch entry here found =>
    obtain ⟨client, socket⟩ := tables.socket found
    obtain ⟨bytes, _⟩ := ledger.held fd entry client found socket
    refine ledger.update tables found (fun other => HashMap.get_insert _ fd other _) rfl (same_socket socket) rfl
      (fun other different => by simp [here, Place.in_hand, Place.reads, different]) ⟨?_, fun _ more => (by cases more)⟩
    simp [bytes, here, Place.in_hand]
  | close here found watched => exact ledger.close here
  | @write count fd buf batch entry client here found socket =>
    obtain ⟨bytes, lines⟩ := ledger.held fd entry client found socket
    have whole : count = buf.length := by simpa [State.served, here] using served
    refine ledger.update tables found (same_entry found) rfl (set_socket socket _) rfl
      (fun other different => by simp [here, Place.in_hand, Place.reads, different]) ⟨?_, fun _ => lines ?_⟩
    · simp [bytes, whole, here, Place.in_hand]
    · simp [here, Place.reads]

theorem attentive_run {trace : List Event} {state : State} (reaches : attentive.Reaches trace state) :
    Tables state ∧ ¬ Lost state ∧ (state.place ≠ .panicked → Ledger state) := by
  refine reaches.invariant (fun state => Tables state ∧ ¬ Lost state ∧ (state.place ≠ .panicked → Ledger state)) ?_ ?_
  · refine ⟨Tables.initial, ?_, fun _ => ⟨?_, ?_⟩⟩
    · intro lost
      obtain ⟨fd, owned, _⟩ := lost
      exact owned (by simp [State.owner, attentive, server, Machine.restrict])
    · intro fd entry client found
      simp [attentive, server, Machine.restrict] at found
    · intro id member
      cases member
  · intro state event next held stepped
    obtain ⟨tables, watched, ledger⟩ := held
    obtain ⟨served, stepped⟩ := Machine.restrict_step.mp stepped
    have stepped : step state event = some next := stepped
    refine ⟨step_tables tables stepped, fun lost => ?_, fun runs => ?_⟩
    · rcases (step_lost tables stepped).mp lost with earlier | unwatched
      · exact watched earlier
      · cases event with
        | accept fd reader added =>
          rw [show added = true from served] at unwatched
          cases unwatched
        | _ => cases unwatched
    · have ran : state.place ≠ .panicked := fun panicked => runs ((step_panicked tables stepped).mpr (.inl panicked))
      exact step_ledger (ledger ran) tables served stepped runs

/-- In a run that is served, all lines that have come are echoed when the server waits. -/
theorem lines_echoed {trace : List Event} {state : State} (reaches : attentive.Reaches trace state) (quiet : Quiet state) :
    Echoed state := by
  obtain ⟨tables, watched, ledger⟩ := attentive_run reaches
  obtain ⟨idle, unready⟩ := quiet
  obtain ⟨held, _⟩ := ledger (by simp [idle])
  intro id client either socket
  rcases either with waits | ⟨fd, entry, found, rfl⟩
  · have empty := unready listen_fd tables.listening.2.1
    simp only [State.ready, if_true, Bool.not_eq_false', List.isEmpty_iff] at empty
    rw [empty] at waits
    cases waits
  · have owned := owner_of_found found
    have member : fd ∈ state.interest := not_not.mp fun absent => watched ⟨fd, by simp [owned], absent⟩
    have other : fd ≠ listen_fd := by
      intro same
      subst same
      rw [tables.listening.2.2] at owned
      cases owned
    have silent := unready fd member
    rw [State.ready, if_neg other, connection_some.mpr ⟨found, socket⟩, Option.any_some] at silent
    obtain ⟨bytes, lines⟩ := held fd entry client found socket
    rw [idle] at bytes lines
    have empty : client.queue = [] := by
      simp only [Client.readable, Bool.or_eq_false_iff, Bool.not_eq_false', List.isEmpty_iff] at silent
      exact silent.1.1
    refine ⟨entry.buffered, ?_, fun line => ?_⟩
    · simpa [empty, Place.in_hand] using bytes
    · have readable := lines rfl line
      rw [silent] at readable
      cases readable

/-- Two lines come in one raw read, but bytes behind them keep the socket ready. -/
theorem lines_echoed_three :
    let trace : List Event := [.connect, .epoll_wait [3], .accept 5 6 true, .again, .send 0 [97, 10, 98, 10, 99, 10],
      .epoll_wait [5], .get_mut, .fill_buf 4, .consume, .write 2, .again, .epoll_wait [5], .get_mut, .consume, .write 2, .again,
      .epoll_wait [5], .get_mut, .fill_buf 2, .consume, .write 2, .again]
    ∃ state, attentive.Reaches trace state ∧ Echoed state := by
  intro trace
  obtain ⟨state, reaches, idle, watched, ready⟩ : ∃ state, attentive.Reaches trace state ∧ state.place = .epoll_wait ∧
      state.interest = [5, 3] ∧ [5, 3].all (fun fd => !state.ready fd) = true := ⟨_, rfl, rfl, rfl, rfl⟩
  refine ⟨state, reaches, lines_echoed reaches ⟨idle, fun fd member => ?_⟩⟩
  rw [watched] at member
  simpa using List.all_eq_true.mp ready fd member

/-- A client sends two lines at once, and the second one stays in the buffer. -/
theorem second_line_waits : ¬ ∀ trace state, server.Reaches trace state → Quiet state → Echoed state := by
  intro always
  let trace : List Event := [.connect, .epoll_wait [3], .accept 5 6 true, .again, .send 0 [97, 10, 98, 10], .epoll_wait [5],
    .get_mut, .fill_buf 4, .consume, .write 2, .again]
  obtain ⟨state, reaches, idle, watched, ready, found, socket⟩ : ∃ state, server.Reaches trace state ∧
      state.place = .epoll_wait ∧ state.interest = [5, 3] ∧ [5, 3].all (fun fd => !state.ready fd) = true ∧
      state.fd_to_buf[5]? = some ⟨0, 6, [98, 10]⟩ ∧ state.clients[0]? = some ⟨[97, 10, 98, 10], [], [97, 10], false, false⟩ :=
    ⟨_, rfl, rfl, rfl, rfl, rfl, rfl⟩
  have quiet : Quiet state := by
    refine ⟨idle, fun fd member => ?_⟩
    rw [watched] at member
    simpa using List.all_eq_true.mp ready fd member
  obtain ⟨rest, split, clear⟩ := always trace state reaches quiet 0 _ (.inr ⟨5, _, found, rfl⟩) socket
  have same : rest = [98, 10] := by simpa using split.symm
  rw [same] at clear
  exact clear (by decide)

end RustAsyncAwait.EpollServer
