import RustAsyncAwait.EpollServer

/-! What a step of the epoll server can do, and how its descriptors, its map and
the epoll instance stay together. -/

namespace RustAsyncAwait.EpollServer
open Library ReadLine

theorem connection_some {state : State} {fd : RawFd} {entry : Entry} {client : Client} :
    state.connection fd = some (entry, client) ↔
      state.fd_to_buf[fd]? = some entry ∧ state.clients[entry.client]? = some client := by
  simp only [State.connection, Option.bind_eq_some_iff, Option.map_eq_some_iff, Prod.mk.injEq]
  constructor
  · intro both
    obtain ⟨_, found, _, there, rfl, rfl⟩ := both
    exact ⟨found, there⟩
  · intro both
    obtain ⟨found, there⟩ := both
    exact ⟨entry, found, client, there, rfl, rfl⟩

/-- What each event does. -/
inductive Step (state : State) : Event → State → Prop
  | connect : Step state .connect
      { state with clients := state.clients ++ [{}], backlog := state.backlog ++ [state.clients.length] }
  | client {event : Event} {id : Nat} {client changed : Client} (found : state.clients[id]? = some client)
      (same : changed.taken = client.taken ∧ changed.echoed = client.echoed)
      (grown : ∃ bytes, changed.queue = client.queue ++ bytes)
      (ended : (client.eof || client.reset) = true → (changed.eof || changed.reset) = true)
      (outside : ∃ bytes, event = .send id bytes ∨ event = .shutdown id ∨ event = .reset id) :
      Step state event { state with clients := state.clients.set id changed }
  | epoll_wait {ready : List RawFd} (idle : state.place = .epoll_wait) (distinct : ready.Nodup)
      (watched : ∀ fd ∈ ready, fd ∈ state.interest) : Step state (.epoll_wait ready) { state with place := .events ready }
  | interrupted (idle : state.place = .epoll_wait) : Step state .interrupted { state with place := .finished }
  | accept {fd reader : RawFd} {added : Bool} {client : Nat} {batch : List RawFd} {backlog : List Nat}
      (here : state.place = .events (listen_fd :: batch)) (waits : state.backlog = client :: backlog)
      (fresh : fd ∉ state.fds) (other : reader ∉ state.fds) (two : fd ≠ reader) :
      Step state (.accept fd reader added) { state with
        fds := fd :: reader :: state.fds
        interest := if added then fd :: state.interest else state.interest
        fd_to_buf := state.fd_to_buf.insert fd { client, reader }
        backlog := backlog
        place := .events batch }
  | accept_fails {batch : List RawFd} (here : state.place = .events (listen_fd :: batch)) :
      Step state .accept_fails { state with place := .events batch }
  | try_clone_fails {batch : List RawFd} (here : state.place = .events (listen_fd :: batch)) :
      Step state .try_clone_fails { state with place := .panicked }
  | get_none {fd : RawFd} {batch : List RawFd} (here : state.place = .events (fd :: batch)) (other : fd ≠ listen_fd)
      (missing : state.fd_to_buf[fd]? = none) : Step state .get_mut { state with place := .panicked }
  | get_mut {fd : RawFd} {batch : List RawFd} {entry : Entry} (here : state.place = .events (fd :: batch))
      (other : fd ≠ listen_fd) (found : state.fd_to_buf[fd]? = some entry) :
      Step state .get_mut { state with place := .read_line fd [] batch }
  | fill_buf {count fd : Nat} {buf : List UInt8} {batch : List RawFd} {entry : Entry} {client : Client}
      (here : state.place = .read_line fd buf batch) (found : state.fd_to_buf[fd]? = some entry)
      (socket : state.clients[entry.client]? = some client) (empty : entry.buffered = []) :
      Step state (.fill_buf count) { state with
        fd_to_buf := state.fd_to_buf.insert fd { entry with buffered := client.queue.take count }
        clients := state.clients.set entry.client
          { client with taken := client.taken ++ client.queue.take count, queue := client.queue.drop count } }
  | fill_buf_fails {fd : RawFd} {buf : List UInt8} {batch : List RawFd} (here : state.place = .read_line fd buf batch) :
      Step state .fill_buf_fails { state with place := .panicked }
  | end_of_stream {fd : RawFd} {buf : List UInt8} {batch : List RawFd} (here : state.place = .read_line fd buf batch)
      (empty : ∀ entry, state.fd_to_buf[fd]? = some entry → entry.buffered = []) :
      Step state .end_of_stream { state with place := .returned fd buf batch }
  | line {fd : RawFd} {buf line rest : List UInt8} {batch : List RawFd} {entry : Entry}
      (here : state.place = .read_line fd buf batch) (found : state.fd_to_buf[fd]? = some entry)
      (split : entry.buffered = line ++ [newline] ++ rest) (clear : newline ∉ line) :
      Step state .consume { state with
        fd_to_buf := state.fd_to_buf.insert fd { entry with buffered := rest }
        place := .returned fd (buf ++ line ++ [newline]) batch }
  | part {fd : RawFd} {buf : List UInt8} {batch : List RawFd} {entry : Entry}
      (here : state.place = .read_line fd buf batch) (found : state.fd_to_buf[fd]? = some entry) :
      Step state .consume { state with
        fd_to_buf := state.fd_to_buf.insert fd { entry with buffered := [] }
        place := .read_line fd (buf ++ entry.buffered) batch }
  | invalid {fd : RawFd} {buf : List UInt8} {batch : List RawFd} (here : state.place = .returned fd buf batch) :
      Step state .invalid { state with place := .panicked }
  | close {fd : RawFd} {batch : List RawFd} {entry : Entry} (here : state.place = .returned fd [] batch)
      (found : state.fd_to_buf[fd]? = some entry) (watched : fd ∈ state.interest) :
      Step state .close { state with
        fds := state.fds.filter fun other => other ≠ fd ∧ other ≠ entry.reader
        interest := state.interest.filter (· ≠ fd)
        fd_to_buf := state.fd_to_buf.erase fd
        place := .events batch }
  | close_fails {fd : RawFd} {batch : List RawFd} (here : state.place = .returned fd [] batch)
      (unwatched : fd ∉ state.interest) : Step state .close { state with place := .panicked }
  | write {count fd : Nat} {buf : List UInt8} {batch : List RawFd} {entry : Entry} {client : Client}
      (here : state.place = .returned fd buf batch) (found : state.fd_to_buf[fd]? = some entry)
      (socket : state.clients[entry.client]? = some client) :
      Step state (.write count) { state with
        clients := state.clients.set entry.client { client with echoed := client.echoed ++ buf.take count }
        place := .events batch }
  | write_fails {fd : RawFd} {buf : List UInt8} {batch : List RawFd} (here : state.place = .returned fd buf batch) :
      Step state .write_fails { state with place := .panicked }
  | again (here : state.place = .events []) : Step state .again { state with place := .epoll_wait }

theorem change_cases {state next : State} {id : Nat} {event : Client → Client} (stepped : state.change id event = some next) :
    ∃ client, state.clients[id]? = some client ∧ next = { state with clients := state.clients.set id (event client) } := by
  obtain ⟨client, found, rfl⟩ := Option.map_eq_some_iff.mp stepped
  exact ⟨client, found, rfl⟩

theorem step_cases {state next : State} {event : Event} (stepped : step state event = some next) :
    Step state event next := by
  cases event with
  | connect =>
    cases stepped
    exact .connect
  | send id bytes =>
    obtain ⟨client, found, rfl⟩ := change_cases stepped
    refine .client found ?_ ?_ ?_ ⟨bytes, .inl rfl⟩
    · split <;> exact ⟨rfl, rfl⟩
    · split
      · exact ⟨[], (List.append_nil _).symm⟩
      · exact ⟨bytes, rfl⟩
    · intro ended
      rw [if_pos ended]
      exact ended
  | shutdown id =>
    obtain ⟨client, found, rfl⟩ := change_cases stepped
    exact .client found ⟨rfl, rfl⟩ ⟨[], (List.append_nil _).symm⟩ (fun _ => rfl) ⟨[], .inr (.inl rfl)⟩
  | reset id =>
    obtain ⟨client, found, rfl⟩ := change_cases stepped
    exact .client found ⟨rfl, rfl⟩ ⟨[], (List.append_nil _).symm⟩ (fun _ => by simp) ⟨[], .inr (.inr rfl)⟩
  | epoll_wait ready =>
    simp only [step, Option.ite_none_right_eq_some, Option.some.injEq] at stepped
    obtain ⟨⟨idle, _, _, distinct, all⟩, rfl⟩ := stepped
    refine .epoll_wait idle distinct fun fd member => ?_
    have both := List.all_eq_true.mp all fd member
    simp only [decide_eq_true_eq] at both
    exact both.1
  | interrupted =>
    simp only [step, Option.ite_none_right_eq_some, Option.some.injEq] at stepped
    obtain ⟨idle, rfl⟩ := stepped
    exact .interrupted idle
  | accept fd reader added =>
    simp only [step] at stepped
    split at stepped
    · rename_i first batch client backlog here waits
      simp only [Option.ite_none_right_eq_some, Option.some.injEq] at stepped
      obtain ⟨⟨rfl, fresh, other, two, _⟩, rfl⟩ := stepped
      exact .accept here waits fresh other two
    · cases stepped
  | accept_fails =>
    simp only [step] at stepped
    split at stepped
    · rename_i first batch here
      simp only [Option.ite_none_right_eq_some, Option.some.injEq] at stepped
      obtain ⟨rfl, rfl⟩ := stepped
      exact .accept_fails here
    · cases stepped
  | try_clone_fails =>
    simp only [step] at stepped
    split at stepped
    · rename_i first batch _ _ here _
      simp only [Option.ite_none_right_eq_some, Option.some.injEq] at stepped
      obtain ⟨rfl, rfl⟩ := stepped
      exact .try_clone_fails here
    · cases stepped
  | get_mut =>
    simp only [step] at stepped
    split at stepped
    · rename_i fd batch here
      split at stepped
      · cases stepped
      · rename_i other
        split at stepped
        · rename_i missing
          cases stepped
          exact .get_none here other missing
        · rename_i present
          cases stepped
          obtain ⟨entry, found⟩ := Option.ne_none_iff_exists'.mp present
          exact .get_mut here other found
    · cases stepped
  | fill_buf count =>
    simp only [step] at stepped
    split at stepped
    · rename_i fd buf batch here
      obtain ⟨⟨entry, client⟩, both, stepped⟩ := Option.bind_eq_some_iff.mp stepped
      obtain ⟨found, socket⟩ := connection_some.mp both
      simp only [Option.ite_none_right_eq_some, Option.some.injEq] at stepped
      obtain ⟨⟨empty, _⟩, rfl⟩ := stepped
      exact .fill_buf here found socket empty
    · cases stepped
  | fill_buf_fails =>
    simp only [step] at stepped
    split at stepped
    · rename_i fd buf batch here
      obtain ⟨⟨entry, client⟩, _, stepped⟩ := Option.bind_eq_some_iff.mp stepped
      simp only [Option.ite_none_right_eq_some, Option.some.injEq] at stepped
      obtain ⟨_, rfl⟩ := stepped
      exact .fill_buf_fails here
    · cases stepped
  | end_of_stream =>
    simp only [step] at stepped
    split at stepped
    · rename_i fd buf batch here
      obtain ⟨⟨entry, client⟩, both, stepped⟩ := Option.bind_eq_some_iff.mp stepped
      obtain ⟨found, _⟩ := connection_some.mp both
      simp only [Option.ite_none_right_eq_some, Option.some.injEq] at stepped
      obtain ⟨⟨empty, _⟩, rfl⟩ := stepped
      refine .end_of_stream here fun other same => ?_
      rw [found, Option.some.injEq] at same
      rwa [← same]
    · cases stepped
  | consume =>
    simp only [step] at stepped
    split at stepped
    · rename_i fd buf batch here
      obtain ⟨entry, found, stepped⟩ := Option.bind_eq_some_iff.mp stepped
      split at stepped
      · rename_i byte rest dropped
        cases stepped
        obtain ⟨split, clear⟩ := found_newline dropped
        exact .line here found split clear
      · simp only [Option.ite_none_left_eq_some, Option.some.injEq] at stepped
        obtain ⟨_, rfl⟩ := stepped
        exact .part here found
    · cases stepped
  | invalid =>
    simp only [step] at stepped
    split at stepped
    · rename_i fd buf batch here
      simp only [Option.ite_none_right_eq_some, Option.some.injEq] at stepped
      obtain ⟨_, rfl⟩ := stepped
      exact .invalid here
    · cases stepped
  | close =>
    simp only [step] at stepped
    split at stepped
    · rename_i fd batch here
      obtain ⟨entry, found, rfl⟩ := Option.map_eq_some_iff.mp stepped
      split
      · rename_i watched
        exact .close here found watched
      · rename_i unwatched
        exact .close_fails here unwatched
    · cases stepped
  | write count =>
    simp only [step] at stepped
    split at stepped
    · rename_i fd buf batch here
      obtain ⟨⟨entry, client⟩, both, stepped⟩ := Option.bind_eq_some_iff.mp stepped
      obtain ⟨found, socket⟩ := connection_some.mp both
      simp only [Option.ite_none_right_eq_some, Option.some.injEq] at stepped
      obtain ⟨_, rfl⟩ := stepped
      exact .write here found socket
    · cases stepped
  | write_fails =>
    simp only [step] at stepped
    split at stepped
    · rename_i fd buf batch here
      simp only [Option.ite_none_right_eq_some, Option.some.injEq] at stepped
      obtain ⟨_, rfl⟩ := stepped
      exact .write_fails here
    · cases stepped
  | again =>
    simp only [step, Option.ite_none_right_eq_some, Option.some.injEq] at stepped
    obtain ⟨here, rfl⟩ := stepped
    exact .again here

/-- The descriptors whose events have still to be handled, the one in hand first. -/
def Place.pending : Place → List RawFd
  | .events batch => batch
  | .read_line fd _ batch | .returned fd _ batch => fd :: batch
  | .epoll_wait | .panicked | .finished => []

/-- The client's descriptor in hand. -/
def Place.current : Place → Option RawFd
  | .read_line fd _ _ | .returned fd _ _ => some fd
  | .epoll_wait | .events _ | .panicked | .finished => none

/-- The client and the second descriptor of an entry. -/
def State.owner (state : State) (fd : RawFd) : Option (Nat × RawFd) :=
  state.fd_to_buf[fd]?.map fun entry => (entry.client, entry.reader)

/-- Each client belongs to one entry or to the backlog, each descriptor to one
entry, and whatever epoll watches or has reported is the listener or has an entry. -/
structure Tables (state : State) : Prop where
  listening : listen_fd ∈ state.fds ∧ listen_fd ∈ state.interest ∧ state.owner listen_fd = none
  opened : ∀ fd client reader, state.owner fd = some (client, reader) →
    fd ∈ state.fds ∧ reader ∈ state.fds ∧ reader ≠ listen_fd ∧ client < state.clients.length ∧ client ∉ state.backlog
  apart : ∀ fd other client client' reader reader', state.owner fd = some (client, reader) →
    state.owner other = some (client', reader') → reader ≠ other ∧ (reader = reader' ∨ client = client' → fd = other)
  backlog : state.backlog.Nodup ∧ ∀ client ∈ state.backlog, client < state.clients.length
  watched : ∀ fd ∈ state.interest, fd ≠ listen_fd → state.owner fd ≠ none
  pending : state.place.pending.Nodup ∧ ∀ fd ∈ state.place.pending, fd ∈ state.interest
  current : ∀ fd, state.place.current = some fd → fd ≠ listen_fd

theorem owner_of_found {state : State} {fd : RawFd} {entry : Entry} (found : state.fd_to_buf[fd]? = some entry) :
    state.owner fd = some (entry.client, entry.reader) := by
  rw [State.owner, found]
  rfl

theorem owner_insert (state : State) {next : State} {fd : RawFd} {entry : Entry}
    (same : next.fd_to_buf = state.fd_to_buf.insert fd entry) (other : RawFd) :
    next.owner other = if fd = other then some (entry.client, entry.reader) else state.owner other := by
  rw [State.owner, same, HashMap.get_insert]
  split <;> rfl

theorem owner_erase (state : State) {next : State} {fd : RawFd} (same : next.fd_to_buf = state.fd_to_buf.erase fd) (other : RawFd) :
    next.owner other = if fd = other then none else state.owner other := by
  rw [State.owner, same, HashMap.get_erase]
  split <;> rfl

/-- Bytes in the buffer of an entry do not change whose entry it is. -/
theorem owner_buffered {state next : State} {fd : RawFd} {entry : Entry} {buffered : List UInt8}
    (found : state.fd_to_buf[fd]? = some entry)
    (same : next.fd_to_buf = state.fd_to_buf.insert fd { entry with buffered }) (other : RawFd) :
    next.owner other = state.owner other := by
  rw [owner_insert state same]
  split
  · rename_i here
    rw [← here, owner_of_found found]
  · rfl

namespace Tables
variable {state next : State}

theorem initial : Tables {} := by
  have none : ∀ fd, State.owner {} fd = none := by
    intro fd
    simp [State.owner]
  refine ⟨⟨by decide, by decide, none _⟩, ?_, ?_, ⟨List.nodup_nil, by simp⟩, ?_, ⟨List.nodup_nil, by simp [Place.pending]⟩, ?_⟩
  · intro fd client reader owned
    rw [none fd] at owned
    cases owned
  · intro fd other client client' reader reader' owned
    rw [none fd] at owned
    cases owned
  · intro fd member other
    exact absurd (List.mem_singleton.mp member) other
  · intro fd current
    cases current

theorem keep (tables : Tables state) (fds : next.fds = state.fds) (interest : next.interest = state.interest)
    (backlog : next.backlog = state.backlog) (owner : ∀ fd, next.owner fd = state.owner fd)
    (clients : next.clients.length = state.clients.length)
    (pending : next.place.pending.Nodup ∧ ∀ fd ∈ next.place.pending, fd ∈ state.interest)
    (current : ∀ fd, next.place.current = some fd → fd ≠ listen_fd) : Tables next := by
  refine ⟨?_, ?_, ?_, ?_, ?_, ?_, current⟩
  · rw [fds, interest, owner]
    exact tables.listening
  · intro fd client reader owned
    rw [owner] at owned
    rw [fds, clients, backlog]
    exact tables.opened fd client reader owned
  · intro fd other client client' reader reader' owned owned'
    rw [owner] at owned owned'
    exact tables.apart fd other client client' reader reader' owned owned'
  · rw [backlog, clients]
    exact tables.backlog
  · intro fd member
    rw [interest] at member
    rw [owner]
    exact tables.watched fd member
  · rw [interest]
    exact pending

/-- The loop goes on, with fewer events before it. -/
theorem moves (tables : Tables state) (fds : next.fds = state.fds) (interest : next.interest = state.interest)
    (backlog : next.backlog = state.backlog) (owner : ∀ fd, next.owner fd = state.owner fd)
    (clients : next.clients.length = state.clients.length) (fewer : next.place.pending.Sublist state.place.pending)
    (current : ∀ fd, next.place.current = some fd → fd ≠ listen_fd) : Tables next :=
  tables.keep fds interest backlog owner clients
    ⟨tables.pending.1.sublist fewer, fun fd member => tables.pending.2 fd (fewer.subset member)⟩ current

theorem accepts (tables : Tables state) {fd reader : RawFd} {added : Bool} {client : Nat} {batch : List RawFd}
    {backlog : List Nat} (here : state.place = .events (listen_fd :: batch)) (waits : state.backlog = client :: backlog)
    (fresh : fd ∉ state.fds) (other : reader ∉ state.fds) (two : fd ≠ reader) :
    Tables { state with
      fds := fd :: reader :: state.fds
      interest := if added then fd :: state.interest else state.interest
      fd_to_buf := state.fd_to_buf.insert fd { client, reader }
      backlog := backlog
      place := .events batch } := by
  obtain ⟨⟨open_listen, watch_listen, no_listen⟩, opened, apart, ⟨distinct, waiting⟩, watched, pending, _⟩ := tables
  rw [waits] at distinct waiting opened
  rw [here] at pending
  have not_listen : fd ≠ listen_fd := fun same => fresh (same ▸ open_listen)
  have owner : ∀ item, State.owner { state with
      fds := fd :: reader :: state.fds
      interest := if added then fd :: state.interest else state.interest
      fd_to_buf := state.fd_to_buf.insert fd { client, reader }
      backlog := backlog
      place := .events batch } item = if fd = item then some (client, reader) else state.owner item := by
    intro item
    rw [State.owner, HashMap.get_insert]
    split <;> rfl
  have grown : ∀ item ∈ state.interest, item ∈ (if added then fd :: state.interest else state.interest) := by
    intro item member
    split
    · exact List.mem_cons_of_mem _ member
    · exact member
  have old : ∀ item ∈ state.fds, item ∈ fd :: reader :: state.fds :=
    fun item member => List.mem_cons_of_mem _ (List.mem_cons_of_mem _ member)
  refine ⟨⟨old _ open_listen, grown _ watch_listen, ?_⟩, ?_, ?_, ⟨(List.nodup_cons.mp distinct).2, ?_⟩, ?_, ⟨?_, ?_⟩, ?_⟩
  · rw [owner, if_neg not_listen]
    exact no_listen
  · intro item client' reader' owned
    rw [owner] at owned
    split at owned
    · rename_i same
      cases owned
      refine ⟨by simp [← same], by simp, fun same => other (same ▸ open_listen), waiting _ (List.mem_cons_self ..), ?_⟩
      exact (List.nodup_cons.mp distinct).1
    · obtain ⟨opens, reads, listens, made, absent⟩ := opened item client' reader' owned
      exact ⟨old _ opens, old _ reads, listens, made, fun member => absent (List.mem_cons_of_mem _ member)⟩
  · intro item item' client' client'' reader' reader'' owned owned'
    rw [owner] at owned owned'
    split at owned
    · rename_i same
      cases owned
      split at owned'
      · rename_i same'
        exact ⟨fun read => two (same'.trans read.symm), fun _ => same.symm.trans same'⟩
      · obtain ⟨opens, reads, _, _, absent⟩ := opened item' client'' reader'' owned'
        refine ⟨fun read => other (read ▸ opens), fun either => ?_⟩
        rcases either with read | same_client
        · exact absurd (read ▸ reads) other
        · exact absurd (same_client ▸ List.mem_cons_self ..) absent
    · obtain ⟨opens, reads, _, _, absent⟩ := opened item client' reader' owned
      split at owned'
      · rename_i same'
        cases owned'
        refine ⟨fun read => fresh (same' ▸ read ▸ reads), fun either => ?_⟩
        rcases either with read | same_client
        · exact absurd (read ▸ reads) other
        · exact absurd (same_client ▸ List.mem_cons_self ..) absent
      · exact apart item item' client' client'' reader' reader'' owned owned'
  · exact fun item member => waiting item (List.mem_cons_of_mem _ member)
  · intro item member listens
    rw [owner]
    split
    · simp
    · rename_i different
      refine watched item ?_ listens
      cases added with
      | true => exact (List.mem_cons.mp member).resolve_left (Ne.symm different)
      | false => exact member
  · exact (List.nodup_cons.mp pending.1).2
  · exact fun item member => grown item (pending.2 item (List.mem_cons_of_mem _ member))
  · intro item current
    cases current

theorem closes (tables : Tables state) {fd : RawFd} {batch : List RawFd} {entry : Entry}
    (here : state.place = .returned fd [] batch) (found : state.fd_to_buf[fd]? = some entry) :
    Tables { state with
      fds := state.fds.filter fun other => other ≠ fd ∧ other ≠ entry.reader
      interest := state.interest.filter (· ≠ fd)
      fd_to_buf := state.fd_to_buf.erase fd
      place := .events batch } := by
  obtain ⟨⟨open_listen, watch_listen, no_listen⟩, opened, apart, backlog, watched, pending, current⟩ := tables
  have owned := owner_of_found found
  have not_listen : fd ≠ listen_fd := current fd (by rw [here]; rfl)
  rw [here] at pending
  have distinct : fd ∉ batch ∧ batch.Nodup := List.nodup_cons.mp pending.1
  have owner : ∀ item, State.owner { state with
      fds := state.fds.filter fun other => other ≠ fd ∧ other ≠ entry.reader
      interest := state.interest.filter (· ≠ fd)
      fd_to_buf := state.fd_to_buf.erase fd
      place := .events batch } item = if fd = item then none else state.owner item := by
    intro item
    rw [State.owner, HashMap.get_erase]
    split <;> rfl
  have kept : ∀ item ∈ state.fds, item ≠ fd → item ≠ entry.reader →
      item ∈ state.fds.filter fun other => other ≠ fd ∧ other ≠ entry.reader := by
    intro item member one two
    simp [member, one, two]
  refine ⟨⟨kept _ open_listen (Ne.symm not_listen) ?_, ?_, ?_⟩, ?_, ?_, backlog, ?_, ⟨distinct.2, ?_⟩, ?_⟩
  · exact Ne.symm (opened fd _ _ owned).2.2.1
  · simp [watch_listen, Ne.symm not_listen]
  · rw [owner, if_neg not_listen]
    exact no_listen
  · intro item client reader owned'
    rw [owner] at owned'
    split at owned'
    · cases owned'
    · rename_i different
      obtain ⟨opens, reads, listens, made⟩ := opened item client reader owned'
      obtain ⟨read_fd, _⟩ := apart item fd _ _ _ _ owned' owned
      obtain ⟨reader_item, same⟩ := apart fd item _ _ _ _ owned owned'
      refine ⟨kept _ opens (Ne.symm different) (Ne.symm reader_item), kept _ reads read_fd ?_, listens, made⟩
      exact fun read => different (same (.inl read.symm))
  · intro item item' client client' reader reader' owned owned'
    rw [owner] at owned owned'
    split at owned
    · cases owned
    · split at owned'
      · cases owned'
      · exact apart item item' client client' reader reader' owned owned'
  · intro item member listens
    obtain ⟨member, different⟩ := List.mem_filter.mp member
    rw [owner, if_neg (Ne.symm (by simpa using different))]
    exact watched item member listens
  · intro item member
    refine List.mem_filter.mpr ⟨pending.2 item (List.mem_cons_of_mem _ member), ?_⟩
    simp only [decide_eq_true_eq]
    intro same
    subst same
    exact distinct.1 member
  · intro item current
    cases current

/-- A client that has not been accepted. -/
theorem connects (tables : Tables state) :
    Tables { state with clients := state.clients ++ [{}], backlog := state.backlog ++ [state.clients.length] } := by
  obtain ⟨listening, opened, apart, ⟨distinct, waiting⟩, watched, pending, current⟩ := tables
  refine ⟨listening, ?_, apart, ⟨?_, ?_⟩, watched, pending, current⟩
  · intro fd client reader owned
    obtain ⟨opens, reads, listens, made, absent⟩ := opened fd client reader owned
    refine ⟨opens, reads, listens, by rw [List.length_append]; omega, fun member => ?_⟩
    rcases List.mem_append.mp member with old | new
    · exact absent old
    · rw [List.mem_singleton.mp new] at made
      exact Nat.lt_irrefl _ made
  · rw [List.nodup_append]
    refine ⟨distinct, by simp, fun client member last here => ?_⟩
    rw [List.mem_singleton.mp here]
    exact Nat.ne_of_lt (waiting client member)
  · intro client member
    rw [List.length_append, List.length_singleton]
    rcases List.mem_append.mp member with old | new
    · exact Nat.lt_succ_of_lt (waiting client old)
    · rw [List.mem_singleton.mp new]
      exact Nat.lt_succ_self _

end Tables

theorem step_tables {state next : State} {event : Event} (tables : Tables state) (stepped : step state event = some next) :
    Tables next := by
  have same : ∀ fd, state.owner fd = state.owner fd := fun _ => rfl
  cases step_cases stepped with
  | connect => exact tables.connects
  | client found _ _ _ _ => exact tables.moves rfl rfl rfl same (by simp) (List.Sublist.refl _) tables.current
  | epoll_wait idle distinct watched => exact tables.keep rfl rfl rfl same rfl ⟨distinct, watched⟩ (by simp [Place.current])
  | interrupted idle =>
    exact tables.moves rfl rfl rfl same rfl (List.nil_sublist _) (by simp [Place.current])
  | accept here waits fresh other two => exact tables.accepts here waits fresh other two
  | accept_fails here => exact tables.moves rfl rfl rfl same rfl (by simp [here, Place.pending]) (by simp [Place.current])
  | try_clone_fails here | get_none here _ _ | fill_buf_fails here | invalid here | close_fails here _ | write_fails here =>
    exact tables.moves rfl rfl rfl same rfl (List.nil_sublist _) (by simp [Place.current])
  | get_mut here other found =>
    refine tables.moves rfl rfl rfl same rfl (by simp [here, Place.pending]) fun fd current => ?_
    cases current
    exact other
  | fill_buf here found socket empty =>
    exact tables.moves rfl rfl rfl (owner_buffered found rfl) (by simp) (List.Sublist.refl _) tables.current
  | end_of_stream here _ =>
    refine tables.moves rfl rfl rfl same rfl (by simp [here, Place.pending]) fun fd current => tables.current fd ?_
    rw [here]
    exact current
  | line here found _ _ =>
    refine tables.moves rfl rfl rfl (owner_buffered found rfl) rfl (by simp [here, Place.pending])
      fun fd current => tables.current fd ?_
    rw [here]
    exact current
  | part here found =>
    refine tables.moves rfl rfl rfl (owner_buffered found rfl) rfl (by simp [here, Place.pending])
      fun fd current => tables.current fd ?_
    rw [here]
    exact current
  | close here found _ => exact tables.closes here found
  | write here found socket =>
    exact tables.moves rfl rfl rfl same (by simp) (by simp [here, Place.pending]) (by simp [Place.current])
  | again here => exact tables.moves rfl rfl rfl same rfl (List.nil_sublist _) (by simp [Place.current])

theorem reaches_tables {trace : List Event} {state : State} (reaches : server.Reaches trace state) : Tables state :=
  reaches.invariant Tables .initial fun _ _ _ tables stepped => step_tables tables stepped

end RustAsyncAwait.EpollServer
