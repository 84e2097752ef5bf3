import RustAsyncAwait.Proofs.IoPlaces
import RustAsyncAwait.Proofs.SelectorRequests

/-! Which uses of the futures the selector tolerates: a source has one
registration at a time, its descriptor is closed when the selector no longer
counts on it, and a request does not end what the batch has still to handle. -/

namespace RustAsyncAwait.IoSelector
open Library
open IoMultiplexing (RawFd File IOOps event)

/-- The event does not meet a request or a registration that it conflicts with. -/
def State.tolerated (state : State) : Event → Bool
  | .pending source => (state.fd source).all fun fd => !state.outstanding source (state.requests fd)
  | .close source => (state.fd source).all fun fd => !state.outstanding source (state.queued fd) &&
      (state.io.interest fd (.socket source) != some true || state.io.refs (.socket source) == 1)
  | .select (.request (.REMOVE fd)) => decide (fd ∉ state.io.select.batch)
  | _ => true

def careful : Machine State Event := selector.restrict fun state event => state.tolerated event = true

/-- What epoll watches and has reported. A waker in the map is there to be taken by an event. -/
structure Watched (state : State) : Prop where
  armed : ∀ fd file, state.io.interest fd file = some true →
    ∃ source, file = .socket source ∧ state.holds source fd ∧ state.io.wakers[fd]? ≠ none
  reported : ∀ fd waker source : Nat, state.io.wakers[fd]? = some waker → state.polls[waker]? = some source →
    state.life source = some .alive → state.io.interest fd (.socket source) = some true ∨ fd ∈ state.io.select.batch
  batch : ∀ fd ∈ state.io.select.batch, fd = event ∨ state.io.wakers[fd]? ≠ none
  disarmed : ∀ fd ∈ state.io.select.batch, ∀ file, state.io.interest fd file ≠ some true
  nodup : state.io.select.batch.Nodup
  runs : state.io.select ≠ .panicked

namespace Watched
variable {state next : State}

private theorem same_polls : ∀ waker known source : Nat, state.polls[waker]? = some known → state.polls[waker]? = some source →
    known = source := by
  intro waker known source before after
  rw [before] at after
  exact Option.some.inj after

/-- The owners of the sources leave the map and the batch alone. -/
theorem keep (watched : Watched state) (requests : Requests state) (wakers : next.io.wakers = state.io.wakers)
    (select : next.io.select = state.io.select)
    (interest : ∀ fd file, next.io.interest fd file = some true → state.io.interest fd file = some true)
    (holds : ∀ source fd, next.io.interest fd (.socket source) = some true → state.holds source fd → next.holds source fd)
    (polls : ∀ waker known source : Nat, state.polls[waker]? = some known → next.polls[waker]? = some source → known = source)
    (alive : ∀ source fd, state.fd source = some fd → next.life source = some .alive → state.life source = some .alive ∧
      (state.io.interest fd (.socket source) = some true → next.io.interest fd (.socket source) = some true)) :
    Watched next := by
  refine ⟨?_, ?_, ?_, ?_, ?_, ?_⟩
  · intro fd file armed
    obtain ⟨source, rfl, held, waits⟩ := watched.armed fd file (interest fd file armed)
    exact ⟨source, rfl, holds source fd armed held, wakers ▸ waits⟩
  · intro fd waker source waits polled running
    rw [wakers] at waits
    rw [select]
    obtain ⟨known, before, at_fd⟩ := requests.waking fd waker waits
    obtain rfl := polls waker known source before polled
    obtain ⟨ran, still⟩ := alive known fd at_fd running
    exact (watched.reported fd waker known waits before ran).imp_left still
  · rw [select, wakers]
    exact watched.batch
  · intro fd member file armed
    rw [select] at member
    exact watched.disarmed fd member file (interest fd file armed)
  · rw [select]
    exact watched.nodup
  · rw [select]
    exact watched.runs

theorem add (watched : Watched state) (requests : Requests state) (new : Source) (fds : RawFd → Option File)
    (refs : File → Nat) : Watched (state.add new fds refs) := by
  refine watched.keep requests rfl rfl (fun _ _ armed => armed) ?_ same_polls ?_
  · intro source fd _ opened
    obtain ⟨at_fd, unclosed⟩ := opened
    exact ⟨(old_add at_fd).1, by rwa [(old_add at_fd).2]⟩
  · intro source fd at_fd running
    rw [(old_add at_fd).2] at running
    exact ⟨running, fun armed => armed⟩

theorem pending (watched : Watched state) (requests : Requests state) (source : Nat) (fd : RawFd) :
    Watched (state.push (.ADD fd state.polls.length) (state.polls ++ [source]) source) := by
  refine watched.keep requests rfl rfl (fun _ _ armed => armed) (fun _ _ _ held => held) ?_ ?_
  · intro waker known other before after
    have same : (state.polls ++ [source])[waker]? = some known := by
      rw [List.getElem?_append_left (List.getElem?_eq_some_iff.mp before).1, before]
    exact Option.some.inj (same.symm.trans after)
  · exact fun other fd _ running => ⟨running, fun armed => armed⟩

theorem unregister (watched : Watched state) (requests : Requests state) {source : Nat} {fd : RawFd}
    (alive : state.life source = some .alive) :
    Watched ((state.push (.REMOVE fd) state.polls source).setLife source .dropped) := by
  have life : ∀ other, ((state.push (.REMOVE fd) state.polls source).setLife source .dropped).life other =
      if other = source then some .dropped else state.life other := fun _ => life_setLife alive
  refine watched.keep requests rfl rfl (fun _ _ armed => armed) ?_ same_polls ?_
  · intro other other_fd _ opened
    obtain ⟨held, unclosed⟩ := opened
    refine ⟨fd_setLife.trans held, ?_⟩
    rw [life]
    split
    · simp
    · exact unclosed
  · intro other other_fd _ running
    rw [life] at running
    split at running
    · cases running
    · exact ⟨running, fun armed => armed⟩

/-- Epoll drops an entry of the source, or has nothing armed for it. -/
theorem close (watched : Watched state) (tables : Descriptors state) (requests : Requests state) {source : Nat} {fd : RawFd}
    (at_fd : state.fd source = some fd) (dropped : state.life source = some .dropped)
    (last : state.io.interest fd (.socket source) ≠ some true ∨ state.io.refs (.socket source) = 1) :
    Watched (State.setLife { state with io := state.io.close fd } source .closed) := by
  have is_open := tables.opened source fd ⟨at_fd, by simp [dropped]⟩
  rw [IoMultiplexing.close_open is_open]
  refine watched.keep requests rfl rfl ?_ ?_ same_polls ?_
  · intro other file armed
    simp only [State.setLife] at armed
    split at armed
    next => cases armed
    next => exact armed
  · intro other other_fd armed opened
    obtain ⟨held, unclosed⟩ := opened
    simp only [State.setLife] at armed
    split at armed
    next => cases armed
    next open_ =>
      have different : other ≠ source := by
        intro same
        subst same
        rw [at_fd] at held
        cases held
        rcases last with unarmed | last
        · exact unarmed armed
        · exact open_ ⟨rfl, last⟩
      refine ⟨fd_setLife.trans held, ?_⟩
      rw [life_setLife dropped, if_neg different]
      exact unclosed
  · intro other other_fd _ running
    rw [life_setLife dropped] at running
    split at running
    next => cases running
    next different =>
      refine ⟨running, fun armed => ?_⟩
      simp only [State.setLife]
      rw [if_neg fun both => different (by simpa using both.1), armed]

theorem drop_writer (watched : Watched state) (tables : Descriptors state) (requests : Requests state) {source : Nat} {fd : RawFd}
    (at_fd : state.writer source = some fd) : Watched (State.dropWriter { state with io := state.io.close fd } source) := by
  rw [IoMultiplexing.close_open (tables.writers source fd at_fd).1]
  refine watched.keep requests rfl rfl ?_ ?_ same_polls ?_
  · intro other file armed
    simp only [State.dropWriter] at armed
    split at armed
    next => cases armed
    next => exact armed
  · intro other other_fd _ opened
    obtain ⟨held, unclosed⟩ := opened
    exact ⟨fd_dropWriter.trans held, fun closed => unclosed (life_dropWriter.symm.trans closed)⟩
  · intro other other_fd _ running
    rw [life_dropWriter] at running
    refine ⟨running, fun armed => ?_⟩
    simp only [State.dropWriter]
    rw [if_neg, armed]
    intro both
    obtain ⟨same, last⟩ := both
    obtain rfl : other = source := by simpa using same
    rw [tables.counted other (by simp [at_fd]) (by simp [running])] at last
    cases last

/-- The selector has no waker for the eventfd. -/
theorem not_event (tables : Descriptors state) (requests : Requests state) {waker source : Nat}
    (waits : state.io.wakers[event]? = some waker) (polled : state.polls[waker]? = some source) :
    state.life source ≠ some .alive := by
  intro running
  obtain ⟨known, also, at_fd⟩ := requests.waking event waker waits
  rw [polled] at also
  cases also
  exact tables.not_event ⟨at_fd, by simp [running]⟩ rfl

theorem epoll_wait (watched : Watched state) (tables : Descriptors state) {ready : List (RawFd × File)}
    (waiting : state.io.select = .epoll_wait) (distinct : ready.Nodup)
    (shown : ∀ pair ∈ ready, state.io.reported pair = true) :
    Watched { state with
      io.interest := fun fd file => if (fd, file) ∈ ready then (state.io.interest fd file).map fun _ => false
        else state.io.interest fd file
      io.select := .events (ready.map Prod.fst) } := by
  have file_of : ∀ fd file, (fd, file) ∈ ready → file = .eventfd ∧ fd = event ∨
      ∃ source, file = .socket source ∧ state.holds source fd ∧ state.io.wakers[fd]? ≠ none := by
    intro fd file member
    have seen := shown _ member
    unfold IoMultiplexing.State.reported at seen
    split at seen
    next same =>
      simp only [decide_eq_true_eq] at seen
      exact .inl ⟨same, seen.1⟩
    next => exact .inr (watched.armed fd file (by simpa using seen))
  have unique : ∀ fd one two, (fd, one) ∈ ready → (fd, two) ∈ ready → one = two := by
    intro fd one two first second
    rcases file_of fd one first with ⟨rfl, rfl⟩ | ⟨source, rfl, held, _⟩
    · rcases file_of event two second with ⟨rfl, _⟩ | ⟨_, _, held, _⟩
      · rfl
      · exact absurd rfl (tables.not_event held)
    · rcases file_of fd two second with ⟨_, rfl⟩ | ⟨also, rfl, other, _⟩
      · exact absurd rfl (tables.not_event held)
      · rw [tables.unique held other]
  refine ⟨?_, ?_, ?_, ?_, ?_, ?_⟩
  · intro fd file armed
    exact watched.armed fd file (IoMultiplexing.still_armed armed).2
  · intro fd waker source waits polled running
    by_cases inside : (fd, File.socket source) ∈ ready
    · exact .inr (List.mem_map.mpr ⟨_, inside, rfl⟩)
    · refine .inl ?_
      show (if _ then _ else _) = _
      rw [if_neg inside]
      rcases watched.reported fd waker source waits polled running with armed | batch
      · exact armed
      · rw [waiting] at batch
        cases batch
  · intro fd member
    obtain ⟨⟨_, file⟩, inside, rfl⟩ := List.mem_map.mp member
    rcases file_of _ file inside with ⟨_, same⟩ | ⟨_, _, _, waits⟩
    · exact .inl same
    · exact .inr waits
  · intro fd member file armed
    obtain ⟨⟨_, seen⟩, inside, rfl⟩ := List.mem_map.mp member
    obtain ⟨outside, before⟩ := IoMultiplexing.still_armed armed
    obtain ⟨source, rfl, held, _⟩ := watched.armed _ file before
    rcases file_of _ seen inside with ⟨_, rfl⟩ | ⟨also, rfl, other, _⟩
    · exact tables.not_event held rfl
    · rw [tables.unique held other] at outside
      exact outside inside
  · exact IoMultiplexing.ready_nodup distinct unique
  · simp

theorem wake (watched : Watched state) {fd : RawFd} {batch : List RawFd} {channel : List Nat}
    (handling : state.io.select = .events (fd :: batch)) :
    Watched { state with
      io.wakers := state.io.wakers.erase fd
      io.channel := channel
      io.select := .events batch } := by
  obtain ⟨armed, reported, inside, disarmed, nodup, _⟩ := watched
  rw [handling] at reported inside disarmed nodup
  obtain ⟨alone, nodup⟩ := List.nodup_cons.mp nodup
  refine ⟨?_, ?_, ?_, ?_, nodup, ?_⟩
  · intro other file shows
    obtain ⟨source, rfl, held, waits⟩ := armed other file shows
    refine ⟨source, rfl, held, ?_⟩
    rw [HashMap.get_erase_of_ne]
    · exact waits
    · intro same
      subst same
      exact disarmed other (List.mem_cons_self ..) _ shows
  · intro other waker source stays polled running
    have different : other ≠ fd := by
      intro same
      subst same
      simp at stays
    rw [HashMap.get_erase_of_ne _ different] at stays
    exact (reported other waker source stays polled running).imp_right fun member =>
      (List.mem_cons.mp member).resolve_left different
  · intro other member
    have different : other ≠ fd := fun same => alone (same ▸ member)
    rw [HashMap.get_erase_of_ne _ different]
    exact inside other (List.mem_cons_of_mem _ member)
  · exact fun other member => disarmed other (List.mem_cons_of_mem _ member)
  · simp

theorem lock (watched : Watched state) (tables : Descriptors state) (requests : Requests state) {batch : List RawFd}
    (handling : state.io.select = .events (event :: batch)) {holder : Option IoMultiplexing.Party} :
    Watched { state with io.lock := holder, io.select := .drain batch } := by
  obtain ⟨armed, reported, inside, disarmed, nodup, _⟩ := watched
  rw [handling] at reported inside disarmed nodup
  refine ⟨armed, ?_, fun fd member => inside fd (List.mem_cons_of_mem _ member),
    fun fd member => disarmed fd (List.mem_cons_of_mem _ member), (List.nodup_cons.mp nodup).2, by simp⟩
  intro fd waker source waits polled running
  refine (reported fd waker source waits polled running).imp_right fun member => ?_
  apply (List.mem_cons.mp member).resolve_left
  intro same
  subst same
  exact not_event tables requests waits polled running

/-- A request of the queue goes into the map, and epoll is armed for it. -/
theorem add_event (watched : Watched state) (tables : Descriptors state) {fd : RawFd} {waker source : Nat}
    {queue : List IOOps} (absent : state.io.wakers[fd]? = none) (polled : state.polls[waker]? = some source)
    (held : state.holds source fd) :
    Watched { state with
      io.queue := queue
      io.interest := fun other of => if other = fd ∧ of = .socket source then some true else state.io.interest other of
      io.wakers := state.io.wakers.insert fd waker } := by
  have kept : ∀ {other : RawFd}, state.io.wakers[other]? ≠ none → (state.io.wakers.insert fd waker)[other]? ≠ none := by
    intro other waits
    rw [HashMap.get_insert]
    split
    · simp
    · exact waits
  refine ⟨?_, ?_, fun other member => (watched.batch other member).imp_right kept, ?_, watched.nodup, watched.runs⟩
  · intro other file armed
    simp only at armed
    split at armed
    next same => exact ⟨source, same.2, by rw [same.1]; exact held, by simp [same.1]⟩
    next =>
      obtain ⟨known, rfl, holds, waits⟩ := watched.armed other file armed
      exact ⟨known, rfl, holds, kept waits⟩
  · intro other also known waits repolled running
    rw [HashMap.get_insert] at waits
    show (if _ then _ else _) = _ ∨ _
    split at waits
    next same =>
      cases waits
      have own := polled.symm.trans repolled
      cases own
      exact .inl (if_pos ⟨same.symm, rfl⟩)
    next different =>
      rw [if_neg fun both => different both.1.symm]
      exact watched.reported other also known waits repolled running
  · intro other member file armed
    simp only at armed
    split at armed
    next same =>
      rcases watched.batch other member with rfl | waits
      · exact tables.not_event held same.1.symm
      · exact waits (same.1 ▸ absent)
    next => exact watched.disarmed other member file armed

/-- What a `REMOVE` ends is not in the batch. -/
theorem rm_event (watched : Watched state) (tables : Descriptors state) {fd : RawFd} {queue : List IOOps}
    (outside : fd ∉ state.io.select.batch) :
    Watched { state with
      io.queue := queue
      io.interest := fun other of => if other = fd ∧ state.io.fds fd = some of then none else state.io.interest other of
      io.wakers := state.io.wakers.erase fd } := by
  refine ⟨?_, ?_, ?_, ?_, watched.nodup, watched.runs⟩
  · intro other file armed
    simp only at armed
    split at armed
    next => cases armed
    next stays =>
      obtain ⟨source, rfl, held, waits⟩ := watched.armed other file armed
      have different : other ≠ fd := by
        intro same
        subst same
        exact stays ⟨rfl, tables.opened source other held⟩
      exact ⟨source, rfl, held, by rwa [HashMap.get_erase_of_ne _ different]⟩
  · intro other waker source waits polled running
    have different : other ≠ fd := by
      intro same
      subst same
      simp at waits
    rw [HashMap.get_erase_of_ne _ different] at waits
    show (if _ then _ else _) = _ ∨ _
    rw [if_neg fun both => different both.1]
    exact watched.reported other waker source waits polled running
  · intro other member
    have different : other ≠ fd := fun same => outside (same ▸ member)
    rw [HashMap.get_erase_of_ne _ different]
    exact watched.batch other member
  · intro other member file armed
    simp only at armed
    split at armed
    next => cases armed
    next => exact watched.disarmed other member file armed

end Watched

structure Sound (state : State) : Prop where
  tables : Descriptors state
  requests : Requests state
  watched : Watched state

namespace Sound
variable {state next : State}

/-- The steps of the thread that selects. -/
private theorem select (sound : Sound state) {event : IoMultiplexing.Event} {io : IoMultiplexing.State}
    (selecting : selects event = true) (tolerated : state.tolerated (.select event) = true)
    (stepped : IoMultiplexing.Step state.io event io) : Sound { state with io } := by
  obtain ⟨tables, requests, watched⟩ := sound
  have open_ : ∀ {io : IoMultiplexing.State}, io.fds = state.io.fds → io.refs = state.io.refs → Descriptors { state with io } :=
    fun fds refs => tables.keep fds refs (fun _ => rfl) (fun _ => rfl) (fun _ => Iff.rfl)
  have calm : ∀ {io : IoMultiplexing.State}, io.queue = state.io.queue → io.wakers = state.io.wakers →
      io.channel = state.io.channel → Requests { state with io } :=
    fun queue wakers channel => requests.keep queue wakers channel rfl (fun _ _ held => held) (fun _ _ => Iff.rfl)
      (fun _ _ _ _ _ held => held)
  cases stepped with
  | epoll_wait waiting distinct reported =>
    exact ⟨open_ rfl rfl, calm rfl rfl rfl, watched.epoll_wait tables waiting distinct reported⟩
  | wake handling socket waker => exact ⟨open_ rfl rfl, requests.wake waker, watched.wake handling⟩
  | @missing fd batch handling socket waker =>
    rcases watched.batch fd (by rw [handling]; exact List.mem_cons_self ..) with same | waits
    · exact absurd same socket
    · exact absurd waker waits
  | lock handling unlocked => exact ⟨open_ rfl rfl, calm rfl rfl rfl, watched.lock tables requests handling⟩
  | @request op batch queue draining front =>
    cases op with
    | ADD fd waker =>
      have absent := requests.absent front
      obtain ⟨source, polled, held⟩ := requests.queued fd waker (by rw [front]; exact List.mem_cons_self ..)
      have added : IoMultiplexing.State.request { state.io with queue := queue } (.ADD fd waker) =
          { state.io with
            queue := queue, wakers := state.io.wakers.insert fd waker,
            interest := fun other of => if other = fd ∧ of = .socket source then some true else state.io.interest other of } :=
        @IoMultiplexing.add_event_open { state.io with queue := queue } fd _ waker (tables.opened source fd held) absent
      rw [added]
      exact ⟨open_ rfl rfl, requests.add_event front, watched.add_event tables absent polled held⟩
    | REMOVE fd =>
      have removed := IoMultiplexing.rm_event_eq { state.io with queue := queue } fd
      rw [show IoMultiplexing.State.request { state.io with queue := queue } (.REMOVE fd) = _ from removed]
      exact ⟨open_ rfl rfl, requests.rm_event front, watched.rm_event tables (of_decide_eq_true tolerated)⟩
  | @read_eventfd batch draining empty counted =>
    obtain ⟨armed, reported, inside, disarmed, nodup, _⟩ := watched
    rw [draining] at reported inside disarmed nodup
    exact ⟨open_ rfl rfl, calm rfl rfl rfl, armed, reported, inside, disarmed, nodup, by simp⟩
  | again handled =>
    obtain ⟨armed, reported, inside, disarmed, nodup, _⟩ := watched
    rw [handled] at reported inside disarmed nodup
    exact ⟨open_ rfl rfl, calm rfl rfl rfl, armed, reported, inside, disarmed, nodup, by simp⟩
  | _ => cases selecting

theorem step (sound : Sound state) {event : Event} (tolerated : state.tolerated event = true)
    (stepped : step state event = some next) : Sound next := by
  obtain ⟨tables, requests, watched⟩ := sound
  cases step_cases stepped with
  | listen free => exact ⟨tables.listen free, requests.add .., watched.add requests ..⟩
  | accept free also different => exact ⟨tables.accept free also different, requests.add .., watched.add requests ..⟩
  | @pending source fd at_fd alive =>
    have free : state.outstanding source (state.requests fd) = false := by
      simpa [State.tolerated, at_fd] using tolerated
    exact ⟨tables.keep rfl rfl (fun _ => rfl) (fun _ => rfl) (fun _ => Iff.rfl), requests.pending tables at_fd alive free,
      watched.pending requests source fd⟩
  | @unregister source fd at_fd alive =>
    refine ⟨tables.keep rfl rfl (fun _ => fd_setLife) (fun _ => writer_setLife) ?_, requests.unregister tables at_fd alive,
      watched.unregister requests alive⟩
    intro other
    rw [life_setLife alive]
    split
    next same => simp [same, alive]
    next => exact Iff.rfl
  | write_eventfd =>
    exact ⟨tables.keep rfl rfl (fun _ => rfl) (fun _ => rfl) (fun _ => Iff.rfl),
      requests.keep rfl rfl rfl rfl (fun _ _ held => held) (fun _ _ => Iff.rfl) (fun _ _ _ _ _ held => held),
      watched.armed, watched.reported, watched.batch, watched.disarmed, watched.nodup, watched.runs⟩
  | @close source fd at_fd dropped =>
    have is_open := tables.opened source fd ⟨at_fd, by simp [dropped]⟩
    obtain ⟨unqueued, last⟩ : state.outstanding source (state.queued fd) = false ∧
        (state.io.interest fd (.socket source) ≠ some true ∨ state.io.refs (.socket source) = 1) := by
      simpa [State.tolerated, at_fd] using tolerated
    refine ⟨tables.close at_fd dropped, ?_, watched.close tables requests at_fd dropped last⟩
    apply requests.close at_fd dropped unqueued <;> rw [IoMultiplexing.close_open is_open]
  | @drop_writer source fd at_fd =>
    have is_open := (tables.writers source fd at_fd).1
    refine ⟨tables.drop_writer at_fd, ?_, watched.drop_writer tables requests at_fd⟩
    apply requests.drop_writer source <;> rw [IoMultiplexing.close_open is_open]
  | select selecting moved => exact Sound.select ⟨tables, requests, watched⟩ selecting tolerated moved

theorem initial : Sound initial := by
  have no_fd : ∀ source, IoSelector.initial.fd source = none := fun _ => rfl
  have no_writer : ∀ source, IoSelector.initial.writer source = none := fun _ => rfl
  have no_waker : ∀ fd : RawFd, IoSelector.initial.io.wakers[fd]? = none := by simp [IoSelector.initial]
  have no_request : ∀ fd, IoSelector.initial.requests fd = [] := by
    intro fd
    rw [State.requests, no_waker]
    rfl
  refine ⟨⟨rfl, ?_, ?_, ?_⟩, ⟨?_, ?_, ?_, ?_, ?_, ?_⟩, ⟨?_, ?_, ?_, ?_, List.nodup_nil, by simp [IoSelector.initial]⟩⟩
  · intro source fd held
    obtain ⟨at_fd, _⟩ := held
    cases (no_fd source).symm.trans at_fd
  · intro source fd has
    cases (no_writer source).symm.trans has
  · exact fun source has => absurd (no_writer source) has
  · intro waker source polled
    cases polled
  · intro fd waker member
    cases member
  · intro fd waker waits
    cases (no_waker fd).symm.trans waits
  · intro fd waker member
    rw [no_request] at member
    cases member
  · intro fd
    rw [no_request]
    trivial
  · intro waker latest
    obtain ⟨source, polled, _⟩ := latest
    cases polled
  · intro fd file armed
    cases armed
  · intro fd waker source waits
    cases (no_waker fd).symm.trans waits
  · intro fd member
    cases member
  · intro fd member
    cases member

end Sound

theorem careful_run {trace : List Event} {state : State} (reaches : careful.Reaches trace state) : Sound state := by
  refine reaches.invariant Sound Sound.initial fun state event next sound stepped => ?_
  obtain ⟨tolerated, stepped⟩ := Machine.restrict_step.mp stepped
  exact sound.step tolerated stepped

/-- The thread that selects has not panicked, and whatever event it handles
wakes the latest poll of a source. The latest poll of a source that is not
dropped has been woken, or is in the queue, or in the map with an event to come. -/
structure Tolerant (state : State) : Prop where
  runs : state.io.select ≠ .panicked
  wakes : ∀ fd next, step state (.select (.wake fd)) = some next →
    ∃ waker, state.latest waker ∧ next.io.channel = state.io.channel ++ [waker]
  waits : ∀ waker source, state.polls[waker]? = some source → state.latest waker → state.life source = some .alive →
    waker ∈ state.io.channel ∨ ∃ fd, state.fd source = some fd ∧ (.ADD fd waker ∈ state.io.queue ∨
      state.io.wakers[fd]? = some waker ∧
        (state.io.interest fd (.socket source) = some true ∨ fd ∈ state.io.select.batch))

/-- The selector tolerates every use of its futures that is careful. -/
theorem careful_tolerant {trace : List Event} {state : State} (reaches : careful.Reaches trace state) : Tolerant state := by
  obtain ⟨tables, requests, watched⟩ := careful_run reaches
  refine ⟨watched.runs, ?_, ?_⟩
  · intro fd next stepped
    cases step_cases stepped with
    | select _ moved =>
      cases moved with
      | wake handling socket waker => exact ⟨_, requests.latest fd _ (mem_requests.mpr (.inl waker)), rfl⟩
      | missing handling socket waker =>
        rcases watched.batch fd (by rw [handling]; exact List.mem_cons_self ..) with same | waits
        · exact absurd same socket
        · exact absurd waker waits
  · intro waker source polled latest running
    refine (requests.kept waker latest ⟨source, polled, running⟩).imp_right fun waiting => ?_
    obtain ⟨fd, member⟩ := waiting
    obtain ⟨_, also, at_fd⟩ := requests.known member
    rw [polled] at also
    cases also
    refine ⟨fd, at_fd, ?_⟩
    rcases mem_requests.mp member with waits | queued
    · exact .inr ⟨waits, watched.reported fd waker source waits polled running⟩
    · exact .inl queued

/-- A reader is dropped while it is registered, and its descriptor is used again. -/
theorem careful_tolerant_reused :
    let drain (requests : List IOOps) : List Event := [.write_eventfd, .select (.epoll_wait [(4, .eventfd)]), .select .lock] ++
      requests.map (fun op => .select (.request op)) ++ [.select .read_eventfd, .select .again]
    let trace : List Event := [.listen 5, .pending 0] ++ drain [.ADD 5 0] ++
      [.select (.epoll_wait [(5, .socket 0)]), .select (.wake 5), .select .again, .accept 0 6 7, .pending 1] ++
      drain [.ADD 7 1] ++ [.unregister 1, .write_eventfd, .drop_writer 1, .close 1, .listen 7, .pending 2] ++
      drain [.REMOVE 7, .ADD 7 2]
    ∃ state, careful.Reaches trace state ∧ Tolerant state := by
  intro drain trace
  obtain ⟨state, reaches⟩ : ∃ state, careful.Reaches trace state := ⟨_, rfl⟩
  exact ⟨state, reaches, careful_tolerant reaches⟩

/-- The listener is polled twice before its event, as by two futures that are joined. -/
theorem second_poll_panics : ¬ ∀ trace state, selector.Reaches trace state → Tolerant state := by
  intro always
  let trace : List Event := [.listen 5, .pending 0, .write_eventfd, .pending 0, .write_eventfd,
    .select (.epoll_wait [(4, .eventfd)]), .select .lock, .select (.request (.ADD 5 0)), .select (.request (.ADD 5 1))]
  obtain ⟨state, reaches, panicked⟩ : ∃ state, selector.Reaches trace state ∧ state.io.select = .panicked := ⟨_, rfl, rfl⟩
  exact (always trace state reaches).runs panicked

end RustAsyncAwait.IoSelector
