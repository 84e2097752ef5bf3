import RustAsyncAwait.Proofs.SelectorSteps

/-! The requests of the sources, from the queue to the map of the selector: how
they stand in order, and what keeps them so. -/

namespace RustAsyncAwait.IoSelector
open Library
open IoMultiplexing (RawFd File IOOps event)

/-- Some of the requests are for this source. -/
def State.outstanding (state : State) (source : Nat) (requests : List (Option Nat)) : Bool :=
  requests.any fun request => request.bind (fun waker => state.polls[waker]?) == some source

theorem not_outstanding {state : State} {source waker : Nat} {requests : List (Option Nat)}
    (absent : state.outstanding source requests = false) (member : some waker ∈ requests) :
    state.polls[waker]? ≠ some source := by
  have other := List.any_eq_false.mp absent _ member
  simpa using other

/-- The requests of the sources, on their way through the queue to the map and the channel. -/
structure Requests (state : State) : Prop where
  polled : ∀ waker source : Nat, state.polls[waker]? = some source → state.fd source ≠ none
  queued : ∀ fd (waker : Nat), .ADD fd waker ∈ state.io.queue → ∃ source, state.polls[waker]? = some source ∧ state.holds source fd
  waking : ∀ fd waker : Nat, state.io.wakers[fd]? = some waker →
    ∃ source, state.polls[waker]? = some source ∧ state.fd source = some fd
  latest : ∀ fd waker, some waker ∈ state.requests fd → state.latest waker
  ordered : ∀ fd, Ordered state.awaited (state.requests fd)
  kept : ∀ waker, state.latest waker → state.awaited waker →
    waker ∈ state.io.channel ∨ ∃ fd, some waker ∈ state.requests fd

namespace Requests
variable {state next : State}

/-- A request is for a source with its descriptor. -/
theorem known (requests : Requests state) {fd : RawFd} {waker : Nat} (member : some waker ∈ state.requests fd) :
    ∃ source, state.polls[waker]? = some source ∧ state.fd source = some fd := by
  rcases mem_requests.mp member with waits | queued
  · exact requests.waking fd waker waits
  · obtain ⟨source, polled, at_fd, _⟩ := requests.queued fd waker queued
    exact ⟨source, polled, at_fd⟩

/-- No request has moved, and the sources of those in the queue are open. -/
theorem keep (requests : Requests state) (queue : next.io.queue = state.io.queue) (wakers : next.io.wakers = state.io.wakers)
    (channel : next.io.channel = state.io.channel) (polls : next.polls = state.polls)
    (fd : ∀ source fd, state.fd source = some fd → next.fd source = some fd)
    (life : ∀ source, state.fd source ≠ none → (next.life source = some .alive ↔ state.life source = some .alive))
    (holds : ∀ fd waker source, .ADD fd waker ∈ state.io.queue → state.polls[waker]? = some source → state.holds source fd →
      next.holds source fd) : Requests next := by
  have same : ∀ fd, next.requests fd = state.requests fd := by
    intro fd
    simp only [State.requests, State.queued, queue, wakers]
  have latest : ∀ waker, next.latest waker ↔ state.latest waker := by
    intro waker
    simp only [State.latest, polls]
  have awaited : ∀ waker, next.awaited waker ↔ state.awaited waker := by
    intro waker
    simp only [State.awaited, polls]
    exact exists_congr fun source => and_congr_right fun polled => life source (requests.polled waker source polled)
  refine ⟨?_, ?_, ?_, ?_, ?_, ?_⟩
  · intro waker source polled absent
    rw [polls] at polled
    obtain ⟨at_fd, held⟩ := Option.ne_none_iff_exists'.mp (requests.polled waker source polled)
    rw [fd source at_fd held] at absent
    cases absent
  · intro at_fd waker member
    rw [queue] at member
    obtain ⟨source, polled, held⟩ := requests.queued at_fd waker member
    exact ⟨source, by rw [polls, polled], holds at_fd waker source member polled held⟩
  · intro at_fd waker waits
    rw [wakers] at waits
    obtain ⟨source, polled, held⟩ := requests.waking at_fd waker waits
    exact ⟨source, by rw [polls, polled], fd source at_fd held⟩
  · intro at_fd waker member
    rw [same] at member
    exact (latest waker).mpr (requests.latest at_fd waker member)
  · intro at_fd
    rw [same]
    exact (requests.ordered at_fd).congr fun waker _ => (awaited waker).symm
  · intro waker last waits
    simp only [same, channel]
    exact requests.kept waker ((latest waker).mp last) ((awaited waker).mp waits)

theorem add (requests : Requests state) (new : Source) (fds : RawFd → Option File) (refs : File → Nat) :
    Requests (state.add new fds refs) := by
  refine requests.keep rfl rfl rfl rfl (fun source fd at_fd => (old_add at_fd).1) ?_ ?_
  · intro source held
    obtain ⟨fd, at_fd⟩ := Option.ne_none_iff_exists'.mp held
    rw [(old_add at_fd).2]
  · intro fd waker source _ _ opened
    obtain ⟨at_fd, unclosed⟩ := opened
    exact ⟨(old_add at_fd).1, by rwa [(old_add at_fd).2]⟩

/-- The descriptor is closed when none of the requests in the queue is for the source. -/
theorem close (requests : Requests state) {source : Nat} {fd : RawFd} (at_fd : state.fd source = some fd)
    (dropped : state.life source = some .dropped) (unqueued : state.outstanding source (state.queued fd) = false)
    {io : IoMultiplexing.State} (queue : io.queue = state.io.queue) (wakers : io.wakers = state.io.wakers)
    (channel : io.channel = state.io.channel) : Requests (State.setLife { state with io } source .closed) := by
  refine requests.keep queue wakers channel rfl (fun other fd held => fd_setLife.trans held) ?_ ?_
  · intro other _
    rw [life_setLife dropped]
    split
    next same => simp [same, dropped]
    next => exact Iff.rfl
  · intro other_fd waker other member polled opened
    obtain ⟨held, unclosed⟩ := opened
    have different : other ≠ source := by
      intro same
      subst same
      rw [at_fd] at held
      cases held
      exact not_outstanding unqueued (mem_queued.mpr member) polled
    refine ⟨fd_setLife.trans held, ?_⟩
    rw [life_setLife dropped, if_neg different]
    exact unclosed

theorem drop_writer (requests : Requests state) (source : Nat) {io : IoMultiplexing.State} (queue : io.queue = state.io.queue)
    (wakers : io.wakers = state.io.wakers) (channel : io.channel = state.io.channel) :
    Requests (State.dropWriter { state with io } source) := by
  refine requests.keep queue wakers channel rfl (fun other at_fd held => fd_dropWriter.trans held) ?_ ?_
  · intro other _
    rw [life_dropWriter]
  · intro at_fd waker other _ _ opened
    obtain ⟨held, unclosed⟩ := opened
    exact ⟨fd_dropWriter.trans held, fun closed => unclosed (life_dropWriter.symm.trans closed)⟩

/-- A source is polled when no request is for it. -/
theorem pending (requests : Requests state) (tables : Descriptors state) {source : Nat} {fd : RawFd}
    (at_fd : state.fd source = some fd) (alive : state.life source = some .alive)
    (free : state.outstanding source (state.requests fd) = false) :
    Requests (state.push (.ADD fd state.polls.length) (state.polls ++ [source]) source) := by
  have old : ∀ {waker known : Nat}, state.polls[waker]? = some known → (state.polls ++ [source])[waker]? = some known := by
    intro waker known polled
    rw [List.getElem?_append_left (List.getElem?_eq_some_iff.mp polled).1, polled]
  have last : (state.polls ++ [source])[state.polls.length]? = some source := by simp
  have either : ∀ {waker known : Nat}, (state.polls ++ [source])[waker]? = some known →
      state.polls[waker]? = some known ∨ waker = state.polls.length ∧ source = known := by
    intro waker known polled
    rw [List.getElem?_append] at polled
    split at polled
    next => exact .inl polled
    next outside =>
      obtain ⟨first, same⟩ := singleton_getElem?.mp polled
      exact .inr ⟨by omega, same⟩
  have foreign : ∀ {other waker : Nat}, some waker ∈ state.requests other → state.polls[waker]? ≠ some source := by
    intro other waker member polled
    obtain ⟨_, also, at_other⟩ := requests.known member
    rw [polled] at also
    cases also
    rw [at_fd] at at_other
    cases at_other
    exact not_outstanding free member polled
  have awaited : ∀ {other waker : Nat}, some waker ∈ state.requests other → (state.awaited waker ↔
      (state.push (.ADD fd state.polls.length) (state.polls ++ [source]) source).awaited waker) := by
    intro other waker member
    obtain ⟨known, polled, _⟩ := requests.known member
    simp only [State.awaited, State.push, polled, old polled]
    exact Iff.rfl
  have own : (about fd (.ADD fd state.polls.length)).toList = [some state.polls.length] := by simp [about]
  refine ⟨?_, ?_, ?_, ?_, ?_, ?_⟩
  · intro waker known polled
    rcases either polled with before | ⟨_, rfl⟩
    · exact requests.polled waker known before
    · show state.fd source ≠ none
      simp [at_fd]
  · intro other waker member
    rcases List.mem_append.mp member with before | new
    · obtain ⟨known, polled, held⟩ := requests.queued other waker before
      exact ⟨known, old polled, held⟩
    · cases List.mem_singleton.mp new
      refine ⟨source, last, at_fd, ?_⟩
      show state.life source ≠ some .closed
      simp [alive]
  · intro other waker waits
    obtain ⟨known, polled, held⟩ := requests.waking other waker waits
    exact ⟨known, old polled, held⟩
  · intro other waker member
    rw [requests_push] at member
    rcases List.mem_append.mp member with before | new
    · obtain ⟨known, polled, latest⟩ := requests.latest other waker before
      refine ⟨known, old polled, fun later also => ?_⟩
      rcases either also with earlier | ⟨_, rfl⟩
      · exact latest later earlier
      · exact absurd polled (foreign before)
    · simp only [about, Option.mem_toList, Option.ite_none_right_eq_some, Option.some.injEq] at new
      obtain ⟨_, rfl⟩ := new
      refine ⟨source, last, fun later also => ?_⟩
      have inside := (List.getElem?_eq_some_iff.mp also).1
      simp only [State.push, List.length_append, List.length_singleton] at inside
      omega
  · intro other
    have ordered := (requests.ordered other).congr fun waker member => awaited member
    rw [requests_push]
    by_cases same : fd = other
    · subst same
      rw [own]
      refine ordered.register (fun waker member waits => ?_) ⟨source, last, alive⟩
      obtain ⟨known, polled, running⟩ := (awaited member).mpr waits
      obtain ⟨_, also, at_known⟩ := requests.known member
      rw [polled] at also
      cases also
      have held : state.holds known fd := ⟨at_known, by simp [running]⟩
      have same := tables.unique held ⟨at_fd, by simp [alive]⟩
      exact foreign member (same ▸ polled)
    · simpa [about, same] using ordered
  · intro waker latest waits
    obtain ⟨known, polled, least⟩ := latest
    simp only [requests_push, List.mem_append]
    rcases either polled with before | ⟨rfl, rfl⟩
    · have earlier : state.latest waker := ⟨known, before, fun later also => least later (old also)⟩
      obtain ⟨also, repolled, running⟩ := waits
      have same := polled.symm.trans repolled
      cases same
      exact (requests.kept waker earlier ⟨known, before, running⟩).imp_right fun waiting =>
        waiting.imp fun fd member => .inl member
    · exact .inr ⟨fd, .inr (by rw [own]; exact List.mem_singleton_self _)⟩

/-- The source is dropped, and its registration, if it has one, gets an end. -/
theorem unregister (requests : Requests state) (tables : Descriptors state) {source : Nat} {fd : RawFd}
    (at_fd : state.fd source = some fd) (alive : state.life source = some .alive) :
    Requests ((state.push (.REMOVE fd) state.polls source).setLife source .dropped) := by
  have same_fd : ∀ other, ((state.push (.REMOVE fd) state.polls source).setLife source .dropped).fd other = state.fd other :=
    fun _ => fd_setLife
  have life : ∀ other, ((state.push (.REMOVE fd) state.polls source).setLife source .dropped).life other =
      if other = source then some .dropped else state.life other := fun _ => life_setLife alive
  have pushed : ∀ other, ((state.push (.REMOVE fd) state.polls source).setLife source .dropped).requests other =
      state.requests other ++ (about other (.REMOVE fd)).toList :=
    fun other => @requests_push state (.REMOVE fd) state.polls source other
  have stays : ∀ {waker}, ((state.push (.REMOVE fd) state.polls source).setLife source .dropped).awaited waker ↔
      state.awaited waker ∧ state.polls[waker]? ≠ some source := by
    intro waker
    simp only [State.awaited, life]
    constructor
    · intro waits
      obtain ⟨known, polled, running⟩ := waits
      split at running
      next => cases running
      next different => exact ⟨⟨known, polled, running⟩, fun also => different (by simpa using polled.symm.trans also)⟩
    · intro waits
      obtain ⟨⟨known, polled, running⟩, different⟩ := waits
      refine ⟨known, polled, ?_⟩
      rw [if_neg]
      · exact running
      · intro same
        subst same
        exact different polled
  refine ⟨?_, ?_, ?_, ?_, ?_, ?_⟩
  · intro waker known polled
    rw [same_fd]
    exact requests.polled waker known polled
  · intro other waker member
    rcases List.mem_append.mp member with before | new
    · obtain ⟨known, polled, held, unclosed⟩ := requests.queued other waker before
      refine ⟨known, polled, (same_fd known).trans held, ?_⟩
      rw [life]
      split
      · simp
      · exact unclosed
    · cases List.mem_singleton.mp new
  · intro other waker waits
    obtain ⟨known, polled, held⟩ := requests.waking other waker waits
    exact ⟨known, polled, (same_fd known).trans held⟩
  · intro other waker member
    rw [pushed] at member
    rcases List.mem_append.mp member with before | new
    · exact requests.latest other waker before
    · simp [about] at new
  · intro other
    rw [pushed]
    by_cases same : fd = other
    · subst same
      rw [show (about fd (.REMOVE fd)).toList = [none] by simp [about]]
      refine (requests.ordered fd).unregister fun waker member waits => ?_
      obtain ⟨⟨known, polled, running⟩, different⟩ := stays.mp waits
      obtain ⟨_, also, at_known⟩ := requests.known member
      rw [polled] at also
      cases also
      have held : state.holds known fd := ⟨at_known, by simp [running]⟩
      have same := tables.unique held ⟨at_fd, by simp [alive]⟩
      exact different (same ▸ polled)
    · have foreign : ∀ {waker : Nat}, some waker ∈ state.requests other → state.polls[waker]? ≠ some source := by
        intro waker member polled
        obtain ⟨_, also, at_known⟩ := requests.known member
        rw [polled] at also
        cases also
        rw [at_fd] at at_known
        exact same (by simpa using at_known)
      have ordered := (requests.ordered other).congr fun waker member =>
        ⟨fun waits => stays.mpr ⟨waits, foreign member⟩, fun waits => (stays.mp waits).1⟩
      simpa [about, same] using ordered
  · intro waker latest waits
    simp only [pushed, List.mem_append]
    exact (requests.kept waker latest (stays.mp waits).1).imp_right fun waiting => waiting.imp fun fd member => .inl member

/-- The selector takes requests from the front, and the wakers that are gone
were woken or belong to sources that are dropped. -/
theorem taken (requests : Requests state) {io : IoMultiplexing.State} (queue : ∀ op ∈ io.queue, op ∈ state.io.queue)
    (channel : ∀ waker ∈ state.io.channel, waker ∈ io.channel)
    (suffix : ∀ fd, State.requests { state with io } fd <:+ state.requests fd)
    (gone : ∀ fd waker, some waker ∈ state.requests fd → state.awaited waker →
      some waker ∈ State.requests { state with io } fd ∨ waker ∈ io.channel) : Requests { state with io } := by
  refine ⟨requests.polled, ?_, ?_, ?_, ?_, ?_⟩
  · exact fun fd waker member => requests.queued fd waker (queue _ member)
  · exact fun fd waker waits => requests.known ((suffix fd).subset (mem_requests.mpr (.inl waits)))
  · exact fun fd waker member => requests.latest fd waker ((suffix fd).subset member)
  · exact fun fd => (requests.ordered fd).suffix (suffix fd)
  · intro waker latest waits
    rcases requests.kept waker latest waits with woken | ⟨fd, member⟩
    · exact .inl (channel waker woken)
    · rcases gone fd waker member waits with member | woken
      · exact .inr ⟨fd, member⟩
      · exact .inl woken

theorem wake (requests : Requests state) {fd : RawFd} {waker : Nat} (waits : state.io.wakers[fd]? = some waker)
    {select : IoMultiplexing.Select} :
    Requests { state with
      io.wakers := state.io.wakers.erase fd
      io.channel := state.io.channel ++ [waker]
      io.select := select } := by
  have own : state.requests fd = some waker :: state.queued fd := by simp [State.requests, waits]
  have others : ∀ other, State.requests { state with
      io.wakers := state.io.wakers.erase fd, io.channel := state.io.channel ++ [waker], io.select := select } other =
      if fd = other then state.queued fd else state.requests other := by
    intro other
    simp only [State.requests, State.queued, HashMap.get_erase]
    split
    next same => simp [same]
    next => rfl
  refine requests.taken (fun _ member => member) (fun _ member => List.mem_append_left _ member) ?_ ?_
  · intro other
    rw [others]
    split
    next same => rw [← same, own]; exact List.suffix_cons ..
    next => exact List.suffix_refl _
  · intro other also member _
    rw [others]
    split
    next same =>
      rw [← same, own] at member
      rcases List.mem_cons.mp member with first | later
      · cases first
        exact .inr (List.mem_append_right _ (List.mem_singleton_self _))
      · exact .inl later
    next => exact .inl member

/-- The `assert` of `add_event` holds. -/
theorem absent (requests : Requests state) {fd : RawFd} {waker : Nat} {queue : List IOOps}
    (front : state.io.queue = .ADD fd waker :: queue) : state.io.wakers[fd]? = none := by
  cases waits : state.io.wakers[fd]? with
  | none => rfl
  | some first =>
    have ordered := requests.ordered fd
    rw [State.requests, State.queued, front, waits] at ordered
    simp only [Option.toList_some, List.map_cons, List.map_nil, List.filterMap_cons, about, if_true, List.cons_append,
      List.nil_append] at ordered
    exact ordered.single.elim

theorem add_event (requests : Requests state) {fd : RawFd} {waker : Nat} {queue : List IOOps}
    (front : state.io.queue = .ADD fd waker :: queue) {interest : RawFd → File → Option Bool} :
    Requests { state with
      io.queue := queue
      io.interest := interest
      io.wakers := state.io.wakers.insert fd waker } := by
  have absent := requests.absent front
  have same : ∀ other, State.requests { state with
      io.queue := queue, io.interest := interest, io.wakers := state.io.wakers.insert fd waker } other =
      state.requests other := by
    intro other
    simp only [State.requests, State.queued, HashMap.get_insert, front, List.filterMap_cons, about]
    split
    next own => simp [← own, absent]
    next => rfl
  refine requests.taken ?_ (fun _ member => member) (fun other => same other ▸ List.suffix_refl _) (fun other also member _ => ?_)
  · intro op member
    rw [front]
    exact List.mem_cons_of_mem _ member
  · rw [same]
    exact .inl member

theorem rm_event (requests : Requests state) {fd : RawFd} {queue : List IOOps} (front : state.io.queue = .REMOVE fd :: queue)
    {interest : RawFd → File → Option Bool} :
    Requests { state with
      io.queue := queue
      io.interest := interest
      io.wakers := state.io.wakers.erase fd } := by
  have own : state.requests fd = state.io.wakers[fd]?.toList.map some ++ none :: queue.filterMap (about fd) := by
    simp [State.requests, State.queued, front, about]
  have others : ∀ other, State.requests { state with
      io.queue := queue, io.interest := interest, io.wakers := state.io.wakers.erase fd } other =
      if fd = other then queue.filterMap (about fd) else state.requests other := by
    intro other
    simp only [State.requests, State.queued, HashMap.get_erase, front, List.filterMap_cons, about]
    split
    next same => simp [same]
    next => rfl
  refine requests.taken ?_ (fun _ member => member) ?_ ?_
  · intro op member
    rw [front]
    exact List.mem_cons_of_mem _ member
  · intro other
    rw [others]
    split
    next same =>
      rw [← same, own]
      exact (List.suffix_cons ..).trans (List.suffix_append ..)
    next => exact List.suffix_refl _
  · intro other waker member waits
    rw [others]
    split
    next same =>
      rw [← same, own] at member
      simp only [List.mem_append, List.mem_map, Option.mem_toList, List.mem_cons, reduceCtorEq, false_or,
        Option.some.injEq, exists_eq_right] at member
      rcases member with first | later
      · have ordered := requests.ordered fd
        rw [own, first] at ordered
        exact absurd waits ordered.ended
      · exact .inl later
    next => exact .inl member

end Requests

end RustAsyncAwait.IoSelector
