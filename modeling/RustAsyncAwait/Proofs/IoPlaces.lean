import RustAsyncAwait.Proofs.IoSteps
import Mathlib.Data.List.Nodup

/-! Where the tasks of the server are. A task that waits is in one place, under
a descriptor that is its own, whatever numbers have been in use before. -/

namespace RustAsyncAwait.IoMultiplexing
open Library State

def IOOps.adds (task : Nat) : IOOps → Bool
  | .ADD _ other => other == task
  | .REMOVE _ => false

/-- The running poll has pushed its `ADD`. -/
def Control.registered : Control → Bool
  | .leave _ effects .pending => decide (effects.length < 2)
  | _ => false

/-- In how many places a task is. -/
def Status.places (registered : Bool) : Status → Nat
  | .spawned | .pending => 1
  | .polling => if registered then 1 else 0
  | .ready => 0

def Select.batch : Select → List RawFd
  | .events batch | .drain batch => batch
  | .epoll_wait | .panicked => []

/-- Epoll has disarmed what it reports. -/
theorem still_armed {interest : RawFd → File → Option Bool} {ready : List (RawFd × File)} {fd : RawFd} {file : File}
    (armed : (if (fd, file) ∈ ready then (interest fd file).map fun _ => false else interest fd file) = some true) :
    (fd, file) ∉ ready ∧ interest fd file = some true := by
  split at armed
  next => simp at armed
  next outside => exact ⟨outside, armed⟩

theorem ready_nodup {ready : List (RawFd × File)} (distinct : ready.Nodup)
    (unique : ∀ fd one two, (fd, one) ∈ ready → (fd, two) ∈ ready → one = two) : (ready.map Prod.fst).Nodup := by
  apply List.Nodup.map_on _ distinct
  intro first inside second also same
  obtain ⟨fd, one⟩ := first
  obtain ⟨_, two⟩ := second
  cases same
  rw [unique fd one two inside also]

/-- How often a task that waits for `fd` is in the queue, the wakers and the channel. -/
def State.places (state : State) (task : Nat) (fd : RawFd) : Nat :=
  state.queue.countP (·.adds task) + (if state.wakers[fd]? = some task then 1 else 0) + state.channel.count task

structure Placed (state : State) : Prop where
  owned : state.Owned
  places : ∀ (task : Nat) (found : Task), state.tasks[task]? = some found →
    state.places task found.fd = found.status.places state.control.registered
  queued : ∀ fd (task : Nat), .ADD fd task ∈ state.queue → ∃ found, state.tasks[task]? = some found ∧ found.fd = fd
  waking : ∀ fd (task : Nat), state.wakers[fd]? = some task → ∃ found, state.tasks[task]? = some found ∧ found.fd = fd
  channel : ∀ task ∈ state.channel, task < state.tasks.length
  order : state.queue.Pairwise fun first later => ∀ fd task, first = .ADD fd task → later ≠ .REMOVE fd
  removed : ∀ fd, .REMOVE fd ∈ state.queue → state.wakers[fd]? = none
  armed : ∀ fd file, state.interest fd file = some true → ∃ task, file = .socket task ∧ state.wakers[fd]? = some task
  reported : ∀ fd task, state.wakers[fd]? = some task →
    state.interest fd (.socket task) = some true ∨ fd ∈ state.select.batch
  batch : ∀ fd ∈ state.select.batch, fd = event ∨ ∃ task, state.wakers[fd]? = some task
  disarmed : ∀ fd ∈ state.select.batch, ∀ file, state.interest fd file ≠ some true
  nodup : state.select.batch.Nodup
  counter : state.lock = none → state.queue ≠ [] → state.counter ≠ 0
  drains : ∀ batch, state.select = .drain batch → state.lock = some .select
  writes : ∀ task effects result, state.control = .leave task (.write_eventfd :: effects) result →
    state.lock = some .executor
  alive : state.select ≠ .panicked

namespace Placed
variable {state : State}

theorem queued_fd (placed : Placed state) {task : Nat} {found : Task} {fd : RawFd} (at_task : state.tasks[task]? = some found)
    (member : .ADD fd task ∈ state.queue) : fd = found.fd := by
  obtain ⟨known, at_known, rfl⟩ := placed.queued fd task member
  rw [at_task] at at_known
  cases at_known
  rfl

theorem waking_fd (placed : Placed state) {task : Nat} {found : Task} {fd : RawFd} (at_task : state.tasks[task]? = some found)
    (waker : state.wakers[fd]? = some task) : fd = found.fd := by
  obtain ⟨known, at_known, rfl⟩ := placed.waking fd task waker
  rw [at_task] at at_known
  cases at_known
  rfl

/-- What is in some place has its descriptor open. -/
theorem holds (placed : Placed state) {task : Nat} {found : Task} (at_task : state.tasks[task]? = some found)
    (somewhere : 0 < state.places task found.fd) : state.fds found.fd = some (.socket task) := by
  rw [placed.places task found at_task] at somewhere
  refine (placed.owned.opened task found at_task ?_ ?_).1
  · intro ready
    simp [ready, Status.places] at somewhere
  · intro drops
    obtain ⟨effects, leaving⟩ := drops
    have polled := placed.owned.running (by rw [leaving]; rfl) at_task
    simp [polled, leaving, Status.places, Control.registered] at somewhere

theorem queued_holds (placed : Placed state) {fd : RawFd} {task : Nat} (member : .ADD fd task ∈ state.queue) :
    state.fds fd = some (.socket task) := by
  obtain ⟨found, at_task, rfl⟩ := placed.queued fd task member
  apply placed.holds at_task
  have counted : 0 < state.queue.countP (·.adds task) := List.countP_pos_iff.mpr ⟨_, member, by simp [IOOps.adds]⟩
  unfold State.places
  omega

theorem waking_holds (placed : Placed state) {fd : RawFd} {task : Nat} (waker : state.wakers[fd]? = some task) :
    state.fds fd = some (.socket task) := by
  obtain ⟨found, at_task, rfl⟩ := placed.waking fd task waker
  apply placed.holds at_task
  unfold State.places
  rw [if_pos waker]
  omega

theorem event_unused (placed : Placed state) (task : Nat) : state.wakers[event]? ≠ some task := by
  intro waker
  have holds := placed.waking_holds waker
  rw [placed.owned.event] at holds
  cases holds

theorem unready (placed : Placed state) : ∀ task ∈ state.channel, ∃ old, state.tasks[task]? = some old ∧ old.status ≠ .ready := by
  intro task member
  obtain ⟨found, at_task⟩ := Option.isSome_iff_exists.mp (by
    rw [List.getElem?_eq_getElem (placed.channel task member)]
    rfl : state.tasks[task]?.isSome = true)
  refine ⟨found, at_task, fun ready => ?_⟩
  have places := placed.places task found at_task
  have counted : 0 < state.channel.count task := List.count_pos_iff.mpr member
  simp only [ready, Status.places, State.places] at places
  omega

/-- Only the place of the polled task depends on the control. -/
private theorem places_same {status : Status} {one other : Bool} (unpolled : status ≠ .polling) :
    status.places one = status.places other := by
  cases status <;> simp [Status.places] at unpolled ⊢

theorem places_le (status : Status) (registered : Bool) : status.places registered ≤ 1 := by
  cases status <;> cases registered <;> simp [Status.places]

theorem unpolled (placed : Placed state) {task other : Nat} {found : Task} (at_found : state.tasks[other]? = some found)
    (held : ∀ running, state.control.task = some running → running = task) (different : other ≠ task) :
    found.status ≠ .polling := fun polling => different (held other (placed.owned.polling other found at_found polling))

private theorem setStatus_fd {task other : Nat} {status : Status} {fd : RawFd}
    (waits : ∃ found, state.tasks[other]? = some found ∧ found.fd = fd) :
    ∃ found, (state.setStatus task status).tasks[other]? = some found ∧ found.fd = fd := by
  obtain ⟨found, at_found, same⟩ := waits
  exact ⟨_, setStatus_at.mpr ⟨found, at_found, rfl⟩, by split <;> exact same⟩

theorem recv (placed : Placed state) {task : Nat} {rest : List Nat} (control : state.control = .recv)
    (head : state.channel = task :: rest) :
    Placed { state.setStatus task .polling with channel := rest, control := .poll task } := by
  have owned := owned_step placed.owned placed.unready (.recv control head)
  refine { placed with owned := owned, places := ?_, queued := ?_, waking := ?_, channel := ?_, writes := ?_ }
  · intro other found at_found
    obtain ⟨old, at_old, rfl⟩ := setStatus_at.mp at_found
    have before := placed.places other old at_old
    simp only [State.places, head, control, Control.registered] at before
    by_cases same : other = task
    · subst same
      have bound := places_le old.status false
      simp only [State.places, State.setStatus, if_true, Control.registered, Status.places, Bool.false_eq_true, if_false]
      rw [List.count_cons_self] at before
      omega
    · rw [if_neg same]
      simp only [State.places]
      rw [List.count_cons_of_ne (Ne.symm same)] at before
      exact before
  · exact fun fd other member => setStatus_fd (placed.queued fd other member)
  · exact fun fd other waker => setStatus_fd (placed.waking fd other waker)
  · intro other member
    have inside := placed.channel other (by rw [head]; exact List.mem_cons_of_mem _ member)
    simpa [State.setStatus] using inside
  · intro other effects result same
    cases same

theorem returned (placed : Placed state) {task : Nat} {result : Status} (control : state.control = .leave task [] result) :
    Placed { state.setStatus task result with control := .recv } := by
  have owned := owned_step placed.owned placed.unready (.returned control)
  refine { placed with owned := owned, places := ?_, queued := ?_, waking := ?_, channel := ?_, writes := ?_ }
  · intro other found at_found
    obtain ⟨old, at_old, rfl⟩ := setStatus_at.mp at_found
    have before := placed.places other old at_old
    rw [control] at before
    show state.places other _ = _
    by_cases same : other = task
    · subst same
      have polled := placed.owned.running (by rw [control]; rfl) at_old
      rw [if_pos rfl]
      rw [polled] at before
      rcases placed.owned.leaves other [] result control with rfl | rfl <;> exact before
    · rw [if_neg same, before]
      apply places_same
      apply placed.unpolled at_old _ same
      intro running held
      rw [control] at held
      cases held
      rfl
  · exact fun fd other member => setStatus_fd (placed.queued fd other member)
  · exact fun fd other waker => setStatus_fd (placed.waking fd other waker)
  · intro other member
    simpa [State.setStatus] using placed.channel other member
  · intro other effects outcome same
    cases same

theorem accept (placed : Placed state) {writer reader : RawFd} (control : state.control = .poll 0)
    (free : state.fds writer = none) (also : state.fds reader = none) (different : writer ≠ reader) :
    Placed { state with
      fds := Function.update (Function.update state.fds writer (some (.socket state.tasks.length))) reader
        (some (.socket state.tasks.length))
      refs := Function.update state.refs (.socket state.tasks.length) 2
      tasks := state.tasks ++ [⟨reader, some writer, .spawned⟩]
      channel := state.channel ++ [state.tasks.length] } := by
  have owned := owned_step placed.owned placed.unready (.accept control free also different)
  have old : ∀ {task : Nat} {found : Task}, state.tasks[task]? = some found → task < state.tasks.length := by
    intro task found at_found
    exact (List.getElem?_eq_some_iff.mp at_found).1
  refine { placed with owned := owned, places := ?_, queued := ?_, waking := ?_, channel := ?_ }
  · intro task found at_found
    simp only [State.places]
    rcases snoc_at.mp at_found with before | ⟨rfl, rfl⟩
    · have same := placed.places task found before
      have alone : [state.tasks.length].count task = 0 :=
        List.count_eq_zero.mpr (by simpa using Nat.ne_of_lt (old before))
      rw [List.count_append, alone, Nat.add_zero]
      exact same
    · have unqueued : state.queue.countP (·.adds state.tasks.length) = 0 := by
        apply List.countP_eq_zero.mpr
        intro op member adds
        cases op with
        | REMOVE fd => cases adds
        | ADD fd task =>
          have same : task = state.tasks.length := by simpa [IOOps.adds] using adds
          obtain ⟨found, at_task, _⟩ := placed.queued fd task member
          exact absurd (old at_task) (by omega)
      have unkept : state.wakers[reader]? ≠ some state.tasks.length := by
        intro waker
        obtain ⟨found, at_task, _⟩ := placed.waking reader _ waker
        exact absurd (old at_task) (Nat.lt_irrefl _)
      have unsent : state.channel.count state.tasks.length = 0 :=
        List.count_eq_zero.mpr fun member => Nat.lt_irrefl _ (placed.channel _ member)
      rw [unqueued, if_neg unkept, List.count_append, unsent]
      simp [Status.places]
  · intro fd task member
    obtain ⟨found, at_task, same⟩ := placed.queued fd task member
    exact ⟨found, snoc_at.mpr (.inl at_task), same⟩
  · intro fd task waker
    obtain ⟨found, at_task, same⟩ := placed.waking fd task waker
    exact ⟨found, snoc_at.mpr (.inl at_task), same⟩
  · intro task member
    rw [List.length_append, List.length_singleton]
    rcases List.mem_append.mp member with before | new
    · exact Nat.lt_succ_of_lt (placed.channel task before)
    · rw [List.mem_singleton.mp new]
      exact Nat.lt_succ_self _

/-- A poll ends: the effects it leaves with have not begun. -/
private theorem leave (placed : Placed state) {task : Nat} {effects : List Effect} {result : Status}
    (control : state.control = .poll task) (owned : Owners state.fds state.tasks (.leave task effects result))
    (long : 2 ≤ effects.length) (unwritten : ∀ rest, effects ≠ .write_eventfd :: rest) :
    Placed { state with control := .leave task effects result } := by
  have unregistered : (Control.leave task effects result).registered = false := by
    cases result with
    | pending => exact decide_eq_false (Nat.not_lt_of_le long)
    | spawned | polling | ready => rfl
  refine { placed with owned := owned, places := ?_, writes := ?_ }
  · intro other found at_found
    rw [unregistered]
    have before := placed.places other found at_found
    rw [control] at before
    exact before
  · intro other rest outcome same
    cases same
    exact absurd rfl (unwritten rest)

theorem block (placed : Placed state) {task : Nat} {found : Task} (control : state.control = .poll task)
    (at_task : state.tasks[task]? = some found) :
    Placed { state with control := .leave task [.push (.ADD found.fd task), .write_eventfd] .pending } :=
  placed.leave control (owned_step placed.owned placed.unready (.block control at_task)) (by simp) (by simp)

theorem finish (placed : Placed state) {task : Nat} {found : Task} {writer : RawFd} {writer_first : Bool}
    (control : state.control = .poll task) (at_task : state.tasks[task]? = some found)
    (connection : found.writer = some writer) :
    Placed { state with control := .leave task (dropped found.fd writer writer_first) .ready } :=
  placed.leave control (owned_step placed.owned placed.unready (.finish control at_task connection))
    (by cases writer_first <;> simp [dropped]) (by cases writer_first <;> simp [dropped])

/-- What the effects of a poll still to come look like from their first on. -/
theorem effects_shape (owned : state.Owned) {task : Nat} {effect : Effect} {effects : List Effect} {result : Status}
    (control : state.control = .leave task (effect :: effects) result) :
    ∃ found, state.tasks[task]? = some found ∧ match effect with
      | .push op => effects.head? = some .write_eventfd ∧
          (result = .pending ∧ effects.length = 1 ∧ op = .ADD found.fd task ∨
            result = .ready ∧ op = .REMOVE found.fd ∧ .close found.fd ∈ effects)
      | .write_eventfd => effects.head? ≠ some .write_eventfd ∧ (result = .pending → effects = [])
      | .close _ => effects.head? ≠ some .write_eventfd ∧ result = .ready := by
  rcases owned.leaves task _ result control with rfl | rfl
  · obtain ⟨found, at_task, suffix⟩ := owned.pending task _ control
    refine ⟨found, at_task, ?_⟩
    simp only [List.suffix_cons_iff, List.cons.injEq, List.suffix_nil, reduceCtorEq, or_false] at suffix
    rcases suffix with ⟨rfl, rfl⟩ | ⟨rfl, rfl⟩ <;> simp
  · obtain ⟨found, writer, writer_first, at_task, _, suffix, _⟩ := owned.ready task _ control
    refine ⟨found, at_task, ?_⟩
    cases writer_first <;>
      simp only [dropped, if_true, Bool.false_eq_true, if_false, List.cons_append, List.nil_append, List.suffix_cons_iff,
        List.cons.injEq, List.suffix_nil, reduceCtorEq, or_false] at suffix <;>
      rcases suffix with ⟨rfl, rfl⟩ | ⟨rfl, rfl⟩ | ⟨rfl, rfl⟩ | ⟨rfl, rfl⟩ <;> simp

/-- The thread goes on with its effects, and no task has moved. -/
private theorem places_effect (placed : Placed state) {task : Nat} {effect : Effect} {effects : List Effect} {result : Status}
    (control : state.control = .leave task (effect :: effects) result)
    (same : (Control.leave task effects result).registered = (Control.leave task (effect :: effects) result).registered)
    (other : Nat) (found : Task) (at_found : state.tasks[other]? = some found) :
    state.places other found.fd = found.status.places (Control.leave task effects result).registered := by
  rw [same, ← control]
  exact placed.places other found at_found

/-- A task whose last poll is ending is nowhere any more. -/
theorem dropped_absent (placed : Placed state) {task : Nat} (drops : state.control.drops task) :
    (∀ fd : RawFd, state.wakers[fd]? ≠ some task) ∧ ∀ fd, .ADD fd task ∉ state.queue := by
  obtain ⟨effects, leaving⟩ := drops
  obtain ⟨known, at_known, polled⟩ := placed.owned.polled task (by rw [leaving]; rfl)
  have nowhere := placed.places task known at_known
  rw [polled, leaving] at nowhere
  simp only [State.places, Status.places, Control.registered, Bool.false_eq_true, if_false] at nowhere
  constructor
  · intro fd waker
    rw [← placed.waking_fd at_known waker, if_pos waker] at nowhere
    omega
  · intro fd member
    have counted : 0 < state.queue.countP (·.adds task) := List.countP_pos_iff.mpr ⟨_, member, by simp [IOOps.adds]⟩
    omega

/-- Nobody waits for a descriptor that is about to be closed. -/
theorem closing_unused (placed : Placed state) {task : Nat} {effects : List Effect} {fd : RawFd}
    (control : state.control = .leave task effects .ready) (closing : .close fd ∈ effects) :
    state.wakers[fd]? = none ∧ ∀ other, .ADD fd other ∉ state.queue := by
  obtain ⟨_, _, _, _, _, _, is_open⟩ := placed.owned.ready task effects control
  obtain ⟨unwoken, unqueued⟩ := placed.dropped_absent ⟨effects, control⟩
  constructor
  · cases waker : state.wakers[fd]? with
    | none => rfl
    | some other =>
      have holds := placed.waking_holds waker
      rw [is_open fd closing] at holds
      cases holds
      exact absurd waker (unwoken fd)
  · intro other member
    have holds := placed.queued_holds member
    rw [is_open fd closing] at holds
    cases holds
    exact unqueued fd member

theorem push (placed : Placed state) {task : Nat} {op : IOOps} {effects : List Effect} {result : Status}
    (control : state.control = .leave task (.push op :: effects) result) (unlocked : state.lock = none) :
    Placed { state with
      queue := state.queue ++ [op], lock := some .executor, control := .leave task effects result } := by
  have owned := owned_step placed.owned placed.unready (.push control unlocked)
  obtain ⟨found, at_task, _, shape⟩ := effects_shape placed.owned control
  have polled := placed.owned.running (by rw [control]; rfl) at_task
  refine { placed with
    owned := owned, places := ?_, queued := ?_, order := ?_, removed := ?_, counter := ?_, drains := ?_, writes := ?_ }
  · intro other item at_item
    have before := placed.places other item at_item
    simp only [State.places]
    rw [List.countP_append]
    rw [control] at before
    rcases shape with ⟨rfl, length, rfl⟩ | ⟨rfl, rfl, _⟩
    · have old : (Control.leave task (.push (.ADD found.fd task) :: effects) .pending).registered = false := by
        simp [Control.registered, length]
      have new : (Control.leave task effects .pending).registered = true := by simp [Control.registered, length]
      rw [old] at before
      rw [new]
      by_cases same : other = task
      · subst same
        rw [at_task] at at_item
        cases at_item
        rw [polled] at before ⊢
        have one : [IOOps.ADD found.fd other].countP (·.adds other) = 1 := by simp [IOOps.adds]
        simp only [State.places, Status.places, Bool.false_eq_true, if_false] at before
        rw [one, Status.places, if_pos rfl]
        omega
      · have unpolled := placed.unpolled at_item (fun running held => by rw [control] at held; cases held; rfl) same
        rw [places_same unpolled] at before
        have none : [IOOps.ADD found.fd task].countP (·.adds other) = 0 := by simp [IOOps.adds, Ne.symm same]
        rw [none, Nat.add_zero]
        exact before
    · exact before
  · intro fd other member
    rcases List.mem_append.mp member with before | new
    · exact placed.queued fd other before
    · rcases shape with ⟨_, _, rfl⟩ | ⟨_, rfl, _⟩
      · cases List.mem_singleton.mp new
        exact ⟨found, at_task, rfl⟩
      · cases List.mem_singleton.mp new
  · rw [List.pairwise_append]
    refine ⟨placed.order, List.pairwise_singleton _ _, ?_⟩
    intro first member last new fd other same
    rw [List.mem_singleton.mp new]
    rcases shape with ⟨_, _, rfl⟩ | ⟨rfl, rfl, closing⟩
    · simp
    · intro removes
      cases removes
      rw [same] at member
      exact (placed.closing_unused control (List.mem_cons_of_mem _ closing)).2 other member
  · intro fd member
    rcases List.mem_append.mp member with before | new
    · exact placed.removed fd before
    · rcases shape with ⟨_, _, rfl⟩ | ⟨rfl, rfl, closing⟩
      · cases List.mem_singleton.mp new
      · cases List.mem_singleton.mp new
        exact (placed.closing_unused control (List.mem_cons_of_mem _ closing)).1
  · intro same
    cases same
  · intro batch draining
    have locked := placed.drains batch draining
    rw [unlocked] at locked
    cases locked
  · exact fun _ _ _ _ => rfl

theorem write_eventfd (placed : Placed state) {task : Nat} {effects : List Effect} {result : Status}
    (control : state.control = .leave task (.write_eventfd :: effects) result) (room : state.counter < counterMax) :
    Placed { state with counter := state.counter + 1, lock := none, control := .leave task effects result } := by
  have owned := owned_step placed.owned placed.unready (.write_eventfd control room)
  obtain ⟨found, at_task, head, pending⟩ := effects_shape placed.owned control
  have same : (Control.leave task effects result).registered =
      (Control.leave task (.write_eventfd :: effects) result).registered := by
    cases result with
    | pending => simp [Control.registered, pending rfl]
    | spawned | polling | ready => rfl
  refine { placed with
    owned := owned, places := placed.places_effect control same, counter := ?_, drains := ?_, writes := ?_ }
  · exact fun _ _ => Nat.succ_ne_zero _
  · intro batch draining
    have locked := placed.drains batch draining
    rw [placed.writes _ _ _ control] at locked
    cases locked
  · intro other rest outcome leaves
    cases leaves
    exact absurd rfl head

theorem close (placed : Placed state) {task : Nat} {fd : RawFd} {effects : List Effect} {result : Status}
    (control : state.control = .leave task (.close fd :: effects) result) :
    Placed { state.close fd with control := .leave task effects result } := by
  have owned := owned_step placed.owned placed.unready (.close control)
  obtain ⟨found, at_task, head, rfl⟩ := effects_shape placed.owned control
  have is_open := (owned_close placed.owned control).1
  rw [close_open is_open] at owned ⊢
  refine { placed with
    owned := owned, places := placed.places_effect control rfl, armed := ?_, reported := ?_, disarmed := ?_, writes := ?_ }
  · intro other file armed
    apply placed.armed other file
    simp only at armed
    split at armed
    · cases armed
    · exact armed
  · intro other waiter waker
    refine (placed.reported other waiter waker).imp_left fun armed => ?_
    show (if _ then none else _) = _
    rw [if_neg, armed]
    intro last
    cases last.1
    exact (placed.dropped_absent ⟨_, control⟩).1 other waker
  · intro other member file armed
    apply placed.disarmed other member file
    simp only at armed
    split at armed
    · cases armed
    · exact armed
  · intro other rest outcome leaves
    cases leaves
    exact absurd rfl head

end Placed

end RustAsyncAwait.IoMultiplexing
