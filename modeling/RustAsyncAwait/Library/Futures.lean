import RustAsyncAwait.Library.Lists
import RustAsyncAwait.Library.Machine

/-! Futures with finitely many polls, and the runs they give on an executor. The
executor is a machine whose events include those of the future being polled. -/

namespace RustAsyncAwait.Library

/-- The code a future has still to run, as the effects its polls perform. It
stops at `pending` until it is polled again, and is done at `ready`. -/
inductive Future (V : Type) where
  | wake_by_ref (rest : Future V)
  | wake (other : Nat) (rest : Future V)
  | spawn (child rest : Future V)
  | pending (rest : Future V)
  | ready (value : V)

namespace Future
variable {V : Type}

def size : Future V → Nat
  | wake_by_ref rest | wake _ rest | pending rest => rest.size + 1
  | spawn child rest => child.size + rest.size + 1
  | ready _ => 1

/-- How often the future returns `Pending`. -/
def pendings : Future V → Nat
  | wake_by_ref rest | wake _ rest | spawn _ rest => rest.pendings
  | pending rest => rest.pendings + 1
  | ready _ => 0

def value : Future V → V
  | wake_by_ref rest | wake _ rest | spawn _ rest | pending rest => rest.value
  | ready value => value

/-- How many tasks the future spawns, through all generations. -/
def spawns : Future V → Nat
  | wake_by_ref rest | wake _ rest | pending rest => rest.spawns
  | spawn child rest => child.spawns + 1 + rest.spawns
  | ready _ => 0

/-- Every poll that returns `Pending` has called the task's own waker. `woken`
says whether the present poll already has. -/
def Wakes (woken : Bool) : Future V → Prop
  | wake_by_ref rest => rest.Wakes true
  | wake _ rest => rest.Wakes woken
  | spawn child rest => child.Wakes false ∧ rest.Wakes woken
  | pending rest => woken = true ∧ rest.Wakes false
  | ready _ => True

/-- Calls its own waker once in each of its `Pending` polls. -/
def waking (value : V) : Nat → Future V
  | 0 => ready value
  | pendings + 1 => wake_by_ref (pending (waking value pendings))

/-- Is pending without calling a waker, as a coroutine that yields. -/
def yielding (value : V) : Nat → Future V
  | 0 => ready value
  | pendings + 1 => pending (yielding value pendings)

theorem Wakes.weaken {future : Future V} (wakes : future.Wakes false) (woken : Bool) : future.Wakes woken := by
  induction future with
  | wake_by_ref rest ih => exact wakes
  | wake other rest ih => exact ih wakes
  | spawn child rest _ ih => exact ⟨wakes.1, ih wakes.2⟩
  | pending rest ih => cases wakes.1
  | ready value => trivial

end Future

/-- What a poll returns. -/
inductive Poll
  | pending
  | ready
deriving DecidableEq

/-- An executor as a machine. `polled` is the future being polled, whose code
says what comes next; otherwise `own` is the executor's own next step. An event
that ends a poll tells in `returned` which future was polled, and the result. -/
structure PollingMachine (σ : Type) (ε : Type) extends Machine σ ε where
  polled : σ → Option Nat
  own : σ → Option ε
  spawn : ε
  wake : Nat → ε
  pending : Nat → ε
  ready : Nat → ε
  returned : ε → Option (Nat × Poll)

/-- An executor's state with the futures in it. `code` is `none` once a future
has returned `Ready`; `received` is what the receiver of each spawn holds. -/
structure Scripted (σ : Type) (V : Type) where
  state : σ
  code : List (Option (Future V))
  spawned : List (Future V)
  received : List (List V)

namespace Scripted
variable {σ V : Type} (script : Scripted σ V)

/-- These futures have been spawned, and none of them was polled. -/
def start (state : σ) (futures : List (Future V)) : Scripted σ V where
  state := state
  code := futures.map some
  spawned := futures
  received := futures.map fun _ => []

def resume (future : Nat) (rest : Future V) : Scripted σ V :=
  { script with code := script.code.set future (some rest) }

def add (child : Future V) : Scripted σ V :=
  { script with
    code := script.code ++ [some child]
    spawned := script.spawned ++ [child]
    received := script.received ++ [[]] }

/-- `let _ = tx.send(result)`, and the future is dropped. -/
def deliver (future : Nat) (value : V) : Scripted σ V :=
  { script with
    code := script.code.set future none
    received := script.received.modify future (· ++ [value]) }

@[simp] theorem resume_length (future : Nat) (rest : Future V) :
    (script.resume future rest).code.length = script.code.length := List.length_set

theorem resume_code_self {future : Nat} {code : Option (Future V)} (rest : Future V)
    (found : script.code[future]? = some code) : (script.resume future rest).code[future]? = some (some rest) :=
  List.getElem?_set_self (List.getElem?_eq_some_iff.mp found).1

theorem resume_code_other {running future : Nat} (rest : Future V) (different : running ≠ future) :
    (script.resume running rest).code[future]? = script.code[future]? := List.getElem?_set_ne different

theorem deliver_code_self {future : Nat} {code : Option (Future V)} (value : V)
    (found : script.code[future]? = some code) : (script.deliver future value).code[future]? = some none :=
  List.getElem?_set_self (List.getElem?_eq_some_iff.mp found).1

theorem deliver_code_other {running future : Nat} (value : V) (different : running ≠ future) :
    (script.deliver running value).code[future]? = script.code[future]? := List.getElem?_set_ne different

theorem deliver_received_self {future : Nat} {values : List V} (value : V)
    (found : script.received[future]? = some values) :
    (script.deliver future value).received[future]? = some (values ++ [value]) := by
  simp [deliver, found]

theorem deliver_received_other {running future : Nat} (value : V) (different : running ≠ future) :
    (script.deliver running value).received[future]? = script.received[future]? := by
  simp [deliver, different]

theorem add_code_old {future : Nat} (child : Future V) (old : future < script.code.length) :
    (script.add child).code[future]? = script.code[future]? := List.getElem?_append_left old

theorem add_received_old {future : Nat} (child : Future V) (old : future < script.received.length) :
    (script.add child).received[future]? = script.received[future]? := List.getElem?_append_left old

theorem add_spawned_old {future : Nat} (child : Future V) (old : future < script.spawned.length) :
    (script.add child).spawned[future]? = script.spawned[future]? := List.getElem?_append_left old

theorem add_code_new (child : Future V) : (script.add child).code[script.code.length]? = some (some child) :=
  List.getElem?_concat_length

theorem add_received_new (child : Future V) : (script.add child).received[script.received.length]? = some [] :=
  List.getElem?_concat_length

theorem add_spawned_new {future : Nat} {original : Future V} (child : Future V) (new : ¬ future < script.spawned.length)
    (found : (script.add child).spawned[future]? = some original) :
    future = script.spawned.length ∧ original = child := by
  have inside := (List.getElem?_eq_some_iff.mp found).1
  simp only [add, List.length_append, List.length_singleton] at inside
  obtain rfl : future = script.spawned.length := by omega
  exact ⟨rfl, Option.some.inj (found.symm.trans List.getElem?_concat_length)⟩

/-- A measure of futures, summed over the code that is left. -/
def total (measure : Future V → Nat) : Nat := (script.code.map fun code => code.elim 0 measure).sum

end Scripted

namespace PollingMachine
variable {σ ε V : Type} (machine : PollingMachine σ ε)

def emit (script : Scripted σ V) (event : ε) : Option (List ε × Scripted σ V) :=
  (machine.step script.state event).map fun state => ([event], { script with state })

/-- One step of the executor's thread. A waker exists only for spawned tasks. -/
def next (script : Scripted σ V) : Option (List ε × Scripted σ V) :=
  match machine.polled script.state with
  | none => (machine.own script.state).bind (machine.emit script)
  | some future =>
    match script.code[future]? with
    | some (some (.wake_by_ref rest)) => machine.emit (script.resume future rest) (machine.wake future)
    | some (some (.wake other rest)) =>
      if other < script.spawned.length then machine.emit (script.resume future rest) (machine.wake other)
      else some ([], script.resume future rest)
    | some (some (.spawn child rest)) => machine.emit ((script.resume future rest).add child) machine.spawn
    | some (some (.pending rest)) => machine.emit (script.resume future rest) (machine.pending future)
    | some (some (.ready value)) => machine.emit (script.deliver future value) (machine.ready future)
    | _ => none

def exec : Nat → Scripted σ V → List ε × Scripted σ V
  | 0, script => ([], script)
  | fuel + 1, script =>
    match machine.next script with
    | none => ([], script)
    | some (events, after) => (events ++ (exec fuel after).1, (exec fuel after).2)

/-- The executor's thread gets from one state to another with these events. -/
def Advances (script : Scripted σ V) (trace : List ε) (final : Scripted σ V) : Prop :=
  ∃ fuel, machine.exec fuel script = (trace, final)

variable {machine}

theorem emit_eq_some {script final : Scripted σ V} {event : ε} {events : List ε} :
    machine.emit script event = some (events, final) ↔
      ∃ state, machine.step script.state event = some state ∧ events = [event] ∧ final = { script with state } := by
  simp only [emit, Option.map_eq_some_iff, Prod.mk.injEq]
  constructor
  · intro emitted
    obtain ⟨state, stepped, rfl, rfl⟩ := emitted
    exact ⟨state, stepped, rfl, rfl⟩
  · intro emitted
    obtain ⟨state, stepped, rfl, rfl⟩ := emitted
    exact ⟨state, stepped, rfl, rfl⟩

theorem Advances.refl (script : Scripted σ V) : machine.Advances script [] script := ⟨0, rfl⟩

theorem Advances.head {script middle final : Scripted σ V} {events trace : List ε}
    (first : machine.next script = some (events, middle)) (rest : machine.Advances middle trace final) :
    machine.Advances script (events ++ trace) final := by
  obtain ⟨fuel, ran⟩ := rest
  exact ⟨fuel + 1, by simp only [exec, first, ran]⟩

theorem Advances.single {script after : Scripted σ V} {events : List ε}
    (stepped : machine.next script = some (events, after)) : machine.Advances script events after := by
  simpa using Advances.head stepped (.refl after)

theorem Advances.trans {script middle final : Scripted σ V} {first second : List ε}
    (earlier : machine.Advances script first middle) (later : machine.Advances middle second final) :
    machine.Advances script (first ++ second) final := by
  obtain ⟨fuel, ran⟩ := earlier
  induction fuel generalizing script first with
  | zero => cases ran; exact later
  | succ fuel ih =>
    simp only [exec] at ran
    split at ran
    · cases ran; exact later
    next events after stepped =>
      cases ran
      rw [List.append_assoc]
      exact .head stepped (ih rfl)

/-- Where the thread has no step left, more fuel changes nothing. -/
theorem exec_final {script final : Scripted σ V} {fuel : Nat} {trace : List ε}
    (ran : machine.exec fuel script = (trace, final)) (stuck : machine.next final = none) (extra : Nat) :
    machine.exec (fuel + extra) script = (trace, final) := by
  induction fuel generalizing script trace with
  | zero =>
    cases ran
    cases extra with
    | zero => rfl
    | succ extra => simp only [exec, stuck]
  | succ fuel ih =>
    rw [Nat.add_right_comm]
    simp only [exec] at ran ⊢
    split at ran
    · exact ran
    next events after stepped =>
      cases ran
      rw [ih rfl]

/-- A thread that stops, stops in one state only. -/
theorem Advances.final_unique {script first second : Scripted σ V} {left right : List ε}
    (one : machine.Advances script left first) (other : machine.Advances script right second)
    (stuck : machine.next first = none) (also : machine.next second = none) : left = right ∧ first = second := by
  obtain ⟨fuel, ran⟩ := one
  obtain ⟨more, ran'⟩ := other
  have same := exec_final ran stuck more
  rw [Nat.add_comm, exec_final ran' also fuel] at same
  simpa using same.symm

/-- Every fact about the script that the thread's steps keep. -/
theorem Advances.invariant (holds : List ε → Scripted σ V → Prop) {script final : Scripted σ V}
    {before trace : List ε} (init : holds before script)
    (step : ∀ trace script events after, holds trace script → machine.next script = some (events, after) →
      holds (trace ++ events) after)
    (advances : machine.Advances script trace final) : holds (before ++ trace) final := by
  obtain ⟨fuel, ran⟩ := advances
  induction fuel generalizing script before trace with
  | zero =>
    cases ran
    simpa using init
  | succ fuel ih =>
    simp only [exec] at ran
    split at ran
    · cases ran; simpa using init
    next events after stepped =>
      cases ran
      rw [← List.append_assoc]
      exact ih (step before script events after init stepped) rfl

/-- A thread whose steps all decrease a rank stops. -/
theorem Advances.terminates {ρ : Type} {less : ρ → ρ → Prop} (wf : WellFounded less) (rank : Scripted σ V → ρ)
    (holds : List ε → Scripted σ V → Prop)
    (step : ∀ trace script events after, holds trace script → machine.next script = some (events, after) →
      holds (trace ++ events) after ∧ less (rank after) (rank script))
    {before : List ε} (script : Scripted σ V) (init : holds before script) :
    ∃ trace final, machine.Advances script trace final ∧ machine.next final = none ∧ holds (before ++ trace) final := by
  induction same : rank script using wf.induction generalizing before script with
  | h current ih =>
    cases stepped : machine.next script with
    | none => exact ⟨[], script, .refl script, stepped, by simpa using init⟩
    | some result =>
      obtain ⟨events, after⟩ := result
      obtain ⟨kept, smaller⟩ := step before script events after init stepped
      obtain ⟨trace, final, advances, stuck, last⟩ := ih (rank after) (same ▸ smaller) after kept rfl
      exact ⟨events ++ trace, final, .head stepped advances, stuck, by simpa using last⟩

/-- All that one step of the thread can be. -/
inductive Turn (machine : PollingMachine σ ε) : Scripted σ V → List ε → Scripted σ V → Prop
  | own {script event state} (free : machine.polled script.state = none)
      (chosen : machine.own script.state = some event) (stepped : machine.step script.state event = some state) :
      Turn machine script [event] { script with state }
  | wake_by_ref {script future rest state} (held : machine.polled script.state = some future)
      (code : script.code[future]? = some (some (.wake_by_ref rest)))
      (stepped : machine.step script.state (machine.wake future) = some state) :
      Turn machine script [machine.wake future] { script.resume future rest with state }
  | wake {script future other rest state} (held : machine.polled script.state = some future)
      (code : script.code[future]? = some (some (.wake other rest))) (known : other < script.spawned.length)
      (stepped : machine.step script.state (machine.wake other) = some state) :
      Turn machine script [machine.wake other] { script.resume future rest with state }
  | unknown {script future other rest} (held : machine.polled script.state = some future)
      (code : script.code[future]? = some (some (.wake other rest))) (unknown : ¬ other < script.spawned.length) :
      Turn machine script [] (script.resume future rest)
  | spawn {script future child rest state} (held : machine.polled script.state = some future)
      (code : script.code[future]? = some (some (.spawn child rest)))
      (stepped : machine.step script.state machine.spawn = some state) :
      Turn machine script [machine.spawn] { (script.resume future rest).add child with state }
  | pending {script future rest state} (held : machine.polled script.state = some future)
      (code : script.code[future]? = some (some (.pending rest)))
      (stepped : machine.step script.state (machine.pending future) = some state) :
      Turn machine script [machine.pending future] { script.resume future rest with state }
  | ready {script future value state} (held : machine.polled script.state = some future)
      (code : script.code[future]? = some (some (.ready value)))
      (stepped : machine.step script.state (machine.ready future) = some state) :
      Turn machine script [machine.ready future] { script.deliver future value with state }

theorem next_cases {script after : Scripted σ V} {events : List ε}
    (stepped : machine.next script = some (events, after)) : Turn machine script events after := by
  simp only [next] at stepped
  split at stepped
  next free =>
    obtain ⟨event, chosen, emitted⟩ := Option.bind_eq_some_iff.mp stepped
    obtain ⟨state, ran, rfl, rfl⟩ := emit_eq_some.mp emitted
    exact .own free chosen ran
  next future held =>
    split at stepped
    next rest code =>
      obtain ⟨state, ran, rfl, rfl⟩ := emit_eq_some.mp stepped
      exact .wake_by_ref held code ran
    next other rest code =>
      split at stepped
      next known =>
        obtain ⟨state, ran, rfl, rfl⟩ := emit_eq_some.mp stepped
        exact .wake held code known ran
      next unknown =>
        cases stepped
        exact .unknown held code unknown
    next child rest code =>
      obtain ⟨state, ran, rfl, rfl⟩ := emit_eq_some.mp stepped
      exact .spawn held code ran
    next rest code =>
      obtain ⟨state, ran, rfl, rfl⟩ := emit_eq_some.mp stepped
      exact .pending held code ran
    next value code =>
      obtain ⟨state, ran, rfl, rfl⟩ := emit_eq_some.mp stepped
      exact .ready held code ran
    next => cases stepped

theorem Turn.sound {script after : Scripted σ V} {events : List ε} (turn : Turn machine script events after) :
    machine.next script = some (events, after) := by
  cases turn with
  | own free chosen stepped =>
    simp only [next, free, chosen, Option.bind_some]
    exact emit_eq_some.mpr ⟨_, stepped, rfl, rfl⟩
  | wake_by_ref held code stepped | spawn held code stepped | pending held code stepped | ready held code stepped =>
    simp only [next, held, code]
    exact emit_eq_some.mpr ⟨_, stepped, rfl, rfl⟩
  | wake held code known stepped =>
    simp only [next, held, code, if_pos known]
    exact emit_eq_some.mpr ⟨_, stepped, rfl, rfl⟩
  | unknown held code unknown => simp only [next, held, code, if_neg unknown]

/-- The scripted thread only makes steps of the machine. -/
theorem Turn.runs {script after : Scripted σ V} {events : List ε} (turn : Turn machine script events after) :
    machine.runFrom script.state events = some after.state := by
  cases turn with
  | unknown => rfl
  | own _ _ stepped | wake_by_ref _ _ stepped | wake _ _ _ stepped | spawn _ _ stepped | pending _ _ stepped
  | ready _ _ stepped => simp [stepped]

theorem Turn.spawned_prefix {script after : Scripted σ V} {events : List ε} (turn : Turn machine script events after) :
    script.spawned <+: after.spawned := by
  cases turn with
  | spawn => exact List.prefix_append _ _
  | own | wake_by_ref | wake | unknown | pending | ready => exact List.prefix_refl _

end PollingMachine

namespace Scripted
variable {σ V : Type} (script : Scripted σ V)

variable (measure : Future V → Nat)

theorem resume_total {future : Nat} {code : Future V} (rest : Future V)
    (found : script.code[future]? = some (some code)) :
    (script.resume future rest).total measure + measure code = script.total measure + measure rest := by
  simpa [total, resume, List.map_set] using
    sum_set (script.code.map fun code => code.elim 0 measure) future (measure rest) (measure code) (by simp [found])

theorem deliver_total {future : Nat} {code : Future V} (value : V)
    (found : script.code[future]? = some (some code)) :
    (script.deliver future value).total measure + measure code = script.total measure := by
  simpa [total, deliver, List.map_set] using
    sum_set (script.code.map fun code => code.elim 0 measure) future 0 (measure code) (by simp [found])

theorem add_total (child : Future V) : (script.add child).total measure = script.total measure + measure child := by
  simp [total, add]

end Scripted

namespace PollingMachine
variable {σ ε V : Type} {machine : PollingMachine σ ε}

/-- While a future is being polled, every step runs some of its code. -/
theorem Turn.size_lt {script after : Scripted σ V} {events : List ε} {future : Nat}
    (turn : Turn machine script events after) (held : machine.polled script.state = some future) :
    after.total Future.size < script.total Future.size := by
  cases turn with
  | own free => simp [free] at held
  | @wake_by_ref _ rest _ _ code | @wake _ _ rest _ _ code _ | @unknown _ _ rest _ code _ | @pending _ rest _ _ code =>
    have same := script.resume_total Future.size rest code
    simp only [Future.size, Scripted.total] at same ⊢
    omega
  | @spawn future child rest _ _ code =>
    have same := script.resume_total Future.size rest code
    have grown := (script.resume future rest).add_total Future.size child
    simp only [Future.size, Scripted.total] at same grown ⊢
    omega
  | @ready _ value _ _ code =>
    have same := script.deliver_total Future.size value code
    simp only [Future.size, Scripted.total] at same ⊢
    omega

end PollingMachine
end RustAsyncAwait.Library
