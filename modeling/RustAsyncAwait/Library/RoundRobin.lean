import RustAsyncAwait.Library.Futures
import Mathlib.Data.List.Nodup

/-! The round-robin schedule, as a function of how often each task is pending,
and the rule by which an executor's thread is shown to follow it. -/

namespace RustAsyncAwait.Library

/-- How many polls are left. -/
def pollsLeft (queue : List (Nat × Nat)) : Nat := (queue.map fun entry => entry.2 + 1).sum

/-- The polls of tasks that are served in turn. Each entry is a task and how
often it is still pending before it is ready. -/
def roundRobin : List (Nat × Nat) → List (Nat × Poll)
  | [] => []
  | (task, 0) :: rest => (task, .ready) :: roundRobin rest
  | (task, pendings + 1) :: rest => (task, .pending) :: roundRobin (rest ++ [(task, pendings)])
termination_by queue => pollsLeft queue
decreasing_by all_goals simp [pollsLeft]; try omega

/-- The code of the futures that follow the queue. `code` is what a task has
left to run when it is still pending that often. -/
structure Follows {V : Type} (code : Nat → Nat → Future V) (queue : List (Nat × Nat))
    (codes : List (Option (Future V))) : Prop where
  distinct : (queue.map Prod.fst).Nodup
  queued : ∀ entry ∈ queue, codes[entry.1]? = some (some (code entry.1 entry.2))
  finished : ∀ task, task < codes.length → task ∉ queue.map Prod.fst → codes[task]? = some none

/-- Tasks in the order of their spawns, each with how often it is pending. -/
def numbered (pendings : List Nat) : List (Nat × Nat) := pendings.zipIdx.map Prod.swap

theorem numbered_tasks (pendings : List Nat) : (numbered pendings).map Prod.fst = List.range pendings.length := by
  simp [numbered, Function.comp_def, List.range_eq_range']

@[simp] theorem numbered_length (pendings : List Nat) : (numbered pendings).length = pendings.length := by
  simp [numbered]

namespace Follows
variable {V : Type} {code : Nat → Nat → Future V} {rest : List (Nat × Nat)} {task : Nat}
  {codes : List (Option (Future V))}

theorem initial (pendings : List Nat) :
    Follows code (numbered pendings) (((numbered pendings).map fun entry => code entry.1 entry.2).map some) := by
  refine ⟨by simp [numbered_tasks, List.nodup_range], ?_, ?_⟩
  · intro entry member
    obtain ⟨task, found⟩ := List.getElem?_of_mem member
    have named : entry.1 = task := by
      simp only [numbered, List.getElem?_map, List.getElem?_zipIdx, Option.map_eq_some_iff] at found
      obtain ⟨_, ⟨count, _, rfl⟩, rfl⟩ := found
      exact Nat.zero_add task
    simp [named, found]
  · intro task below absent
    rw [numbered_tasks, List.mem_range] at absent
    exact absurd (by simpa using below) absent

theorem inside {pendings : Nat} (follows : Follows code ((task, pendings) :: rest) codes) : task < codes.length :=
  (List.getElem?_eq_some_iff.mp (follows.queued _ List.mem_cons_self)).1

/-- The first task was pending and has gone to the end of the queue. -/
theorem pending {pendings : Nat} (follows : Follows code ((task, pendings + 1) :: rest) codes) :
    Follows code (rest ++ [(task, pendings)]) (codes.set task (some (code task pendings))) := by
  have inside := follows.inside
  obtain ⟨distinct, queued, finished⟩ := follows
  simp only [List.map_cons, List.nodup_cons] at distinct
  refine ⟨?_, ?_, ?_⟩
  · simpa [List.nodup_append_comm] using distinct
  · intro entry member
    rcases List.mem_append.mp member with old | new
    · have other : task ≠ entry.1 := fun same => distinct.1 (same ▸ List.mem_map_of_mem old)
      rw [List.getElem?_set_ne other]
      exact queued entry (List.mem_cons_of_mem _ old)
    · rw [List.mem_singleton.mp new]
      exact List.getElem?_set_self inside
  · intro other below absent
    simp only [List.map_append, List.mem_append, not_or, List.map_cons, List.map_nil, List.mem_singleton] at absent
    rw [List.getElem?_set_ne (Ne.symm absent.2)]
    apply finished other (by simpa using below)
    simp [absent]

/-- The first task was ready and has left the queue. -/
theorem ready (follows : Follows code ((task, 0) :: rest) codes) : Follows code rest (codes.set task none) := by
  have inside := follows.inside
  obtain ⟨distinct, queued, finished⟩ := follows
  simp only [List.map_cons, List.nodup_cons] at distinct
  refine ⟨distinct.2, ?_, ?_⟩
  · intro entry member
    have other : task ≠ entry.1 := fun same => distinct.1 (same ▸ List.mem_map_of_mem member)
    rw [List.getElem?_set_ne other]
    exact queued entry (List.mem_cons_of_mem _ member)
  · intro other below absent
    by_cases same : task = other
    · subst same
      exact List.getElem?_set_self inside
    · rw [List.getElem?_set_ne same]
      apply finished other (by simpa using below)
      simp [absent, Ne.symm same]

end Follows

namespace PollingMachine
variable {σ ε V : Type} {machine : PollingMachine σ ε}

section Polls
variable {script : Scripted σ V} {woken next : σ} {task pendings : Nat} {value : V}

theorem Advances.waking_pending (held : machine.polled script.state = some task)
    (code : script.code[task]? = some (some (.waking value (pendings + 1))))
    (wakes : machine.step script.state (machine.wake task) = some woken) (still : machine.polled woken = some task)
    (parks : machine.step woken (machine.pending task) = some next) :
    machine.Advances script [machine.wake task, machine.pending task]
      { script with state := next, code := script.code.set task (some (.waking value pendings)) } := by
  have first := Turn.wake_by_ref held code wakes
  let middle : Scripted σ V := { script.resume task (.pending (.waking value pendings)) with state := woken }
  have second : Turn machine middle [machine.pending task] _ := .pending still (script.resume_code_self _ code) parks
  simpa [middle, Scripted.resume] using Advances.head first.sound (.single second.sound)

theorem Advances.yielding_pending (held : machine.polled script.state = some task)
    (code : script.code[task]? = some (some (.yielding value (pendings + 1))))
    (parks : machine.step script.state (machine.pending task) = some next) :
    machine.Advances script [machine.pending task]
      { script with state := next, code := script.code.set task (some (.yielding value pendings)) } :=
  .single (Turn.pending held code parks).sound

theorem Advances.ready (held : machine.polled script.state = some task)
    (code : script.code[task]? = some (some (.ready value)))
    (returns : machine.step script.state (machine.ready task) = some next) :
    machine.Advances script [machine.ready task] { script.deliver task value with state := next } :=
  .single (Turn.ready held code returns).sound

theorem Advances.own {event : ε} (free : machine.polled script.state = none)
    (chosen : machine.own script.state = some event) (stepped : machine.step script.state event = some next) :
    machine.Advances script [event] { script with state := next } := .single (Turn.own free chosen stepped).sound

end Polls

/-- With these futures spawned and these calls made, the thread runs until it can
go no further. All futures are then complete, and their polls were these. -/
def Completes (machine : PollingMachine σ ε) (calls : List ε) (futures : List (Future V)) (polls : List (Nat × Poll)) :
    Prop :=
  ∃ state trace final, machine.Reaches (List.replicate futures.length machine.spawn ++ calls) state ∧
    machine.Advances (.start state futures) trace final ∧ machine.next final = none ∧
    trace.filterMap machine.returned = polls ∧ ∀ task, task < futures.length → final.code[task]? = some none

/-- An executor whose state stands for a queue of tasks, and whose thread polls
the first of them. `serves` relates the queue to the state. -/
structure Serves (machine : PollingMachine σ ε) (code : Nat → Nat → Future V)
    (serves : List (Nat × Nat) → Scripted σ V → Prop) : Prop where
  pending : ∀ task pendings rest script, serves ((task, pendings + 1) :: rest) script →
    Follows code ((task, pendings + 1) :: rest) script.code →
      ∃ events after, machine.Advances script events after ∧
        events.filterMap machine.returned = [(task, .pending)] ∧
        after.code = script.code.set task (some (code task pendings)) ∧ serves (rest ++ [(task, pendings)]) after
  ready : ∀ task rest script, serves ((task, 0) :: rest) script → Follows code ((task, 0) :: rest) script.code →
    ∃ events after, machine.Advances script events after ∧
      events.filterMap machine.returned = [(task, .ready)] ∧ after.code = script.code.set task none ∧ serves rest after
  stop : ∀ script, serves [] script → ∃ events final, machine.Advances script events final ∧
    events.filterMap machine.returned = [] ∧ final.code = script.code ∧ machine.next final = none

namespace Serves
variable {code : Nat → Nat → Future V} {serves : List (Nat × Nat) → Scripted σ V → Prop}

/-- Such a thread makes the polls of the round-robin schedule until it stops. -/
theorem schedule (rule : Serves machine code serves) {queue : List (Nat × Nat)} {script : Scripted σ V}
    (served : serves queue script) (follows : Follows code queue script.code) :
    ∃ trace final, machine.Advances script trace final ∧ machine.next final = none ∧
      trace.filterMap machine.returned = roundRobin queue ∧ Follows code [] final.code ∧
      final.code.length = script.code.length := by
  induction queue using roundRobin.induct generalizing script with
  | case1 =>
    obtain ⟨events, final, advances, silent, same, stuck⟩ := rule.stop script served
    exact ⟨events, final, advances, stuck, by rw [silent, roundRobin], same ▸ follows, by rw [same]⟩
  | case2 task rest ih =>
    obtain ⟨events, middle, polls, returned, changed, served⟩ := rule.ready task rest script served follows
    obtain ⟨trace, final, advances, stuck, scheduled, done, length⟩ := ih served (changed ▸ follows.ready)
    refine ⟨events ++ trace, final, polls.trans advances, stuck, ?_, done, by rw [length, changed, List.length_set]⟩
    rw [List.filterMap_append, returned, scheduled, roundRobin]
    rfl
  | case3 task pendings rest ih =>
    obtain ⟨events, middle, polls, returned, changed, served⟩ := rule.pending task pendings rest script served follows
    obtain ⟨trace, final, advances, stuck, scheduled, done, length⟩ := ih served (changed ▸ follows.pending)
    refine ⟨events ++ trace, final, polls.trans advances, stuck, ?_, done, by rw [length, changed, List.length_set]⟩
    rw [List.filterMap_append, returned, scheduled, roundRobin]
    rfl

theorem completes (rule : Serves machine code serves) {pendings : List Nat} {calls : List ε} {state : σ}
    (reaches : machine.Reaches (List.replicate pendings.length machine.spawn ++ calls) state)
    (served : serves (numbered pendings) (.start state ((numbered pendings).map fun entry => code entry.1 entry.2))) :
    Completes machine calls ((numbered pendings).map fun entry => code entry.1 entry.2)
      (roundRobin (numbered pendings)) := by
  obtain ⟨trace, final, advances, stuck, scheduled, done, length⟩ := rule.schedule served (.initial pendings)
  refine ⟨state, trace, final, by simpa using reaches, advances, stuck, scheduled, ?_⟩
  intro task below
  apply done.finished task _ (by simp)
  rw [length]
  simpa [Scripted.start] using below

end Serves
end PollingMachine
end RustAsyncAwait.Library
