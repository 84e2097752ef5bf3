import RustAsyncAwait.ThreadCounters
import Mathlib.Algebra.BigOperators.Fin
import Mathlib.Algebra.Order.BigOperators.Group.Finset
import Mathlib.Data.List.Infix

/-! What `get_complete_count` returns, against the increments that have been
executed when it starts and when it returns. -/

namespace RustAsyncAwait.ThreadCounters
open Library

/-- How many `something(number)` have counted, on whichever worker. -/
def increments (number : UInt32) (trace : List Event) : Nat :=
  trace.countP fun
    | .something _ other => other = number
    | _ => false

theorem sum_increments (number : UInt32) (trace : List Event) :
    ∑ worker, trace.count (.something worker number) = increments number trace := by
  induction trace with
  | nil => simp [increments]
  | cons event trace ih =>
    simp only [List.count_cons, Finset.sum_add_distrib, ih, increments, List.countP_cons]
    cases event with
    | something worker other => by_cases same : other = number <;> simp [same]
    | _ => simp

section Counts
variable (counter : Counts) (number key : UInt32)

theorem getD_insert (value : UInt32) :
    (counter.insert number value).getD key 0 = if number = key then value else counter.getD key 0 := by
  simp [Std.ExtTreeMap.getD_insert]

theorem something_getD :
    (something counter number).getD key 0 = if number = key then counter.getD key 0 + 1 else counter.getD key 0 := by
  unfold something
  by_cases same : number = key
  · subst same
    have read : counter.getD number 0 = counter[number]?.getD 0 := Std.ExtTreeMap.getD_eq_getD_getElem?
    rw [if_pos rfl, read]
    cases counter[number]? with
    | some count => simp
    | none => simp
  · rw [if_neg same]
    split <;> rw [getD_insert, if_neg same]

variable {key}

private theorem fold_absent (complete : Counts) {entries : List (UInt32 × UInt32)} (absent : ∀ entry ∈ entries, entry.1 ≠ key) :
    (entries.foldl (fun complete entry => complete.insert entry.1 (complete.getD entry.1 0 + entry.2)) complete).getD key 0 =
      complete.getD key 0 := by
  induction entries generalizing complete with
  | nil => rfl
  | cons entry entries ih =>
    rw [List.foldl_cons, ih _ fun other member => absent other (List.mem_cons_of_mem _ member), getD_insert,
      if_neg (absent entry (List.mem_cons_self ..))]

/-- Every count of the sum is the sum of the two counts. -/
theorem merge_getD (complete extracted : Counts) (key : UInt32) :
    (merge complete extracted).getD key 0 = complete.getD key 0 + extracted.getD key 0 := by
  unfold merge
  have distinct := @Std.ExtTreeMap.distinct_keys_toList _ _ _ extracted _
  have read : extracted.getD key 0 = extracted[key]?.getD 0 := Std.ExtTreeMap.getD_eq_getD_getElem?
  rw [read]
  cases found : extracted[key]? with
  | none =>
    rw [fold_absent complete]
    · simp
    · intro entry member same
      obtain ⟨number, count⟩ := entry
      rw [Std.ExtTreeMap.mem_toList_iff_getElem?_eq_some, show number = key from same, found] at member
      cases member
  | some count =>
    obtain ⟨front, back, split⟩ := List.append_of_mem (Std.ExtTreeMap.mem_toList_iff_getElem?_eq_some.mpr found)
    rw [split, List.pairwise_append, List.pairwise_cons] at distinct
    obtain ⟨_, ⟨after, _⟩, before⟩ := distinct
    have front_absent : ∀ entry ∈ front, entry.1 ≠ key := fun entry member same =>
      before entry member (key, count) (List.mem_cons_self ..) (Std.LawfulEqCmp.compare_eq_iff_eq.mpr same)
    have back_absent : ∀ entry ∈ back, entry.1 ≠ key := fun entry member same =>
      after entry member (Std.LawfulEqCmp.compare_eq_iff_eq.mpr same.symm)
    rw [split, List.foldl_append, List.foldl_cons, fold_absent _ back_absent, getD_insert, if_pos rfl,
      fold_absent _ front_absent, Option.getD_some]

end Counts

/-- Each copy was taken at some moment since the start, and the sum is that of
the copies awaited so far. -/
structure Extracting (start trace : List Event) (call : Call) (moments : Fin 4 → List Event) : Prop where
  taken : ∀ worker counter, call.extracted worker = some counter →
    start <+: moments worker ∧ moments worker <+: trace ∧
      ∀ key, counter.getD key 0 = .ofNat ((moments worker).count (.something worker key))
  awaited : ∀ worker : Fin 4, worker < call.awaited → call.extracted worker ≠ none
  merged : ∀ key, call.complete_counter.getD key 0 =
    .ofNat (∑ worker with worker.val < call.awaited, (moments worker).count (.something worker key))

namespace Extracting
variable {start trace : List Event} {call : Call} {moments : Fin 4 → List Event}

theorem snoc (extracting : Extracting start trace call moments) (event : Event) :
    Extracting start (trace ++ [event]) call moments := by
  refine ⟨fun worker counter found => ?_, extracting.awaited, extracting.merged⟩
  obtain ⟨later, earlier, copy⟩ := extracting.taken worker counter found
  exact ⟨later, earlier.trans (List.prefix_append _ _), copy⟩

theorem extract (extracting : Extracting start trace call moments) {worker : Fin 4} {counter : Counts}
    (waiting : call.extracted worker = none) (later : start <+: trace)
    (copy : ∀ key, counter.getD key 0 = .ofNat (trace.count (.something worker key))) :
    Extracting start trace { call with extracted := Function.update call.extracted worker (some counter) }
      (Function.update moments worker trace) := by
  refine ⟨?_, ?_, ?_⟩
  · intro other found at_other
    by_cases same : other = worker
    · subst same
      simp only [Function.update_self, Option.some.injEq] at at_other ⊢
      subst at_other
      exact ⟨later, List.prefix_rfl, copy⟩
    · simp only [Function.update_of_ne same] at at_other ⊢
      exact extracting.taken other found at_other
  · intro other below
    by_cases same : other = worker
    · subst same
      simp
    · simpa [same] using extracting.awaited other below
  · intro key
    rw [extracting.merged key]
    congr 1
    apply Finset.sum_congr rfl
    intro other below
    have different : other ≠ worker := by
      intro same
      subst same
      exact extracting.awaited other (by simpa using below) waiting
    rw [Function.update_of_ne different]

theorem await (extracting : Extracting start trace call moments) {worker : Fin 4} {counter : Counts}
    (found : call.extracted worker = some counter) (next : worker = call.awaited) :
    Extracting start trace
      { call with awaited := call.awaited + 1, complete_counter := merge call.complete_counter counter } moments := by
  refine ⟨extracting.taken, ?_, ?_⟩
  · intro other below
    by_cases same : other = worker
    · subst same
      simp [found]
    · have different := fun same_val => same (Fin.ext same_val)
      refine extracting.awaited other ?_
      simp only at below
      omega
  · intro key
    have split : (Finset.univ.filter fun other : Fin 4 => other.val < call.awaited + 1) =
        insert worker (Finset.univ.filter fun other : Fin 4 => other.val < call.awaited) := by
      ext other
      simp only [Finset.mem_filter, Finset.mem_univ, true_and, Finset.mem_insert, Fin.ext_iff]
      omega
    rw [split, Finset.sum_insert (by simp [next]), merge_getD, extracting.merged key,
      (extracting.taken worker counter found).2.2 key, Nat.add_comm, UInt32.ofNat_add]

end Extracting

/-- What each event does. -/
inductive Step (state : State) : Event → State → Prop
  | something (worker : Fin 4) (number : UInt32) :
      Step state (.something worker number)
        { state with
          counters := Function.update state.counters worker (something (state.counters worker) number) }
  | start (idle : state.call = none) : Step state .get_complete_count { state with call := some {}, result := none }
  | extract {worker : Fin 4} {call : Call} (calling : state.call = some call) (waiting : call.extracted worker = none) :
      Step state (.extract_data_from_thread worker)
        { state with
          call := some { call with extracted := Function.update call.extracted worker (some (state.counters worker)) } }
  | await {worker : Fin 4} {counter : Counts} {call : Call} (calling : state.call = some call)
      (found : call.extracted worker = some counter) (next : worker = call.awaited) :
      Step state (.await worker)
        { state with
          call := some { call with
            awaited := call.awaited + 1
            complete_counter := merge call.complete_counter counter } }
  | returned {call : Call} (calling : state.call = some call) (all : call.awaited = 4) :
      Step state .returned { state with call := none, result := some call.complete_counter }

theorem step_cases {state next : State} {event : Event} (stepped : step state event = some next) :
    Step state event next := by
  cases event with
  | something worker number =>
    cases stepped
    exact .something worker number
  | get_complete_count =>
    simp only [step] at stepped
    split at stepped
    · cases stepped
      exact .start (by assumption)
    · cases stepped
  | extract_data_from_thread worker =>
    simp only [step] at stepped
    split at stepped
    · split at stepped
      · cases stepped
        exact .extract (by assumption) (by assumption)
      · cases stepped
    · cases stepped
  | await worker =>
    simp only [step] at stepped
    split at stepped
    · split at stepped
      · split at stepped
        · cases stepped
          exact .await (by assumption) (by assumption) (by assumption)
        · cases stepped
      · cases stepped
    · cases stepped
  | returned =>
    simp only [step] at stepped
    split at stepped
    · split at stepped
      · cases stepped
        exact .returned (by assumption) (by assumption)
      · cases stepped
    · cases stepped

/-- The maps count the increments, and a call that started here has got this far. -/
structure Counting (trace : List Event) (state : State) : Prop where
  counters : ∀ worker key, (state.counters worker).getD key 0 = .ofNat (trace.count (.something worker key))
  calls : ∀ start during, trace = start ++ .get_complete_count :: during → .get_complete_count ∉ during →
    ∀ call, state.call = some call → ∃ moments, Extracting start trace call moments

namespace Counting
variable {trace : List Event} {state next : State} {event : Event}

/-- A step that is no increment. -/
theorem counters_kept (counting : Counting trace state) (silent : ∀ worker key, event ≠ .something worker key)
    (same : next.counters = state.counters) (worker : Fin 4) (key : UInt32) :
    (next.counters worker).getD key 0 = .ofNat ((trace ++ [event]).count (.something worker key)) := by
  rw [same, counting.counters, List.count_append, List.count_singleton, if_neg]
  · rfl
  · simpa using silent worker key

/-- A step in the middle of a call. -/
theorem calls_kept (counting : Counting trace state) (inside : event ≠ .get_complete_count)
    (kept : ∀ start, start <+: trace → ∀ after, next.call = some after → ∃ call, state.call = some call ∧
      ∀ moments, Extracting start trace call moments → ∃ moments, Extracting start (trace ++ [event]) after moments)
    (start during : List Event) (split : trace ++ [event] = start ++ .get_complete_count :: during)
    (alone : .get_complete_count ∉ during) (after : Call) (calling : next.call = some after) :
    ∃ moments, Extracting start (trace ++ [event]) after moments := by
  rcases List.eq_nil_or_concat during with rfl | ⟨earlier, last, rfl⟩
  · exact absurd (List.append_singleton_inj.mp split).2 inside
  · rw [List.concat_eq_append, ← List.cons_append, ← List.append_assoc] at split
    obtain ⟨rfl, _⟩ := List.append_singleton_inj.mp split
    obtain ⟨call, before, carries⟩ := kept start (List.prefix_append _ _) after calling
    obtain ⟨moments, extracting⟩ := counting.calls start earlier rfl (fun member => alone (by simp [member])) call before
    exact carries moments extracting

end Counting

theorem reaches_counting {trace : List Event} {state : State} (reaches : pool.Reaches trace state) :
    Counting trace state := by
  refine reaches.trace_invariant Counting ⟨by simp [pool], ?_⟩ ?_
  · intro start during split
    simp at split
  intro trace state event next _ counting stepped
  cases step_cases stepped with
  | something worker number =>
    refine ⟨?_, counting.calls_kept (by simp) ?_⟩
    · intro other key
      rw [List.count_append, List.count_singleton]
      by_cases same : other = worker
      · subst same
        simp only [Function.update_self]
        rw [something_getD, counting.counters]
        by_cases also : number = key
        · simp [also, UInt32.ofNat_add]
        · simp [also]
      · simp only [Function.update_of_ne same]
        rw [counting.counters, if_neg (by simp [Ne.symm same])]
        rfl
    · exact fun start _ after calling => ⟨after, calling, fun moments extracting => ⟨moments, extracting.snoc _⟩⟩
  | start idle =>
    refine ⟨counting.counters_kept (by simp) rfl, ?_⟩
    intro start during split alone call calling
    cases calling
    exact ⟨fun _ => [], ⟨fun _ _ found => (by cases found), fun _ below => (by simp at below), fun key => by simp⟩⟩
  | extract calling waiting =>
    refine ⟨counting.counters_kept (by simp) rfl, counting.calls_kept (by simp) ?_⟩
    intro start earlier after called
    cases called
    exact ⟨_, calling, fun moments extracting =>
      ⟨_, (extracting.extract waiting earlier (counting.counters _)).snoc _⟩⟩
  | await calling found turn =>
    refine ⟨counting.counters_kept (by simp) rfl, counting.calls_kept (by simp) ?_⟩
    intro start _ after called
    cases called
    exact ⟨_, calling, fun moments extracting => ⟨moments, (extracting.await found turn).snoc _⟩⟩
  | returned calling all =>
    refine ⟨counting.counters_kept (by simp) rfl, counting.calls_kept (by simp) ?_⟩
    intro start _ after called
    cases called

/-- A call counts at least the increments executed when it starts and at most
those executed when it returns, however they are distributed over the workers. -/
theorem complete_count_bounds {start during : List Event} {state : State}
    (reaches : pool.Reaches (start ++ .get_complete_count :: during ++ [.returned]) state)
    (alone : .get_complete_count ∉ during)
    (small : ∀ key, increments key (start ++ .get_complete_count :: during) < 2 ^ 32) :
    ∃ result, state.result = some result ∧ ∀ key : UInt32,
      increments key start ≤ (result.getD key 0).toNat ∧
        (result.getD key 0).toNat ≤ increments key (start ++ .get_complete_count :: during) ∧
        (increments key during = 0 → (result.getD key 0).toNat = increments key start) := by
  obtain ⟨before, earlier, stepped⟩ := Machine.reaches_snoc.mp reaches
  have returns : step before .returned = some state := stepped
  cases step_cases returns with
  | @returned call calling all =>
    obtain ⟨moments, extracting⟩ := (reaches_counting earlier).calls start during rfl alone call calling
    refine ⟨_, rfl, fun key => ?_⟩
    have taken : ∀ worker : Fin 4, start <+: moments worker ∧
        moments worker <+: start ++ .get_complete_count :: during := by
      intro worker
      obtain ⟨counter, found⟩ := Option.ne_none_iff_exists'.mp (extracting.awaited worker (by omega))
      obtain ⟨later, sooner, _⟩ := extracting.taken worker counter found
      exact ⟨later, sooner⟩
    have sum : ∑ worker with worker.val < call.awaited, (moments worker).count (.something worker key) =
        ∑ worker, (moments worker).count (.something worker key) := by
      rw [Finset.filter_true_of_mem]
      intro worker _
      omega
    have lower : increments key start ≤ ∑ worker, (moments worker).count (.something worker key) := by
      rw [← sum_increments]
      exact Finset.sum_le_sum fun worker _ => (taken worker).1.sublist.count_le _
    have upper : ∑ worker, (moments worker).count (.something worker key) ≤
        increments key (start ++ .get_complete_count :: during) := by
      rw [← sum_increments]
      exact Finset.sum_le_sum fun worker _ => (taken worker).2.sublist.count_le _
    have bound := small key
    have value : (call.complete_counter.getD key 0).toNat = ∑ worker, (moments worker).count (.something worker key) := by
      rw [extracting.merged key, sum, UInt32.toNat_ofNat']
      exact Nat.mod_eq_of_lt (Nat.lt_of_le_of_lt upper bound)
    rw [value]
    refine ⟨lower, upper, fun none => ?_⟩
    have same : increments key (start ++ .get_complete_count :: during) = increments key start + increments key during := by
      simp [increments, List.countP_append]
    omega

/-- Worker 0 is asked before its second increment, and worker 1 after its own. -/
theorem complete_count_bounds_racing :
    let start : List Event := [.something 0 7, .something 2 3]
    let during : List Event := [.extract_data_from_thread 0, .something 0 7, .something 1 7, .extract_data_from_thread 1,
      .await 0, .await 1, .extract_data_from_thread 3, .extract_data_from_thread 2, .await 2, .await 3]
    ∃ state, pool.Reaches (start ++ .get_complete_count :: during ++ [.returned]) state ∧
      ∃ result, state.result = some result ∧ ∀ key : UInt32,
        increments key start ≤ (result.getD key 0).toNat ∧
          (result.getD key 0).toNat ≤ increments key (start ++ .get_complete_count :: during) ∧
          (increments key during = 0 → (result.getD key 0).toNat = increments key start) := by
  intro start during
  exact ⟨_, rfl, complete_count_bounds rfl (by decide) fun key =>
    Nat.lt_of_le_of_lt List.countP_le_length (by decide)⟩

end RustAsyncAwait.ThreadCounters
