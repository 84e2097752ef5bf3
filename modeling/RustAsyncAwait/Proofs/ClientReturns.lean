import RustAsyncAwait.ClientPolls

/-! When the polls of a client's task return. A read that fails neither leaves
the loop nor awaits, so a connection that only fails holds the worker for ever. -/

namespace RustAsyncAwait.Server
open Library DataLayer

variable {order : ByteOrder} {connection : Connection}

namespace Connection
variable (connection : Connection)

/-- One of the first reads brings data. -/
def sent (count : Nat) : Prop := ∃ earlier < count, ∃ bytes, connection.reads earlier = .ok bytes ∧ bytes ≠ []

/-- The read loop breaks at this read, if it comes to it. -/
def leaves (count : Nat) : Prop :=
  connection.reads count = .ok [] ∨ connection.reads count = .wouldBlock ∧ connection.sent count

/-- This read finds nothing, and the sleep after it is not over at once. -/
def sleeps (count : Nat) : Prop := connection.reads count = .wouldBlock ∧ connection.elapsed (count + 1) 0 = false

theorem sent_succ {count : Nat} :
    connection.sent (count + 1) ↔ connection.sent count ∨ ∃ bytes, connection.reads count = .ok bytes ∧ bytes ≠ [] := by
  constructor
  · intro sent
    obtain ⟨earlier, before, data⟩ := sent
    rcases Nat.lt_succ_iff_lt_or_eq.mp before with older | same
    · exact .inl ⟨earlier, older, data⟩
    · exact .inr (same ▸ data)
  · intro either
    rcases either with ⟨earlier, before, data⟩ | data
    · exact ⟨earlier, Nat.lt_succ_of_lt before, data⟩
    · exact ⟨count, Nat.lt_succ_self count, data⟩

end Connection

/-- All that an operation which does not end the poll can be. -/
inductive Round (order : ByteOrder) (connection : Connection) : Running → Running → Prop
  | start {count polls} (ok : connection.set_nonblocking = .ok ()) :
      Round order connection ⟨.set_nonblocking, count, polls⟩ ⟨.read [], count, 0⟩
  | leaves {buffer count polls} (ends : connection.reads count = .ok [] ∨ connection.reads count = .wouldBlock ∧ buffer ≠ []) :
      Round order connection ⟨.read buffer, count, polls⟩ ⟨.wait (decode order buffer), count + 1, 0⟩
  | data {buffer count polls bytes} (read : connection.reads count = .ok bytes) (some_ : bytes ≠ []) :
      Round order connection ⟨.read buffer, count, polls⟩ ⟨.read (buffer ++ bytes), count + 1, 0⟩
  | idle {count polls} (read : connection.reads count = .wouldBlock) :
      Round order connection ⟨.read [], count, polls⟩ ⟨.sleep [], count + 1, 0⟩
  | failed {buffer count polls} (read : connection.reads count = .failed) :
      Round order connection ⟨.read buffer, count, polls⟩ ⟨.read buffer, count + 1, 0⟩
  | slept {buffer count polls} (elapsed : connection.elapsed count polls = true) :
      Round order connection ⟨.sleep buffer, count, polls⟩ ⟨.read buffer, count, 0⟩
  | waited {message count polls} (elapsed : connection.elapsed count polls = true) :
      Round order connection ⟨.wait message, count, polls⟩ ⟨.write_all, count, 0⟩

theorem round_iff {running next : Running} :
    poll_round order connection running = some next ↔ Round order connection running next := by
  obtain ⟨client, count, polls⟩ := running
  unfold poll_round Running.step Running.operation
  constructor
  · intro stepped
    cases client with
    | set_nonblocking =>
      cases result : connection.set_nonblocking with
      | ok value =>
        simp only [result, Client.step] at stepped
        cases stepped
        exact .start result
      | error err => simp [result, Client.step] at stepped
    | read buffer =>
      cases result : connection.reads count with
      | ok bytes =>
        have fits := connection.fits count bytes result
        by_cases empty : bytes = []
        · subst empty
          simp only [result, Client.step, List.length_nil, if_true] at stepped
          cases stepped
          exact .leaves (.inl result)
        · simp only [result, Client.step, List.length_eq_zero_iff, empty, fits, if_true, if_false] at stepped
          cases stepped
          exact .data result empty
      | wouldBlock =>
        by_cases empty : buffer = []
        · subst empty
          simp only [result, Client.step, List.length_nil, gt_iff_lt, Nat.lt_irrefl, if_false] at stepped
          cases stepped
          exact .idle result
        · have some_ := List.length_pos_iff.mpr empty
          simp only [result, Client.step, gt_iff_lt, some_, if_true] at stepped
          cases stepped
          exact .leaves (.inr ⟨result, empty⟩)
      | failed =>
        simp only [result, Client.step] at stepped
        cases stepped
        exact .failed result
    | sleep buffer =>
      cases result : connection.elapsed count polls with
      | true =>
        simp only [result, Client.step, if_true] at stepped
        cases stepped
        exact .slept result
      | false => simp [result, Client.step] at stepped
    | wait message =>
      cases result : connection.elapsed count polls with
      | true =>
        simp only [result, Client.step, if_true] at stepped
        cases stepped
        exact .waited result
      | false => simp [result, Client.step] at stepped
    | write_all => simp [Client.step] at stepped
  · intro round
    cases round with
    | start ok => simp [Client.step, ok]
    | leaves ends =>
      rcases ends with closed | ⟨blocked, some_⟩
      · simp [Client.step, closed]
      · simp [Client.step, blocked, List.length_pos_iff.mpr some_]
    | data read some_ => simp [Client.step, read, some_, connection.fits _ _ read]
    | idle read => simp [Client.step, read]
    | failed read => simp [Client.step, read]
    | slept elapsed => simp [Client.step, elapsed]
    | waited elapsed => simp [Client.step, elapsed]

/-- The poll ends with `Pending` or `Ready`, and not by a panic. -/
theorem poll_ends {running : Running} (ended : poll_round order connection running = none) :
    (∃ client, running.step order connection = some (.pending client)) ∨
      ∃ result, running.step order connection = some (.ready result) := by
  obtain ⟨client, count, polls⟩ := running
  have total : ∃ polled, Running.step ⟨client, count, polls⟩ order connection = some polled ∧ polled ≠ .panics := by
    unfold Running.step Running.operation
    cases client with
    | set_nonblocking => cases result : connection.set_nonblocking <;> simp [Client.step]
    | read buffer =>
      cases result : connection.reads count with
      | ok bytes =>
        have fits := connection.fits count bytes result
        by_cases empty : bytes.length = 0 <;> simp [Client.step, empty, fits]
      | wouldBlock => by_cases empty : buffer.length > 0 <;> simp [Client.step, empty]
      | failed => simp [Client.step]
    | sleep buffer => cases result : connection.elapsed count polls <;> simp [Client.step]
    | wait message => cases result : connection.elapsed count polls <;> simp [Client.step]
    | write_all => simp [Client.step]
  obtain ⟨polled, stepped, fine⟩ := total
  cases polled with
  | continues client => simp [poll_round, stepped] at ended
  | pending client => exact .inl ⟨client, stepped⟩
  | ready result => exact .inr ⟨result, stepped⟩
  | panics => exact absurd rfl fine

/-- The states the task comes to, poll after poll. -/
inductive Visited (order : ByteOrder) (connection : Connection) : Running → Prop
  | first : Visited order connection ⟨.set_nonblocking, 0, 0⟩
  | round {running next} (earlier : Visited order connection running)
      (goes_on : poll_round order connection running = some next) : Visited order connection next
  | again {running next} (earlier : Visited order connection running)
      (pending : poll_again order connection running = some next) : Visited order connection next

/-- From this state the poll makes finitely many operations, and returns `Pending` or `Ready`. -/
def Returns (order : ByteOrder) (connection : Connection) (running : Running) : Prop :=
  ∃ fuel final, loop (poll_round order connection) fuel running = some final ∧
    ((∃ client, final.step order connection = some (.pending client)) ∨
      ∃ result, final.step order connection = some (.ready result))

theorem returns_iff {running : Running} :
    Returns order connection running ↔ Stops (poll_round order connection) running := by
  constructor
  · intro returns
    obtain ⟨fuel, final, ended, _⟩ := returns
    exact ⟨fuel, final, ended⟩
  · intro stops
    obtain ⟨fuel, final, ended⟩ := stops
    exact ⟨fuel, final, ended, poll_ends (loop_ended ended)⟩

/-- In the loop, after so many reads: none of them has left it, and the buffer holds what they have brought. -/
structure Looping (connection : Connection) (count : Nat) (buffer : List UInt8) : Prop where
  nonblocking : connection.set_nonblocking = .ok ()
  inside : ∀ earlier < count, ¬ connection.leaves earlier
  buffered : buffer ≠ [] ↔ connection.sent count

def Kept (connection : Connection) (running : Running) : Prop :=
  match running.client with
  | .set_nonblocking => running.reads = 0
  | .read buffer => Looping connection running.reads buffer
  | .sleep buffer => buffer = [] ∧ Looping connection running.reads buffer
  | .wait _ | .write_all => True

theorem Looping.next {count : Nat} {buffer after : List UInt8} (looping : Looping connection count buffer)
    (stays : ¬ connection.leaves count) (grown : after ≠ [] ↔ connection.sent (count + 1)) :
    Looping connection (count + 1) after where
  nonblocking := looping.nonblocking
  inside := by
    intro earlier before
    rcases Nat.lt_succ_iff_lt_or_eq.mp before with older | same
    · exact looping.inside earlier older
    · exact same ▸ stays
  buffered := grown

theorem Kept.round {running next : Running} (kept : Kept connection running) (round : Round order connection running next) :
    Kept connection next := by
  cases round with
  | start ok =>
    have none : _ = 0 := kept
    subst none
    exact ⟨ok, fun earlier before => absurd before (Nat.not_lt_zero earlier), by simp [Connection.sent]⟩
  | leaves => trivial
  | data read some_ =>
    apply Looping.next kept
    · simp [Connection.leaves, read, some_]
    · simp [connection.sent_succ, read, some_]
  | idle read =>
    refine ⟨rfl, Looping.next kept ?_ ?_⟩
    · have unsent := kept.buffered
      simp [Connection.leaves, read, ← unsent]
    · have unsent := kept.buffered
      simp [connection.sent_succ, read, ← unsent]
  | failed read =>
    apply Looping.next kept
    · simp [Connection.leaves, read]
    · have same := kept.buffered
      simp [connection.sent_succ, read, same]
  | slept elapsed => exact kept.2
  | waited elapsed => trivial

theorem again_same {running next : Running} (pending : poll_again order connection running = some next) :
    next = { running with polls := running.polls + 1 } := by
  obtain ⟨client, count, polls⟩ := running
  unfold poll_again Running.step Running.operation at pending
  cases client with
  | set_nonblocking => cases result : connection.set_nonblocking <;> simp [result, Client.step] at pending
  | read buffer =>
    cases result : connection.reads count with
    | ok bytes =>
      have fits := connection.fits count bytes result
      by_cases empty : bytes.length = 0 <;> simp [result, Client.step, empty, fits] at pending
    | wouldBlock => by_cases empty : buffer.length > 0 <;> simp [result, Client.step, empty] at pending
    | failed => simp [result, Client.step] at pending
  | sleep buffer | wait message =>
    cases result : connection.elapsed count polls with
    | true => simp [result, Client.step] at pending
    | false =>
      simp only [result, Client.step] at pending
      cases pending
      rfl
  | write_all => simp [Client.step] at pending

theorem Visited.kept {running : Running} (visited : Visited order connection running) : Kept connection running := by
  induction visited with
  | first => rfl
  | round earlier goes_on ih => exact ih.round (round_iff.mp goes_on)
  | again earlier pending ih =>
    rw [again_same pending]
    exact ih

section stops
variable {count polls : Nat}

theorem stops_here {running : Running} (none : ∀ next, ¬ Round order connection running next) :
    Stops (poll_round order connection) running :=
  .here (Option.eq_none_iff_forall_ne_some.mpr fun next goes_on => none next (round_iff.mp goes_on))

theorem stops_round {running next : Running} (round : Round order connection running next)
    (stops : Stops (poll_round order connection) next) : Stops (poll_round order connection) running :=
  (stops_round_iff (round_iff.mpr round)).mpr stops

theorem stops_write_all : Stops (poll_round order connection) ⟨.write_all, count, polls⟩ := by
  apply stops_here
  intro next round
  cases round

/-- Behind the loop there is one sleep and one `write_all`. -/
theorem stops_wait (message : Except ErrorKind Data) : Stops (poll_round order connection) ⟨.wait message, count, polls⟩ := by
  cases passed : connection.elapsed count polls with
  | true => exact stops_round (.waited passed) stops_write_all
  | false =>
    apply stops_here
    intro next round
    cases round with
    | waited elapsed => exact Bool.false_ne_true (passed.symm.trans elapsed)

/-- A sleep ends the poll unless it is over. -/
theorem stops_sleep {buffer : List UInt8}
    (stops : connection.elapsed count polls = true → Stops (poll_round order connection) ⟨.read buffer, count, 0⟩) :
    Stops (poll_round order connection) ⟨.sleep buffer, count, polls⟩ := by
  cases passed : connection.elapsed count polls with
  | true => exact stops_round (.slept passed) (stops passed)
  | false =>
    apply stops_here
    intro next round
    cases round with
    | slept elapsed => exact Bool.false_ne_true (passed.symm.trans elapsed)

/-- A poll in the loop returns at the first read that leaves it or awaits. -/
theorem Looping.stops {buffer : List UInt8} (looping : Looping connection count buffer) (ahead : Nat)
    (returns : connection.leaves (count + ahead) ∨ connection.sleeps (count + ahead)) :
    Stops (poll_round order connection) ⟨.read buffer, count, polls⟩ := by
  induction ahead generalizing count buffer polls with
  | zero =>
    rw [Nat.add_zero] at returns
    rcases returns with leaves | sleeps
    · apply stops_round (.leaves _) (stops_wait _)
      exact leaves.imp_right fun blocked => ⟨blocked.1, looping.buffered.mpr blocked.2⟩
    · by_cases empty : buffer = []
      · subst empty
        apply stops_round (.idle sleeps.1)
        apply stops_sleep
        intro passed
        exact absurd (sleeps.2.symm.trans passed) Bool.false_ne_true
      · exact stops_round (.leaves (.inr ⟨sleeps.1, empty⟩)) (stops_wait _)
  | succ ahead ih =>
    have later : connection.leaves (count + 1 + ahead) ∨ connection.sleeps (count + 1 + ahead) := by
      rw [Nat.add_right_comm]
      exact returns
    have kept : Kept connection ⟨.read buffer, count, polls⟩ := looping
    have on {after : List UInt8} (round : Round order connection ⟨.read buffer, count, polls⟩ ⟨.read after, count + 1, 0⟩) :
        Stops (poll_round order connection) ⟨.read buffer, count, polls⟩ :=
      stops_round round (ih (kept.round round) later)
    cases read : connection.reads count with
    | ok bytes =>
      by_cases empty : bytes = []
      · exact stops_round (.leaves (.inl (empty ▸ read))) (stops_wait _)
      · exact on (.data read empty)
    | wouldBlock =>
      by_cases empty : buffer = []
      · subst empty
        have idle := @Round.idle order connection count polls read
        apply stops_round idle
        apply stops_sleep
        intro _
        exact ih (kept.round idle).2 later
      · exact stops_round (.leaves (.inr ⟨read, empty⟩)) (stops_wait _)
    | failed => exact on (.failed read)

end stops

section spins
variable {count : Nat}

/-- Every `Sleep` of the loop is over in some poll. -/
theorem visited_slept (asleep : Visited order connection ⟨.sleep [], count, 0⟩) :
    Visited order connection ⟨.read [], count, 0⟩ := by
  obtain ⟨polls, passed, first⟩ : ∃ polls, connection.elapsed count polls = true ∧
      ∀ earlier < polls, ¬ connection.elapsed count earlier = true :=
    ⟨_, Nat.find_spec (connection.over_at_last count), fun _ before => Nat.find_min (connection.over_at_last count) before⟩
  have still (earlier : Nat) (before : earlier ≤ polls) : Visited order connection ⟨.sleep [], count, earlier⟩ := by
    induction earlier with
    | zero => exact asleep
    | succ earlier ih =>
      have early : connection.elapsed count earlier = false := by simpa using first earlier before
      apply Visited.again (ih (Nat.le_of_succ_le before))
      simp [poll_again, Running.step, Running.operation, Client.step, early]
  exact .round (still polls (Nat.le_refl _)) (round_iff.mpr (.slept passed))

/-- A task that never leaves the loop comes to every read. -/
theorem visited_read (nonblocking : connection.set_nonblocking = .ok ()) (stays : ∀ count, ¬ connection.leaves count)
    (count : Nat) : ∃ buffer polls, Visited order connection ⟨.read buffer, count, polls⟩ := by
  induction count with
  | zero => exact ⟨[], 0, .round .first (round_iff.mpr (.start nonblocking))⟩
  | succ count ih =>
    obtain ⟨buffer, polls, visited⟩ := ih
    have looping : Looping connection count buffer := visited.kept
    cases read : connection.reads count with
    | ok bytes =>
      have some_ : bytes ≠ [] := fun empty => stays count (.inl (empty ▸ read))
      exact ⟨_, _, .round visited (round_iff.mpr (.data read some_))⟩
    | wouldBlock =>
      have empty : buffer = [] := by
        by_contra some_
        exact stays count (.inr ⟨read, looping.buffered.mp some_⟩)
      subst empty
      exact ⟨_, _, visited_slept (.round visited (round_iff.mpr (.idle read)))⟩
    | failed => exact ⟨_, _, .round visited (round_iff.mpr (.failed read))⟩

/-- In the loop, or in a sleep of it that is over already. -/
def Spins (connection : Connection) (start : Nat) (running : Running) : Prop :=
  start ≤ running.reads ∧
    match running.client with
    | .read buffer => Looping connection running.reads buffer
    | .sleep buffer => (buffer = [] ∧ Looping connection running.reads buffer) ∧
      connection.elapsed running.reads running.polls = true
    | _ => False

/-- Reads that only fail, and sleeps that are over at once, keep the poll in the loop. -/
theorem Spins.not_stops {start : Nat} {running : Running} (stays : ∀ count, ¬ connection.leaves count)
    (busy : ∀ count, start ≤ count →
      connection.reads count = .failed ∨ connection.reads count = .wouldBlock ∧ connection.elapsed (count + 1) 0 = true)
    (spins : Spins connection start running) : ¬ Stops (poll_round order connection) running := by
  refine Library.not_stops (Spins connection start) ?_ spins
  intro running spins
  obtain ⟨client, count, polls⟩ := running
  obtain ⟨late, spins⟩ := spins
  have kept : Kept connection ⟨client, count, polls⟩ := by
    cases client with
    | read buffer => exact spins
    | sleep buffer => exact spins.1
    | set_nonblocking | wait message | write_all => exact spins.elim
  cases client with
  | read buffer =>
    rcases busy count late with failed | ⟨blocked, passed⟩
    · have round := @Round.failed order connection buffer count polls failed
      exact ⟨_, round_iff.mpr round, Nat.le_succ_of_le late, kept.round round⟩
    · have empty : buffer = [] := by
        by_contra some_
        exact stays count (.inr ⟨blocked, spins.buffered.mp some_⟩)
      subst empty
      have round := @Round.idle order connection count polls blocked
      exact ⟨_, round_iff.mpr round, Nat.le_succ_of_le late, kept.round round, passed⟩
  | sleep buffer =>
    have round := @Round.slept order connection buffer count polls spins.2
    exact ⟨_, round_iff.mpr round, late, kept.round round⟩
  | set_nonblocking | wait message | write_all => exact spins.elim

end spins

/-- A task that stays in the loop, and whose polls all return, sleeps again and again. -/
theorem sleeping_of_stops (finite : ∃ start, ∀ count bytes, start ≤ count → connection.reads count = .ok bytes → bytes = [])
    (nonblocking : connection.set_nonblocking = .ok ()) (stays : ∀ count, ¬ connection.leaves count)
    (stops : ∀ running, Visited order connection running → Stops (poll_round order connection) running) (start : Nat) :
    ∃ count, start ≤ count ∧ connection.sleeps count := by
  by_contra awake
  simp only [not_exists, not_and] at awake
  obtain ⟨dry, finite⟩ := finite
  obtain ⟨buffer, polls, visited⟩ := @visited_read order connection nonblocking stays (max start dry)
  refine @Spins.not_stops order connection (max start dry) _ stays ?_ ⟨Nat.le_refl _, visited.kept⟩ (stops _ visited)
  intro count late
  cases read : connection.reads count with
  | ok bytes =>
    have empty := finite count bytes (Nat.le_trans (Nat.le_max_right _ _) late) read
    exact absurd (.inl (empty ▸ read)) (stays count)
  | wouldBlock =>
    have passed := awake count (Nat.le_trans (Nat.le_max_left _ _) late)
    exact .inr ⟨rfl, by simpa [Connection.sleeps, read] using passed⟩
  | failed => exact .inl rfl

/-- Wherever a poll starts, it returns if every read loop does. -/
theorem Visited.stops {running : Running} (visited : Visited order connection running)
    (loops : ∀ {count polls : Nat} {buffer : List UInt8}, Looping connection count buffer →
      Stops (poll_round order connection) ⟨.read buffer, count, polls⟩) :
    Stops (poll_round order connection) running := by
  obtain ⟨client, count, polls⟩ := running
  have kept := visited.kept
  cases client with
  | set_nonblocking =>
    cases result : connection.set_nonblocking with
    | ok value =>
      have round := @Round.start order connection count polls result
      exact stops_round round (loops (kept.round round))
    | error err =>
      apply stops_here
      intro next round
      cases round with
      | start ok => exact nomatch result.symm.trans ok
  | read buffer => exact loops kept
  | sleep buffer =>
    apply stops_sleep
    intro _
    exact loops kept.2
  | wait message => exact stops_wait message
  | write_all => exact stops_write_all

/-- On a connection that brings data finitely often every poll returns, if and
only if the loop is left or never begun, or awaits again and again. -/
theorem polls_return_iff (order : ByteOrder) (connection : Connection)
    (finite : ∃ start, ∀ count bytes, start ≤ count → connection.reads count = .ok bytes → bytes = []) :
    (∀ running, Visited order connection running → Returns order connection running) ↔
      (∃ err, connection.set_nonblocking = .error err) ∨ (∃ count, connection.leaves count) ∨
        ∀ start, ∃ count, start ≤ count ∧ connection.sleeps count := by
  simp only [returns_iff]
  constructor
  · intro stops
    cases result : connection.set_nonblocking with
    | error err => exact .inl ⟨err, rfl⟩
    | ok value =>
      by_cases left : ∃ count, connection.leaves count
      · exact .inr (.inl left)
      · exact .inr (.inr (sleeping_of_stops finite result (not_exists.mp left) stops))
  · intro either running visited
    apply visited.stops
    intro count polls buffer looping
    rcases either with ⟨err, failed⟩ | ⟨last, leaves⟩ | sleeping
    · exact nomatch failed.symm.trans looping.nonblocking
    · have ahead : count ≤ last := by
        by_contra before
        exact looping.inside last (Nat.lt_of_not_le before) leaves
      obtain ⟨more, rfl⟩ := Nat.exists_eq_add_of_le ahead
      exact looping.stops more (.inl leaves)
    · obtain ⟨later, after, sleeps⟩ := sleeping count
      obtain ⟨more, rfl⟩ := Nat.exists_eq_add_of_le after
      exact looping.stops more (.inr sleeps)

/-- A connection whose reads all have one result. -/
def steady (result : ReadResult) (fits : ∀ bytes, result = .ok bytes → bytes.length ≤ local_buf_len) : Connection where
  set_nonblocking := .ok ()
  reads := fun _ => result
  elapsed := fun _ polls => polls > 2
  write_all := [.ok 14]
  fits := fun _ => fits
  over_at_last := fun _ => ⟨3, rfl⟩

/-- Nothing has come at the first read, then two bytes come, and then the end. -/
def arriving : Connection where
  set_nonblocking := .ok ()
  reads count := [.wouldBlock, .ok [1, 2]].getD count (.ok [])
  elapsed := fun _ polls => polls > 2
  write_all := [.ok 14]
  fits := by
    intro count bytes read
    match count, read with
    | 0, read => cases read
    | 1, read => cases read; decide
    | _ + 2, read => cases read; exact Nat.zero_le _
  over_at_last := fun _ => ⟨3, rfl⟩

/-- Its task sleeps twice, with the loop between the sleeps. -/
theorem polls_return_iff_arriving :
    (∀ running, Visited .little arriving running → Returns .little arriving running) ∧ arriving.sleeps 0 ∧ arriving.leaves 2 := by
  have ended : ∀ count bytes, 2 ≤ count → arriving.reads count = .ok bytes → bytes = [] := by
    intro count bytes late read
    match count, late, read with
    | _ + 2, _, read => exact (ReadResult.ok.inj read).symm
  have leaves : arriving.leaves 2 := .inl rfl
  exact ⟨(polls_return_iff .little arriving ⟨2, ended⟩).mpr (.inr (.inl ⟨2, leaves⟩)), ⟨rfl, rfl⟩, leaves⟩

/-- A connection that has been reset. -/
theorem not_polls_return :
    ¬ ∀ (order : ByteOrder) (connection : Connection),
      (∃ start, ∀ count bytes, start ≤ count → connection.reads count = .ok bytes → bytes = []) →
        ∀ running, Visited order connection running → Returns order connection running := by
  intro always
  have never : ∀ bytes, ReadResult.failed = .ok bytes → bytes.length ≤ local_buf_len := fun _ read => nomatch read
  have returns := always .little (steady .failed never) ⟨0, fun _ _ _ read => nomatch read⟩ ⟨.read [], 0, 0⟩
    (.round .first (round_iff.mpr (.start rfl)))
  have spins : Spins (steady .failed never) 0 ⟨.read [], 0, 0⟩ :=
    ⟨Nat.le_refl 0, rfl, fun earlier before => absurd before (Nat.not_lt_zero earlier), by simp [Connection.sent]⟩
  refine spins.not_stops ?_ (fun _ _ => .inl rfl) (returns_iff.mp returns)
  intro count leaves
  rcases leaves with closed | blocked
  · cases closed
  · cases blocked.1

end RustAsyncAwait.Server
