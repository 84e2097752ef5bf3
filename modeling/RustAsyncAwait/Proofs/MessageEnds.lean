import RustAsyncAwait.ClientServer
import RustAsyncAwait.Proofs.CutMessages
import RustAsyncAwait.Proofs.ReceiverStream

/-! A message of chap10 at both ends. The server decodes it to itself or not at
all, and its answer says nothing about that. -/

namespace RustAsyncAwait.ClientServer
open Library DataLayer Server Sender Receiver

variable {order : ByteOrder} {data : Data} {state next : State} {event : Event} {trace : List Event}

/-- All that one step can do. -/
inductive Step (order : ByteOrder) (data : Data) (state : State) : Event → State → Prop
  | connects (at_client : state.client = .connecting) :
      Step order data state (.connect true) { state with client := .sending, sender := ⟨[], data.serialize order⟩ }
  | refused (at_client : state.client = .connecting) :
      Step order data state (.connect false) { state with client := .returned (.error .connect) }
  | sends {attempt : Sender.Attempt} {sender : TcpSender} {result : PollResult (Except WriteError Unit)}
      (at_client : state.client = .sending) (polled : state.sender.poll attempt = (sender, result)) :
      Step order data state (.send attempt) { state with client := .sent result, sender }
  | receives {attempt : Receiver.Attempt Unit} (at_client : state.client = .receiving)
      (possible : state.possible (.receive attempt)) :
      Step order data state (.receive attempt)
        { state with
          client := .received (state.receiver.poll attempt).result
          receiver := (state.receiver.poll attempt).receiver }
  | serves {operation : Operation} {client : Client} {polled : Polled} (connected : state.client ≠ .connecting)
      (possible : state.possible (.serve operation)) (at_server : state.server = .handle_client client)
      (moved : client.step order operation = some polled) :
      Step order data state (.serve operation)
        { state with
          server := .polled polled
          read := state.read + (read_bytes operation).length
          answer := state.answer ++ written_bytes operation }

theorem step_cases (stepped : step order data state event = some next) : Step order data state event next := by
  unfold step at stepped
  obtain ⟨possible, stepped⟩ := Option.ite_none_right_eq_some.mp stepped
  cases event with
  | connect connected =>
    simp only at stepped
    split at stepped
    · rename_i at_client
      cases connected with
      | true => cases stepped; exact .connects at_client
      | false => cases stepped; exact .refused at_client
    · cases stepped
  | send attempt =>
    simp only at stepped
    split at stepped
    · rename_i at_client
      cases stepped
      exact .sends at_client rfl
    · cases stepped
  | receive attempt =>
    simp only at stepped
    split at stepped
    · rename_i at_client
      cases stepped
      exact .receives at_client possible
    · cases stepped
  | serve operation =>
    simp only at stepped
    split at stepped
    · cases stepped
    · rename_i at_server connected
      obtain ⟨polled, moved, rfl⟩ := Option.map_eq_some_iff.mp stepped
      exact .serves connected possible at_server moved
    · cases stepped

/-- A poll of `TcpSender` that leaves with a part of the message written. The next one writes it again. -/
def Torn (order : ByteOrder) (data : Data) : Sender.Attempt → Prop
  | .writes outcomes => (write_all (data.serialize order) outcomes).2 = .error .wouldBlock ∧
      (write_all (data.serialize order) outcomes).1 ≠ []
  | .contended | .refused => False

/-- What one operation of `handle_client` does. -/
inductive Does (order : ByteOrder) : Client → Operation → Serving → Prop
  | nonblocking : Does order .set_nonblocking (.set_nonblocking (.ok ())) (.handle_client (.read []))
  | refused {err : WriteError} : Does order .set_nonblocking (.set_nonblocking (.error err)) (.returned (.error err))
  | reads {buffer bytes : List UInt8} : Does order (.read buffer) (.read (.ok bytes)) (.handle_client (.read (buffer ++ bytes)))
  | ends {buffer : List UInt8} : Does order (.read buffer) (.read (.ok [])) (.handle_client (.wait (decode order buffer)))
  | blocked {buffer : List UInt8} : Does order (.read buffer) (.read .wouldBlock) (.handle_client (.wait (decode order buffer)))
  | dozes {buffer : List UInt8} : Does order (.read buffer) (.read .wouldBlock) (.handle_client (.sleep buffer))
  | fails {buffer : List UInt8} : Does order (.read buffer) (.read .failed) (.handle_client (.read buffer))
  | sleeps {buffer : List UInt8} {client : Client} {elapsed : Bool} (goes_on : client = .sleep buffer ∨ client = .read buffer) :
      Does order (.sleep buffer) (.sleep elapsed) (.handle_client client)
  | waits {message : Except ErrorKind Data} {client : Client} {elapsed : Bool}
      (goes_on : client = .wait message ∨ client = .write_all) :
      Does order (.wait message) (.sleep elapsed) (.handle_client client)
  | writes {outcomes : List WriteResult} :
      Does order .write_all (.write_all outcomes) (.returned (Library.write_all hello outcomes).2)

theorem client_does {client : Client} {operation : Operation} {polled : Polled}
    (moved : client.step order operation = some polled) (fits : operation.fits = true) :
    Does order client operation (.polled polled) := by
  unfold Client.step at moved
  split at moved
  case h_3 buffer bytes =>
    simp only at moved
    split at moved
    · rename_i empty
      cases moved
      rw [List.eq_nil_of_length_eq_zero empty]
      exact .ends
    · rw [if_pos (of_decide_eq_true fits)] at moved
      cases moved
      exact .reads
  case h_4 =>
    split at moved <;> cases moved
    · exact .blocked
    · exact .dozes
  case h_6 =>
    split at moved <;> cases moved
    · exact .sleeps (.inr rfl)
    · exact .sleeps (.inl rfl)
  case h_7 =>
    split at moved <;> cases moved
    · exact .waits (.inr rfl)
    · exact .waits (.inl rfl)
  case h_1 => cases moved; exact .nonblocking
  case h_2 => cases moved; exact .refused
  case h_5 => cases moved; exact .fails
  case h_8 => cases moved; exact .writes
  case h_9 => cases moved

/-- What `handle_client` has made of the bytes that it has read. -/
inductive Handles (order : ByteOrder) (bytes : List UInt8) : Serving → Prop
  | set_nonblocking (unread : bytes = []) : Handles order bytes (.handle_client .set_nonblocking)
  | read : Handles order bytes (.handle_client (.read bytes))
  | sleep : Handles order bytes (.handle_client (.sleep bytes))
  | wait : Handles order bytes (.handle_client (.wait (decode order bytes)))
  | write_all : Handles order bytes (.handle_client .write_all)
  | returned {result : Except WriteError Unit} : Handles order bytes (.returned result)

/-- One operation, whose bytes have been read behind the others. -/
theorem Handles.step {bytes : List UInt8} {client : Client} {operation : Operation} {after : Serving}
    (handles : Handles order bytes (.handle_client client)) (does : Does order client operation after) :
    Handles order (bytes ++ read_bytes operation) after := by
  have nothing : bytes ++ [] = bytes := List.append_nil bytes
  cases does with
  | nonblocking =>
    cases handles with
    | set_nonblocking unread =>
      rw [unread]
      exact .read
  | refused | writes => exact .returned
  | reads =>
    cases handles with
    | read => exact .read
  | ends | blocked =>
    cases handles with
    | read =>
      rw [read_bytes, ReadResult.bytes, nothing]
      exact .wait
  | dozes =>
    cases handles with
    | read =>
      rw [read_bytes, ReadResult.bytes, nothing]
      exact .sleep
  | fails =>
    cases handles with
    | read =>
      rw [read_bytes, ReadResult.bytes, nothing]
      exact .read
  | sleeps goes_on =>
    cases handles with
    | sleep =>
      rw [read_bytes, nothing]
      rcases goes_on with rfl | rfl
      · exact .sleep
      · exact .read
  | waits goes_on =>
    cases handles with
    | wait =>
      rw [read_bytes, nothing]
      rcases goes_on with rfl | rfl
      · exact .wait
      · exact .write_all

/-- A read of the server that is possible fits `local_buf`. -/
theorem possible_fits {operation : Operation} (possible : state.possible (.serve operation)) : operation.fits = true := by
  cases operation with
  | read result =>
    cases result with
    | ok bytes => exact decide_eq_true possible.2
    | wouldBlock | failed => rfl
  | set_nonblocking | sleep | write_all => rfl

/-- The bytes on the connection, and what the server has made of those that it has read. -/
structure Decodes (order : ByteOrder) (data : Data) (state : State) : Prop where
  buffer : state.client = .sending → state.sender.buffer = data.serialize order ∧ state.sender.stream = []
  stream : state.sender.stream <+: data.serialize order
  connecting : state.client = .connecting → state.sender.stream = [] ∧ state.read = 0
  read : state.read ≤ state.sender.stream.length
  server : Handles order (state.sender.stream.take state.read) state.server

theorem write_all_result (buffer : List UInt8) (outcomes : List WriteResult) :
    (write_all buffer outcomes).1 <+: buffer ∧
      ((write_all buffer outcomes).1 = buffer ↔ (write_all buffer outcomes).2 = .ok ()) := by
  cases outcome : (write_all buffer outcomes).2 with
  | ok done =>
    rw [write_all_ok outcome]
    exact ⟨List.prefix_refl _, by simp⟩
  | error err =>
    obtain ⟨rest, more, split⟩ := write_all_error outcome
    refine ⟨⟨rest, split⟩, ?_⟩
    simp only [reduceCtorEq, iff_false]
    intro whole
    rw [whole] at split
    exact more (List.append_right_eq_self.mp split)

/-- What `TcpSender` has put on the stream: nothing, or the message, or a part of it when it fails. -/
theorem poll_untorn {sender after : TcpSender} {attempt : Sender.Attempt} {result : PollResult (Except WriteError Unit)}
    (buffer : sender.buffer = data.serialize order) (empty : sender.stream = []) (whole : ¬ Torn order data attempt)
    (polled : sender.poll attempt = (after, result)) :
    after.buffer = data.serialize order ∧ after.stream <+: data.serialize order ∧ (result = .pending → after.stream = []) := by
  obtain ⟨stream, message⟩ := sender
  simp only at buffer empty
  subst buffer empty
  cases attempt with
  | contended =>
    cases polled
    exact ⟨rfl, List.nil_prefix, fun _ => rfl⟩
  | refused =>
    cases polled
    exact ⟨rfl, List.nil_prefix, fun _ => rfl⟩
  | writes outcomes =>
    have part := (write_all_result (data.serialize order) outcomes).1
    simp only [TcpSender.poll] at polled
    split at polled
    · cases polled
      exact ⟨rfl, part, nofun⟩
    · rename_i blocked
      cases polled
      refine ⟨rfl, part, fun _ => ?_⟩
      by_contra some_
      exact whole ⟨blocked, some_⟩
    · cases polled
      exact ⟨rfl, part, nofun⟩

theorem Decodes.step (decodes : Decodes order data state) (whole : ∀ attempt, event = .send attempt → ¬ Torn order data attempt)
    (stepped : Step order data state event next) : Decodes order data next := by
  cases stepped with
  | connects at_client =>
    obtain ⟨_, unread⟩ := decodes.connecting at_client
    refine ⟨fun _ => ⟨rfl, rfl⟩, List.nil_prefix, nofun, by rw [unread]; exact Nat.zero_le _, ?_⟩
    have server := decodes.server
    rw [unread] at server ⊢
    exact server
  | refused at_client =>
    exact ⟨nofun, decodes.stream, nofun, decodes.read, decodes.server⟩
  | @sends attempt sender result at_client polled =>
    obtain ⟨buffer, empty⟩ := decodes.buffer at_client
    have unread : state.read = 0 := by
      have read := decodes.read
      rw [empty] at read
      exact Nat.le_zero.mp read
    obtain ⟨still, part, pending⟩ := poll_untorn buffer empty (whole attempt rfl) polled
    refine ⟨fun sending => ⟨still, pending ?_⟩, part, ?_, by rw [unread]; exact Nat.zero_le _, ?_⟩
    · cases result with
      | pending => rfl
      | ready result => cases result <;> cases sending
    · intro again
      cases result with
      | pending => cases again
      | ready result => cases result <;> cases again
    · have server := decodes.server
      rw [unread] at server ⊢
      exact server
  | @receives attempt at_client possible =>
    have on : Sending.received (state.receiver.poll attempt).result ≠ .sending ∧
        Sending.received (state.receiver.poll attempt).result ≠ .connecting := by
      cases (state.receiver.poll attempt).result with
      | pending => simp [Sending.received]
      | ready result => cases result <;> simp [Sending.received]
    exact ⟨fun sending => absurd sending on.1, decodes.stream, fun again => absurd again on.2, decodes.read, decodes.server⟩
  | @serves operation client polled connected possible at_server moved =>
    have handles := decodes.server
    rw [at_server] at handles
    have brought : read_bytes operation <+: state.sender.stream.drop state.read := by
      cases operation with
      | read result =>
        cases result with
        | ok bytes => exact possible.1.1
        | wouldBlock | failed => exact List.nil_prefix
      | set_nonblocking | sleep | write_all => exact List.nil_prefix
    have more : state.sender.stream.take (state.read + (read_bytes operation).length) =
        state.sender.stream.take state.read ++ read_bytes operation := by
      rw [List.take_add, ← List.prefix_iff_eq_take.mp brought]
    refine ⟨decodes.buffer, decodes.stream, fun again => absurd again connected, ?_, ?_⟩
    · have length := brought.length_le
      have read := decodes.read
      rw [List.length_drop] at length
      simp only
      omega
    · rw [more]
      exact handles.step (client_does moved (possible_fits possible))

/-- Whatever the network does to a message that `TcpSender` has not torn, the
server decodes it to itself, or misses bytes of it, and never to another one. -/
theorem message_decoded {data : Data} (fits : data.fits) (reaches : (send_data order data).Reaches trace state)
    (whole : ∀ attempt, .send attempt ∈ trace → ¬ Torn order data attempt) {message : Except ErrorKind Data}
    (decoded : state.server = .handle_client (.wait message)) :
    (message = .ok data ∧ state.read = (data.serialize order).length) ∨
      (message = .error .unexpectedEof ∧ state.read < (data.serialize order).length) := by
  have decodes : Decodes order data state := by
    refine reaches.trace_invariant (fun trace state =>
      (∀ attempt, .send attempt ∈ trace → ¬ Torn order data attempt) → Decodes order data state) ?_ ?_ whole
    · intro _
      refine ⟨nofun, List.nil_prefix, fun _ => ⟨rfl, rfl⟩, Nat.le_refl 0, .set_nonblocking rfl⟩
    · intro trace state event next _ earlier stepped whole
      refine (earlier fun attempt member => whole attempt (List.mem_append_left _ member)).step ?_ (step_cases stepped)
      intro attempt same
      exact whole attempt (List.mem_append_right _ (List.mem_singleton.mpr same.symm))
  have handles := decodes.server
  rw [decoded] at handles
  cases handles with
  | wait =>
    have part : state.sender.stream.take state.read <+: data.serialize order := (List.take_prefix _ _).trans decodes.stream
    have length : (state.sender.stream.take state.read).length = state.read := List.length_take_of_le decodes.read
    by_cases same : state.sender.stream.take state.read = data.serialize order
    · left
      rw [same] at length ⊢
      refine ⟨?_, length.symm⟩
      rw [decode, deserialize_ok.mpr ⟨fits, List.prefix_refl _, rfl⟩]
    · right
      refine ⟨?_, ?_⟩
      · have cut : (Cursor.mk (state.sender.stream.take state.read) 0).remaining = state.sender.stream.take state.read := rfl
        rw [decode, deserialize_cut fits (cut ▸ part) (cut ▸ same)]
      · have less := Nat.lt_of_le_of_ne part.length_le fun equal => same (part.eq_of_length equal)
        rwa [length] at less

/-- The message comes in two parts, of which the server reads one before it finds no more. -/
def two_parts : List Event :=
  [.connect true, .serve (.set_nonblocking (.ok ())), .send .contended, .send (.writes [.wouldBlock]),
    .send (.writes [.ok 6, .ok 6]), .serve (.read (.ok [7, 0, 0, 0, 8, 0])), .serve (.read .wouldBlock)]

def hi : Data := ⟨7, 8, "hi"⟩

theorem message_decoded_two_parts : ∃ (state : State) (message : Except ErrorKind Data),
    (send_data .little hi).Reaches two_parts state ∧
      ((message = .ok hi ∧ state.read = (hi.serialize .little).length) ∨
        (message = .error .unexpectedEof ∧ state.read < (hi.serialize .little).length)) := by
  have reaches : (send_data .little hi).Reaches two_parts ⟨.receiving, ⟨[7, 0, 0, 0, 8, 0, 2, 0, 0, 0, 104, 105],
      [7, 0, 0, 0, 8, 0, 2, 0, 0, 0, 104, 105]⟩, ⟨[]⟩, .handle_client (.wait (.error .unexpectedEof)), 6, []⟩ := rfl
  refine ⟨_, _, reaches, message_decoded (by decide) reaches ?_ rfl⟩
  intro attempt member
  simp only [two_parts, List.mem_cons, Event.send.injEq, reduceCtorEq, false_or, List.not_mem_nil, or_false] at member
  rcases member with rfl | rfl | rfl
  · exact id
  · exact fun torn => torn.2 rfl
  · exact fun torn => by cases torn.1

/-- The hypothesis is needed: a sender that writes its first four bytes twice has another message printed. -/
example : (send_data .little ⟨0, 0, "a"⟩).Reaches
    [.connect true, .serve (.set_nonblocking (.ok ())), .send (.writes [.ok 4, .wouldBlock]), .send (.writes [.ok 11]),
      .serve (.read (.ok [0, 0, 0, 0, 0, 0, 0, 0, 0, 0, 1, 0, 0, 0, 97])), .serve (.read .wouldBlock)]
    ⟨.receiving, ⟨[0, 0, 0, 0, 0, 0, 0, 0, 0, 0, 1, 0, 0, 0, 97], [0, 0, 0, 0, 0, 0, 1, 0, 0, 0, 97]⟩, ⟨[]⟩,
      .handle_client (.wait (.ok ⟨0, 0, ""⟩)), 15, []⟩ := rfl

/-- What is on its way back. -/
structure Answers (state : State) : Prop where
  waiting : ∀ client, state.server = .handle_client client → state.answer = []
  part : state.answer <+: hello
  result : ∀ result, state.server = .returned result → (state.answer = hello ↔ result = .ok ())
  unpanicked : state.server ≠ .panicked
  buffer : state.receiver.buffer <+: state.answer
  client : ∀ text, state.client = .returned (.ok text) → state.server.closed = true ∧ as_bytes text = state.answer
  valid : state.client ≠ .returned (.error .invalidUtf8)

theorem hello_ascii {bytes : List UInt8} (part : bytes <+: hello) : ∃ text, from_utf8 bytes = some text := by
  refine from_utf8_ascii fun byte member => ?_
  have all : ∀ byte ∈ hello, byte.toNat < 128 := by simp [hello]
  exact all byte (part.subset member)

theorem Answers.step (answers : Answers state) (stepped : Step order data state event next) : Answers next := by
  cases stepped with
  | connects | refused =>
    exact ⟨answers.waiting, answers.part, answers.result, answers.unpanicked, answers.buffer, by simp, by simp⟩
  | @sends attempt sender result =>
    refine ⟨answers.waiting, answers.part, answers.result, answers.unpanicked, answers.buffer, ?_, ?_⟩
    · intro text returned
      cases result with
      | pending => cases returned
      | ready result => cases result <;> cases returned
    · cases result with
      | pending => simp [Sending.sent]
      | ready result => cases result <;> simp [Sending.sent]
  | @receives attempt at_client possible =>
    have still {receiver : TcpReceiver} {client : Sending} (buffer : receiver.buffer <+: state.answer)
        (ok : ∀ text, client = .returned (.ok text) → state.server.closed = true ∧ as_bytes text = state.answer)
        (valid : client ≠ .returned (.error .invalidUtf8)) : Answers { state with client, receiver } :=
      ⟨answers.waiting, answers.part, answers.result, answers.unpanicked, buffer, ok, valid⟩
    cases attempt with
    | contended => exact still answers.buffer (by simp [TcpReceiver.poll, Sending.received]) (by simp [TcpReceiver.poll, Sending.received])
    | refused err => exact still answers.buffer (by simp [TcpReceiver.poll, Sending.received]) (by simp [TcpReceiver.poll, Sending.received])
    | read result =>
      cases result with
      | error err => cases err <;> exact still answers.buffer (by simp [TcpReceiver.poll, Sending.received]) (by simp [TcpReceiver.poll, Sending.received])
      | ok chunk =>
        by_cases none_ : chunk.bytes.length = 0
        · obtain ⟨closed, arrived⟩ := possible.2 (List.eq_nil_of_length_eq_zero none_)
          have all : state.receiver.buffer = state.answer := by
            refine answers.buffer.eq_of_length (Nat.le_antisymm answers.buffer.length_le ?_)
            exact List.drop_eq_nil_iff.mp arrived
          obtain ⟨text, decoded⟩ := hello_ascii answers.part
          simp only [TcpReceiver.poll, none_, if_true, Sending.received, answered, all, decoded]
          refine still (all ▸ List.prefix_refl _) ?_ (by simp)
          intro other returned
          cases returned
          exact ⟨closed, (from_utf8_eq_some.mp decoded).symm⟩
        · simp only [TcpReceiver.poll, none_, if_false, Sending.received]
          refine still ?_ (by simp) (by simp)
          rw [chunk.local_buf_take]
          obtain ⟨rest, split⟩ := answers.buffer
          rw [← split]
          refine (List.prefix_append_right_inj _).mpr ?_
          have arrived := possible.1
          rwa [← split, List.drop_left] at arrived
  | @serves operation client polled connected possible at_server moved =>
    have empty := answers.waiting client at_server
    have returned (text : String) (returned : state.client = .returned (.ok text)) : False := by
      have closed := (answers.client text returned).1
      rw [at_server] at closed
      cases closed
    -- only `write_all` writes, and `handle_client` returns with it
    have rest {after : Serving} {answer : List UInt8} (waiting : ∀ client, after = .handle_client client → answer = [])
        (part : answer <+: hello) (result : ∀ result, after = .returned result → (answer = hello ↔ result = .ok ()))
        (unpanicked : after ≠ .panicked) :
        Answers { state with server := after, read := state.read + (read_bytes operation).length, answer } := by
      refine ⟨waiting, part, result, unpanicked, ?_, fun text ok => (returned text ok).elim, answers.valid⟩
      have buffer := answers.buffer
      rw [empty] at buffer
      rw [List.prefix_nil.mp buffer]
      exact List.nil_prefix
    have silent {after : Serving} (written : written_bytes operation = [])
        (same : ∀ result, after = .returned result → result ≠ .ok ()) (unpanicked : after ≠ .panicked) :
        Answers { state with
          server := after
          read := state.read + (read_bytes operation).length
          answer := written_bytes operation } := by
      rw [written]
      refine rest (fun _ _ => rfl) List.nil_prefix (fun result returned => ?_) unpanicked
      simp [same result returned, hello]
    have does := client_does moved (possible_fits possible)
    rw [empty, List.nil_append]
    generalize Serving.polled polled = after at does
    cases does with
    | @writes outcomes =>
      have result := write_all_result hello outcomes
      refine rest (by simp) result.1 (fun result returned => ?_) (by simp)
      cases returned
      exact result.2
    | refused => exact silent rfl (fun result returned => by cases returned; simp) (by simp)
    | nonblocking | reads | ends | blocked | dozes | fails | sleeps | waits => exact silent rfl (by simp) (by simp)

theorem hello_text : as_bytes "Hello, cliend!" = hello := by decide

/-- Whatever becomes of the message, a text that `send_data` returns is what
`handle_client` has written of its greeting, the whole of it just when that has
returned `Ok`; and it is never refused as invalid UTF-8. -/
theorem answer_received (reaches : (send_data order data).Reaches trace state) :
    (∀ text, state.client = .returned (.ok text) → as_bytes text <+: hello ∧
      ∃ result, state.server = .returned result ∧ (text = "Hello, cliend!" ↔ result = .ok ())) ∧
    state.client ≠ .returned (.error .invalidUtf8) := by
  have answers : Answers state := by
    refine reaches.invariant Answers ?_ fun state event next answers stepped => answers.step (step_cases stepped)
    exact ⟨fun _ _ => rfl, List.nil_prefix, nofun, nofun, List.prefix_refl _, nofun, nofun⟩
  refine ⟨fun text returned => ?_, answers.valid⟩
  obtain ⟨closed, same⟩ := answers.client text returned
  refine ⟨same ▸ answers.part, ?_⟩
  cases at_server : state.server with
  | handle_client client =>
    rw [at_server] at closed
    cases closed
  | panicked => exact absurd at_server answers.unpanicked
  | returned result =>
    refine ⟨result, rfl, ?_⟩
    rw [← answers.result result at_server, ← same, ← hello_text]
    exact ⟨fun same => by rw [same], as_bytes_inj⟩

/-- The message of `two_parts` is not decoded, and answered. -/
theorem answer_received_undecoded :
    let trace := two_parts ++ [.serve (.sleep true), .serve (.write_all [.ok 14]),
      .receive (.read (.ok ⟨hello, by decide⟩)), .receive (.read (.ok .eof))]
    ∃ state, (send_data .little hi).Reaches trace state ∧
      (∀ text, state.client = .returned (.ok text) → as_bytes text <+: hello ∧
        ∃ result, state.server = .returned result ∧ (text = "Hello, cliend!" ↔ result = .ok ())) ∧
      state.client ≠ .returned (.error .invalidUtf8) := by
  intro trace
  have reaches : (send_data .little hi).Reaches trace ⟨.returned (answered hello), ⟨[7, 0, 0, 0, 8, 0, 2, 0, 0, 0, 104, 105],
      [7, 0, 0, 0, 8, 0, 2, 0, 0, 0, 104, 105]⟩, ⟨hello⟩, .returned (.ok ()), 6, hello⟩ := rfl
  exact ⟨_, reaches, answer_received reaches⟩

end RustAsyncAwait.ClientServer
