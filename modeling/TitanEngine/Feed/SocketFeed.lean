import TitanEngine.Library.Fairness
import TitanEngine.Replay.EventReplayer

/-!
# Reading the feed from a socket

`SocketFeedReader` and `ItchSocketPipeline` of `src/feed/tcp`. What `stop_`, `poll` and `recv`
give in each pass of the loop is a script; the operating system constrains it through the bytes
the peer has sent and `recv` has not returned yet. The callback is any function on the state it
writes to.

The loop leaves on `POLLHUP` before it calls `recv`, and on a `poll` or a `recv` that a signal
interrupted, so bytes that are still unread then are lost. Without such an early end it reads the
stream to its end and hands every message on, and the pipeline ends as the replay of a file with the
same bytes does.
-/

namespace Titan

open Library

/-- `pfd.revents`. -/
structure Revents where
  /-- `POLLIN`. -/
  pollin : Bool
  /-- `POLLHUP`. -/
  pollhup : Bool
  /-- `POLLERR`. -/
  pollerr : Bool
  deriving DecidableEq, Repr

/-- What `poll` gives. -/
inductive PollResult where
  /-- Negative. -/
  | failed
  /-- Zero, after 200 ms. -/
  | timedOut
  /-- Positive. -/
  | ready (revents : Revents)
  deriving DecidableEq, Repr

/-- What `recv` gives if it is called. -/
inductive RecvResult where
  /-- Negative. -/
  | failed
  /-- The bytes received; none at the end of the stream. -/
  | data (bytes : List UInt8)
  deriving DecidableEq, Repr

/-- What one pass of the loop meets. -/
structure Turn where
  /-- `stop_.load()`. -/
  stop : Bool
  /-- `poll`. -/
  poll : PollResult
  /-- `recv`. -/
  recv : RecvResult
  deriving DecidableEq, Repr

/-- `SocketFeedReader`, with the state its callback writes to. -/
structure SocketFeedReader (σ : Type) where
  /-- `onMessage_`, if it is set. -/
  onMessage : Option (σ → ItchMessage → σ)
  /-- `parser_`. -/
  parser : ItchParser
  /-- `bytesReceived_`. -/
  bytesReceived : Nat
  /-- `running_`. -/
  running : Bool
  /-- What the callback writes to. -/
  target : σ

namespace SocketFeedReader

variable {σ : Type}

/-- `start`, after a connect that succeeded. -/
def start (onMessage : Option (σ → ItchMessage → σ)) (target : σ) : SocketFeedReader σ where
  onMessage := onMessage
  parser := ItchParser.init
  bytesReceived := 0
  running := true
  target := target

/-- The body of the loop over the results of `feed`. -/
def deliver (onMessage : Option (σ → ItchMessage → σ)) (target : σ) (result : ItchParseResult) :
    σ :=
  match onMessage with
  | some handler => if result.ok then handler target result.message else target
  | none => target

/-- `parser_.feed` on what was received, with the callbacks. -/
def receive (reader : SocketFeedReader σ) (bytes : List UInt8) : SocketFeedReader σ :=
  let (results, parser) := reader.parser.feed bytes
  { reader with
    parser := parser
    bytesReceived := reader.bytesReceived + bytes.length
    target := results.foldl (deliver reader.onMessage) reader.target }

/-- One pass of the loop of `recvLoop`. -/
def recvPass (reader : SocketFeedReader σ) (turn : Turn) : ForInStep (SocketFeedReader σ) :=
  if turn.stop then .done reader
  else
    match turn.poll with
    | .failed => .done reader
    | .timedOut => .yield reader
    | .ready revents =>
      if revents.pollhup || revents.pollerr then .done reader
      else
        match turn.recv with
        | .failed => .done reader
        | .data [] => .done reader
        | .data bytes => .yield (reader.receive bytes)

/-- `recvLoop`; after the script the loop is still running, unless it was left. -/
def recvLoop (reader : SocketFeedReader σ) : List Turn → SocketFeedReader σ
  | [] => reader
  | turn :: rest =>
    match reader.recvPass turn with
    | .done final => { final with running := false }
    | .yield next => next.recvLoop rest

end SocketFeedReader

/-- `ItchSocketPipeline`, as its callback sees it. -/
structure ItchSocketPipeline where
  /-- `checker_`, with the builder, the adapter and the registry. -/
  checker : ParityChecker
  /-- `messagesDecoded_`. -/
  messagesDecoded : Nat

namespace ItchSocketPipeline

/-- The constructor. -/
def init (allocator : SlabAllocator) (backend : MatcherBackend)
    (checkpointInterval : CheckpointInterval) (walk : List StockLocate → List StockLocate) :
    ItchSocketPipeline where
  checker := ParityChecker.init (ItchEngineAdapter.init (InstrumentRegistry.init allocator backend))
    checkpointInterval walk
  messagesDecoded := 0

/-- `onMessage`. -/
def onMessage (pipeline : ItchSocketPipeline) (message : ItchMessage) : ItchSocketPipeline where
  checker := pipeline.checker.process message
  messagesDecoded := pipeline.messagesDecoded + 1

/-- `start`, then `recvLoop`. -/
def read (pipeline : ItchSocketPipeline) (script : List Turn) :
    SocketFeedReader ItchSocketPipeline :=
  (SocketFeedReader.start (some onMessage) pipeline).recvLoop script

end ItchSocketPipeline

namespace Turn

/-- The bytes a pass receives; none if it leaves the loop. -/
def received (turn : Turn) : Option (List UInt8) :=
  if turn.stop then none
  else
    match turn.poll with
    | .failed => none
    | .timedOut => some []
    | .ready revents =>
      if revents.pollhup || revents.pollerr then none
      else
        match turn.recv with
        | .failed => none
        | .data [] => none
        | .data (byte :: bytes) => some (byte :: bytes)

/-- `poll` returns before its timeout. -/
def reports (turn : Turn) : Bool := decide (turn.poll ≠ .timedOut)

end Turn

/-- The bytes received before the loop is left. -/
def receivedBytes : List Turn → List UInt8
  | [] => []
  | turn :: rest =>
    match turn.received with
    | none => []
    | some bytes => bytes ++ receivedBytes rest

/-- One of the passes leaves the loop. -/
def leavesLoop (script : List Turn) : Bool := script.any (fun turn => turn.received.isNone)

/-- What a pass leaves unread. -/
def arrive (unread : List UInt8) (turn : Turn) : Unit × List UInt8 :=
  match turn.received with
  | none => ((), unread)
  | some bytes => ((), unread.drop bytes.length)

/-- What the operating system may answer while the given bytes, the rest of a stream the peer
ends with an orderly close, are unread. `stop` is not called and there is no socket error, but a
signal may interrupt `poll` or `recv`, which then fails. `recv` returns some of the next bytes that
fit its buffer, and none only at the end of the stream or into an empty buffer. Nothing is said
about `POLLHUP`. -/
def posixAllows (recvBufferSize : Nat) (unread : List UInt8) (turn : Turn) : Prop :=
  turn.stop = false ∧
    match turn.poll with
    | .failed => True
    | .timedOut => True
    | .ready revents =>
      revents.pollerr = false ∧
        match turn.recv with
        | .failed => True
        | .data bytes =>
          bytes <+: unread ∧ bytes.length ≤ recvBufferSize ∧
            (bytes = [] → unread = [] ∨ recvBufferSize = 0)

instance (recvBufferSize : Nat) (unread : List UInt8) :
    (turn : Turn) → Decidable (posixAllows recvBufferSize unread turn)
  | ⟨stop, .failed, _⟩ => inferInstanceAs (Decidable (stop = false ∧ True))
  | ⟨stop, .timedOut, _⟩ => inferInstanceAs (Decidable (stop = false ∧ True))
  | ⟨stop, .ready revents, .failed⟩ =>
    inferInstanceAs (Decidable (stop = false ∧ revents.pollerr = false ∧ True))
  | ⟨stop, .ready revents, .data bytes⟩ =>
    inferInstanceAs (Decidable (stop = false ∧ revents.pollerr = false ∧
      bytes <+: unread ∧ bytes.length ≤ recvBufferSize ∧
        (bytes = [] → unread = [] ∨ recvBufferSize = 0)))

/-- `POLLHUP` is reported, and `poll` or `recv` is interrupted, only when nothing is unread. -/
def drainedFirst (unread : List UInt8) (turn : Turn) : Prop :=
  match turn.poll with
  | .failed => unread = []
  | .timedOut => True
  | .ready revents => revents.pollhup = true ∨ turn.recv = .failed → unread = []

instance (unread : List UInt8) : (turn : Turn) → Decidable (drainedFirst unread turn)
  | ⟨_, .failed, _⟩ => inferInstanceAs (Decidable (unread = []))
  | ⟨_, .timedOut, _⟩ => inferInstanceAs (Decidable True)
  | ⟨_, .ready revents, recv⟩ =>
    inferInstanceAs (Decidable (revents.pollhup = true ∨ recv = .failed → unread = []))

/-- `poll` does not run into its timeout for ever: the bytes of the peer and its close arrive. -/
def Delivers (turns : Nat → Turn) : Prop :=
  ∀ time, ∃ turn, time ≤ turn ∧ (turns turn).reports = true

/-- What `recv` returns are the next bytes of the stream, whatever else happens. -/
def comesInOrder (unread : List UInt8) (turn : Turn) : Prop :=
  match turn.poll, turn.recv with
  | .ready _, .data bytes => bytes <+: unread
  | _, _ => True

instance (unread : List UInt8) : (turn : Turn) → Decidable (comesInOrder unread turn)
  | ⟨_, .failed, _⟩ => inferInstanceAs (Decidable True)
  | ⟨_, .timedOut, _⟩ => inferInstanceAs (Decidable True)
  | ⟨_, .ready _, .failed⟩ => inferInstanceAs (Decidable True)
  | ⟨_, .ready _, .data bytes⟩ => inferInstanceAs (Decidable (bytes <+: unread))

namespace Turn

variable {turn : Turn} {unread bytes : List UInt8} {recvBufferSize : Nat}

/-- A pass that goes on ran into the timeout, or `recv` returned what it receives. -/
theorem received_cases (goesOn : turn.received = some bytes) :
    (turn.poll = .timedOut ∧ bytes = []) ∨
      ∃ revents, turn.poll = .ready revents ∧ turn.recv = .data bytes ∧ bytes ≠ [] := by
  obtain ⟨stop, poll, recv⟩ := turn
  cases stop with
  | true => cases goesOn
  | false =>
    cases poll with
    | failed => cases goesOn
    | timedOut => exact .inl ⟨rfl, (Option.some.inj goesOn).symm⟩
    | ready revents =>
      obtain ⟨pollin, pollhup, pollerr⟩ := revents
      cases pollhup with
      | true => cases goesOn
      | false =>
        cases pollerr with
        | true => cases goesOn
        | false =>
          cases recv with
          | failed => cases goesOn
          | data chunk =>
            cases chunk with
            | nil => cases goesOn
            | cons byte chunk =>
              obtain rfl := Option.some.inj goesOn
              exact .inr ⟨_, rfl, rfl, List.cons_ne_nil _ _⟩

/-- A pass that goes on takes the bytes it receives off the stream. -/
theorem received_append (inOrder : comesInOrder unread turn)
    (goesOn : turn.received = some bytes) : bytes ++ (arrive unread turn).2 = unread := by
  rw [arrive, goesOn]
  rcases received_cases goesOn with ⟨_, rfl⟩ | ⟨revents, poll, recv, _⟩
  · rfl
  · rw [comesInOrder, poll, recv] at inOrder
    exact List.prefix_iff_eq_append.mp inOrder

/-- The operating system returns the bytes in order. -/
theorem comesInOrder_of_posixAllows (allowed : posixAllows recvBufferSize unread turn) :
    comesInOrder unread turn := by
  obtain ⟨stop, poll, recv⟩ := turn
  cases poll with
  | failed => trivial
  | timedOut => trivial
  | ready revents =>
    cases recv with
    | failed => trivial
    | data bytes => exact allowed.2.2.1

/-- The loop is not left before everything was read. -/
theorem unread_of_left (buffered : recvBufferSize ≠ 0 ∨ unread = [])
    (allowed : posixAllows recvBufferSize unread turn) (drained : drainedFirst unread turn)
    (left : turn.received = none) : unread = [] := by
  obtain ⟨stop, poll, recv⟩ := turn
  obtain ⟨awake, allowed⟩ := allowed
  obtain rfl : stop = false := awake
  cases poll with
  | failed => exact drained
  | timedOut => cases left
  | ready revents =>
    obtain ⟨pollin, pollhup, pollerr⟩ := revents
    obtain ⟨healthy, received⟩ := allowed
    obtain rfl : pollerr = false := healthy
    cases pollhup with
    | true => exact drained (.inl rfl)
    | false =>
      cases recv with
      | failed => exact drained (.inr rfl)
      | data bytes =>
        cases bytes with
        | nil => exact (received.2.2 rfl).elim id (fun empty => buffered.resolve_left (· empty))
        | cons byte bytes => cases left

end Turn

/-- What is received is a first part of the stream. -/
theorem receivedBytes_within {unread : List UInt8} {script : List Turn}
    (inOrder : Admissible comesInOrder arrive unread script) :
    receivedBytes script <+: unread := by
  induction script generalizing unread with
  | nil => exact List.nil_prefix
  | cons turn rest ih =>
    obtain ⟨next, later⟩ := inOrder
    cases found : turn.received with
    | none =>
      rw [receivedBytes, found]
      exact List.nil_prefix
    | some bytes =>
      have taken := Turn.received_append next found
      rw [receivedBytes, found]
      conv_rhs => rw [← taken]
      exact (List.prefix_append_right_inj bytes).mpr (ih later)

/-- If `poll` reports more often than there are bytes, the whole stream is received and the loop
is left: each such pass leaves it with nothing unread or receives a byte. -/
theorem receivedBytes_eq {recvBufferSize : Nat} {unread : List UInt8} {script : List Turn}
    (buffered : recvBufferSize ≠ 0 ∨ unread = [])
    (allowed : Admissible (posixAllows recvBufferSize) arrive unread script)
    (drained : Admissible drainedFirst arrive unread script)
    (often : unread.length < script.countP Turn.reports) :
    receivedBytes script = unread ∧ leavesLoop script = true := by
  induction script generalizing unread with
  | nil => exact absurd often (Nat.not_lt_zero _)
  | cons turn rest ih =>
    obtain ⟨allowedTurn, allowedRest⟩ := allowed
    obtain ⟨drainedTurn, drainedRest⟩ := drained
    rw [receivedBytes, leavesLoop, List.any_cons]
    cases found : turn.received with
    | none =>
      have done := Turn.unread_of_left buffered allowedTurn drainedTurn found
      exact ⟨done.symm, rfl⟩
    | some bytes =>
      have taken := Turn.received_append (Turn.comesInOrder_of_posixAllows allowedTurn) found
      have lengths := congrArg List.length taken
      rw [List.length_append] at lengths
      rw [List.countP_cons] at often
      have fewer : (arrive unread turn).2.length < rest.countP Turn.reports := by
        rcases Turn.received_cases found with ⟨timedOut, _⟩ | ⟨revents, _, _, some_⟩
        · rw [if_neg (by simp [Turn.reports, timedOut])] at often
          omega
        · have positive := List.length_pos_iff.mpr some_
          split at often <;> omega
      have still : recvBufferSize ≠ 0 ∨ (arrive unread turn).2 = [] := by
        refine buffered.imp id (fun nothing => ?_)
        exact (List.append_eq_nil_iff.mp (taken.trans nothing)).2
      obtain ⟨whole, left⟩ := ih still allowedRest drainedRest fewer
      refine ⟨?_, left⟩
      show bytes ++ receivedBytes rest = unread
      rw [whole, taken]

namespace SocketFeedReader

variable {σ : Type} {reader : SocketFeedReader σ}

/-- Receiving two chunks is receiving both at once. -/
theorem receive_append (reader : SocketFeedReader σ) (first second : List UInt8) :
    (reader.receive first).receive second = reader.receive (first ++ second) := by
  simp only [receive, ItchParser.feed_append, List.foldl_append, List.length_append,
    Nat.add_assoc]

/-- A pass leaves the loop or receives what it is said to receive. -/
theorem recvPass_eq (settled : reader.receive [] = reader) (turn : Turn) :
    reader.recvPass turn =
      match turn.received with
      | none => .done reader
      | some bytes => .yield (reader.receive bytes) := by
  obtain ⟨stop, poll, recv⟩ := turn
  cases stop with
  | true => rfl
  | false =>
    cases poll with
    | failed => rfl
    | timedOut => exact congrArg ForInStep.yield settled.symm
    | ready revents =>
      obtain ⟨pollin, pollhup, pollerr⟩ := revents
      cases pollhup with
      | true => rfl
      | false =>
        cases pollerr with
        | true => rfl
        | false =>
          cases recv with
          | failed => rfl
          | data bytes => cases bytes <;> rfl

/-- The loop has received the bytes of the passes before it was left, and nothing else. -/
theorem recvLoop_eq (settled : reader.receive [] = reader) (script : List Turn) :
    reader.recvLoop script =
      { reader.receive (receivedBytes script) with
        running := reader.running && !leavesLoop script } := by
  induction script generalizing reader with
  | nil =>
    simp only [recvLoop, receivedBytes, settled, leavesLoop, List.any_nil, Bool.not_false,
      Bool.and_true]
  | cons turn rest ih =>
    have pass := recvPass_eq settled turn
    cases found : turn.received with
    | none =>
      rw [found] at pass
      simp only [recvLoop, pass, receivedBytes, found, settled, leavesLoop, List.any_cons,
        Option.isNone_none, Bool.true_or, Bool.not_true, Bool.and_false]
    | some bytes =>
      rw [found] at pass
      have fresh : (reader.receive bytes).receive [] = reader.receive bytes := by
        rw [receive_append, List.append_nil]
      have goesOn : leavesLoop (turn :: rest) = leavesLoop rest := by
        rw [leavesLoop, List.any_cons, found]
        rfl
      simp only [recvLoop, pass, receivedBytes, found, ih fresh, receive_append, goesOn]
      rfl

end SocketFeedReader

/-- The messages of the records that were decoded. -/
def okMessages (results : List ItchParseResult) : List ItchMessage :=
  (results.filter (fun result => result.ok)).map (fun result => result.message)

/-- The callback receives the messages of the decoded records, in their order. -/
theorem foldl_deliver {σ : Type} (handler : σ → ItchMessage → σ) (target : σ)
    (results : List ItchParseResult) :
    results.foldl (SocketFeedReader.deliver (some handler)) target =
      (okMessages results).foldl handler target := by
  induction results generalizing target with
  | nil => rfl
  | cons result results ih =>
    rw [List.foldl_cons, ih]
    cases decoded : result.ok <;> simp [SocketFeedReader.deliver, okMessages, decoded]

/-- The replay of a list of results processes the same messages and counts them alike. -/
theorem foldl_replayMessage (checker : ParityChecker) (decoded skipped : Nat)
    (results : List ItchParseResult) :
    let replayed := results.foldl EventReplayer.replayMessage (checker, decoded, skipped)
    (okMessages results).foldl ItchSocketPipeline.onMessage
        { checker := checker, messagesDecoded := decoded } =
      { checker := replayed.1, messagesDecoded := replayed.2.1 } := by
  induction results generalizing checker decoded skipped with
  | nil => rfl
  | cons result results ih =>
    cases ok : result.ok with
    | true =>
      have later := ih (checker.process result.message) (decoded + 1) skipped
      simpa [okMessages, ok, EventReplayer.replayMessage, ItchSocketPipeline.onMessage]
        using later
    | false =>
      have later := ih checker decoded (skipped + 1)
      simpa [okMessages, ok, EventReplayer.replayMessage] using later

/-- A callback that keeps the messages it receives. -/
def collect (messages : List ItchMessage) (message : ItchMessage) : List ItchMessage :=
  messages ++ [message]

/-- What is collected is what was there and the messages received. -/
theorem foldl_collect (messages received : List ItchMessage) :
    received.foldl collect messages = messages ++ received := by
  induction received generalizing messages with
  | nil => simp
  | cons message received ih =>
    rw [List.foldl_cons, ih]
    simp [collect]

/-- The pipeline ended as the replay of a file did. -/
structure EndsAsReplay (reader : SocketFeedReader ItchSocketPipeline)
    (replay : ReplayResult × InstrumentRegistry) : Prop where
  /-- The loop was left. -/
  stopped : reader.running = false
  /-- The registries are the same, books included. -/
  registry : reader.target.checker.adapter.registry = replay.2
  /-- So are the reports. -/
  parity : reader.target.checker.report = replay.1.parity
  /-- So are the logs. -/
  eventLog : reader.target.checker.adapter.registry.eventLog = replay.1.engineEventLog
  /-- So are the messages decoded. -/
  decoded : reader.target.messagesDecoded = replay.1.messagesDecoded
  /-- So are the records skipped. -/
  skipped : reader.parser.messagesSkipped = replay.1.messagesSkipped

/-- What the pipeline shows is what the replay of the bytes it received gives. -/
theorem ItchSocketPipeline.replay_eq (allocator : SlabAllocator) (backend : MatcherBackend)
    (checkpointInterval : CheckpointInterval) (walk : List StockLocate → List StockLocate)
    (script : List Turn) :
    let reader := (init allocator backend checkpointInterval walk).read script
    EventReplayer.replayFile
        ⟨InstrumentRegistry.init allocator backend, checkpointInterval, walk⟩
        (receivedBytes script) =
      ({ parity := reader.target.checker.report
         engineEventLog := reader.target.checker.adapter.registry.eventLog
         messagesDecoded := reader.target.messagesDecoded
         messagesSkipped := reader.parser.messagesSkipped },
        reader.target.checker.adapter.registry) ∧
      reader.bytesReceived = (receivedBytes script).length ∧
      reader.running = !leavesLoop script := by
  intro reader
  let started := SocketFeedReader.start (some onMessage)
    (init allocator backend checkpointInterval walk)
  have settled : started.receive [] = started := rfl
  have received := SocketFeedReader.recvLoop_eq settled script
  have replayed := foldl_replayMessage (init allocator backend checkpointInterval walk).checker 0 0
    (ItchParser.init.feed (receivedBytes script)).1
  have target : reader.target = _ := congrArg SocketFeedReader.target received
  have parser : reader.parser = _ := congrArg SocketFeedReader.parser received
  have bytes : reader.bytesReceived = _ := congrArg SocketFeedReader.bytesReceived received
  have running : reader.running = _ := congrArg SocketFeedReader.running received
  have processed : reader.target = _ := target.trans ((foldl_deliver _ _ _).trans replayed)
  refine ⟨?_, bytes.trans (Nat.zero_add _), running⟩
  rw [processed, parser]
  rfl

/-- A pipeline that has received a whole stream and left its loop ends as the replay of a file with
the bytes of the stream. -/
theorem endsAsReplay {script : List Turn} (left : leavesLoop script = true)
    (allocator : SlabAllocator) (backend : MatcherBackend)
    (checkpointInterval : CheckpointInterval) (walk : List StockLocate → List StockLocate) :
    EndsAsReplay
      ((ItchSocketPipeline.init allocator backend checkpointInterval walk).read script)
      (EventReplayer.replayFile
        ⟨InstrumentRegistry.init allocator backend, checkpointInterval, walk⟩
        (receivedBytes script)) := by
  obtain ⟨replay, _, running⟩ :=
    ItchSocketPipeline.replay_eq allocator backend checkpointInterval walk script
  rw [left] at running
  rw [replay]
  exact ⟨running, rfl, rfl, rfl, rfl, rfl⟩

/-- In every endless run in which `POLLHUP` is not reported and neither `poll` nor `recv` is
interrupted while bytes are unread, and the receive buffer is not empty: the loop is left in the
end, the callback has then received exactly the messages of one `feed` of the whole stream, and the
pipeline has ended as the replay of a file with these bytes. -/
theorem recvLoop_loses_nothing {recvBufferSize : Nat} {stream : List UInt8} {turns : Nat → Turn}
    (buffered : recvBufferSize ≠ 0 ∨ stream = [])
    (allowed : AlwaysAdmissible (posixAllows recvBufferSize) arrive stream turns)
    (drained : AlwaysAdmissible drainedFirst arrive stream turns) (delivers : Delivers turns)
    (allocator : SlabAllocator) (backend : MatcherBackend)
    (checkpointInterval : CheckpointInterval) (walk : List StockLocate → List StockLocate) :
    ∃ time, ∀ later, time ≤ later →
      let script := (List.range later).map turns
      let reader := (SocketFeedReader.start (some collect) []).recvLoop script
      reader.running = false ∧ reader.target = okMessages (ItchParser.init.feed stream).1 ∧
        EndsAsReplay
          ((ItchSocketPipeline.init allocator backend checkpointInterval walk).read script)
          (EventReplayer.replayFile
            { registry := InstrumentRegistry.init allocator backend
              checkpointInterval := checkpointInterval
              walk := walk } stream) := by
  obtain ⟨time, often⟩ := exists_countP delivers (stream.length + 1)
  refine ⟨time, ?_⟩
  intro later after script reader
  obtain ⟨whole, left⟩ :=
    receivedBytes_eq buffered (allowed later) (drained later) (often later after)
  have collected : reader = _ := SocketFeedReader.recvLoop_eq rfl script
  rw [whole, left] at collected
  have ended := endsAsReplay left allocator backend checkpointInterval walk
  rw [whole] at ended
  refine ⟨congrArg SocketFeedReader.running collected, ?_, ended⟩
  rw [collected]
  show (ItchParser.init.feed stream).1.foldl (SocketFeedReader.deliver (some collect)) [] = _
  rw [foldl_deliver, foldl_collect, List.nil_append]

/-- A schedule that ends with reports delivers. -/
theorem delivers_followedBy (script : List Turn) {last : Turn} (reports : last.reports = true) :
    Delivers (followedBy script last) := by
  intro time
  refine ⟨max time script.length, le_max_left _ _, ?_⟩
  rw [followedBy_of_le (le_max_right _ _)]
  exact reports

/-- A pass that receives a chunk. -/
def receiving (bytes : List UInt8) : Turn where
  stop := false
  poll := .ready { pollin := true, pollhup := false, pollerr := false }
  recv := .data bytes

/-- A pass that sees the hang-up, with a chunk that `recv` would return. -/
def hangingUp (bytes : List UInt8) : Turn where
  stop := false
  poll := .ready { pollin := true, pollhup := true, pollerr := false }
  recv := .data bytes

/-- One record of five bytes, sent before an orderly close: the first `poll` reports `POLLIN` and
`POLLHUP` together, and the record is never read. -/
theorem hang_up_loses_message :
    let stream : List UInt8 := [0, 5, 0x54, 0, 0, 0, 1]
    let turns : Nat → Turn := followedBy [] (hangingUp stream)
    AlwaysAdmissible (posixAllows 65536) arrive stream turns ∧ Delivers turns ∧
      okMessages (ItchParser.init.feed stream).1 = [.timestampSeconds { seconds := 1 }] ∧
      ∀ time,
        let script := (List.range (time + 1)).map turns
        let reader := (SocketFeedReader.start (some collect) []).recvLoop script
        reader.running = false ∧ reader.target = [] := by
  intro stream turns
  refine ⟨?_, ?_, by decide, ?_⟩
  · exact alwaysAdmissible_followedBy (by trivial) (by decide) (by decide)
  · exact delivers_followedBy [] (by decide)
  · intro time script reader
    have first : script = hangingUp stream :: ((List.range time).map Nat.succ).map turns := by
      simp only [script, List.range_succ_eq_map, List.map_cons]
      rfl
    have left : reader = _ := congrArg _ first
    rw [left]
    exact ⟨rfl, rfl⟩

/-- The same record in two chunks with a timeout between them and the hang-up at the end. -/
theorem recvLoop_loses_nothing_two_chunks :
    let stream : List UInt8 := [0, 5, 0x54, 0, 0, 0, 1]
    let turns : Nat → Turn := followedBy
      [receiving [0, 5, 0x54], { stop := false, poll := .timedOut, recv := .failed },
        receiving [0, 0, 0, 1]] (hangingUp [])
    ∃ time, ∀ later, time ≤ later →
      let script := (List.range later).map turns
      let reader := (SocketFeedReader.start (some collect) []).recvLoop script
      reader.running = false ∧ reader.target = okMessages (ItchParser.init.feed stream).1 ∧
        reader.target = [.timestampSeconds { seconds := 1 }] := by
  intro stream turns
  have buffered : 65536 ≠ 0 ∨ stream = [] := by decide
  have allowed : AlwaysAdmissible (posixAllows 65536) arrive stream turns :=
    alwaysAdmissible_followedBy (by decide) (by decide) (by decide)
  have drained : AlwaysAdmissible drainedFirst arrive stream turns :=
    alwaysAdmissible_followedBy (by decide) (by decide) (by decide)
  have delivers : Delivers turns := delivers_followedBy _ (by decide)
  have sent : okMessages (ItchParser.init.feed stream).1 =
      [.timestampSeconds { seconds := 1 }] := by decide
  obtain ⟨time, reached⟩ := recvLoop_loses_nothing buffered allowed drained delivers
    (.consecutive 2 (by decide)) .optimized everyMessage id
  refine ⟨time, ?_⟩
  intro later after
  obtain ⟨left, received, _⟩ := reached later after
  exact ⟨left, received, received.trans sent⟩

end Titan
