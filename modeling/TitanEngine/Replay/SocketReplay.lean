import TitanEngine.Feed.SocketFeed
import TitanEngine.Replay.WireReplay

/-!
# Replaying a feed from a socket

`ItchSocketPipeline` is the streaming counterpart of `EventReplayer`. Whatever `stop_`, `poll` and
`recv` give, at every moment it stands where the replay of a file with the bytes received so far
ends. A stop, an error or a hang-up only decides where that file is cut off, so a well-formed feed
never shows a mismatch, however its reading ends.
-/

namespace Titan

open Library

namespace ItchSocketPipeline

/-- Whatever stops the reading of a stream, and at every moment of it: what `recv` has returned
before the loop was left is a first part of the stream, it is what the reader counts, and the
pipeline shows what the replay of a file with these bytes gives. -/
theorem read_is_replay (allocator : SlabAllocator) (backend : MatcherBackend)
    (checkpointInterval : CheckpointInterval) (walk : List StockLocate → List StockLocate)
    (stream : List UInt8) (script : List Turn)
    (inOrder : Admissible comesInOrder arrive stream script) :
    let reader := (init allocator backend checkpointInterval walk).read script
    receivedBytes script <+: stream ∧ reader.bytesReceived = (receivedBytes script).length ∧
      reader.running = !leavesLoop script ∧
      EventReplayer.replayFile
          ⟨InstrumentRegistry.init allocator backend, checkpointInterval, walk⟩
          (receivedBytes script) =
        ({ parity := reader.target.checker.report
           engineEventLog := reader.target.checker.adapter.registry.eventLog
           messagesDecoded := reader.target.messagesDecoded
           messagesSkipped := reader.parser.messagesSkipped },
          reader.target.checker.adapter.registry) := by
  intro reader
  obtain ⟨replay, counted, running⟩ :=
    replay_eq allocator backend checkpointInterval walk script
  exact ⟨receivedBytes_within inOrder, counted, running, replay⟩

/-- Three bytes of a record arrive and a timeout passes, and then `poll` fails. -/
theorem read_is_replay_failed_poll :
    let stream : List UInt8 := [0, 5, 0x54, 0, 0, 0, 1]
    let script : List Turn :=
      [receiving [0, 5, 0x54], { stop := false, poll := .timedOut, recv := .failed },
        { stop := false, poll := .failed, recv := .data [0, 0, 0, 1] }]
    let reader := (init (.consecutive 2 (by decide)) .optimized everyMessage id).read script
    receivedBytes script <+: stream ∧ receivedBytes script = [0, 5, 0x54] ∧
      reader.bytesReceived = 3 ∧ reader.running = false := by
  intro stream script reader
  have inOrder : Admissible comesInOrder arrive stream script := by decide
  obtain ⟨ahead, counted, running, _⟩ := read_is_replay (.consecutive 2 (by decide)) .optimized
    everyMessage id stream script inOrder
  exact ⟨ahead, rfl, counted, running⟩

/-- A well-formed session on the wire, with junk between its messages, is read without a mismatch
at every moment and whatever stops the reading. The bytes received are the items that arrived whole
and the first bytes of one that has to wait; every message of the whole ones is counted as decoded
and every other one as skipped, and the registry is left as their messages leave it, but for the
snapshots counted. -/
theorem read_clean (allocator : SlabAllocator) (backend : MatcherBackend)
    (checkpointInterval : CheckpointInterval) (walk : List StockLocate → List StockLocate)
    (items : List WireItem) (script : List Turn)
    (wellFormed : Admissible Session.WellFormed Session.step (Session.init allocator backend)
      (items.filterMap WireItem.message?))
    (inOrder : Admissible comesInOrder arrive (items.flatMap WireItem.encode) script) :
    let reader := (init allocator backend checkpointInterval walk).read script
    ∃ whole part, receivedBytes script = whole.flatMap WireItem.encode ++ part ∧
      nextFrame part = none ∧ whole <+: items ∧
      reader.target.checker.report.mismatchCount = 0 ∧
      reader.target.checker.report.firstMismatches = [] ∧
      reader.target.messagesDecoded = (whole.filterMap WireItem.message?).length ∧
      reader.parser.messagesSkipped = whole.countP (fun item => item.message?.isNone) ∧
      reader.target.checker.adapter.registry.unnumbered = (Session.after allocator backend
        (whole.filterMap WireItem.message?)).adapter.registry.unnumbered := by
  intro reader
  obtain ⟨whole, part, received, waits⟩ := WireItem.code.exists_values (receivedBytes script)
  have within := receivedBytes_within inOrder
  rw [received] at within
  have ahead : whole <+: items := WireItem.code.values_prefix within
  have sound : Admissible Session.WellFormed Session.step (Session.init allocator backend)
      (whole.filterMap WireItem.message?) := by
    obtain ⟨later, rfl⟩ := ahead
    rw [List.filterMap_append] at wellFormed
    exact (admissible_append.mp wellFormed).1
  have replay := (replay_eq allocator backend checkpointInterval walk script).1
  rw [received] at replay
  have replayed := (EventReplayer.replayFile_eq (InstrumentRegistry.init allocator backend)
    checkpointInterval walk whole waits).symm.trans replay
  obtain ⟨results, registry⟩ := Prod.mk.inj replayed
  obtain ⟨report, _, decoded, skipped⟩ := ReplayResult.mk.inj results
  have clean := Session.clean_report allocator backend checkpointInterval walk
    (whole.filterMap WireItem.message?) sound
  have stands := ParityChecker.processed_run (InstrumentRegistry.init allocator backend)
    checkpointInterval walk (whole.filterMap WireItem.message?)
  have books := (Session.after_books allocator backend (whole.filterMap WireItem.message?)).2
  refine ⟨whole, part, received, waits, ahead, ?_, ?_, decoded.symm, skipped.symm, ?_⟩
  · rw [← report]
    exact clean.1
  · rw [← report]
    exact clean.2
  · rw [books, ← registry]
    exact congrArg ItchEngineAdapter.registry stands.adapter

/-- A listing and an order, with junk before each. -/
def junkListing : List WireItem := EventReplayer.junkSession.take 4

/-- Their first bytes arrive in two chunks, and then `stop` is called. -/
def stoppedReading : List Turn :=
  let bytes := junkListing.flatMap WireItem.encode
  [receiving (bytes.take 30), receiving ((bytes.drop 30).take 20),
    { receiving (bytes.drop 50) with stop := true }]

/-- Only the listing arrived whole. -/
theorem read_clean_stopped :
    let reader := (init (.consecutive 2 (by decide)) .optimized everyMessage id).read stoppedReading
    reader.target.messagesDecoded = 1 ∧ reader.target.checker.report.mismatchCount = 0 := by
  intro reader
  have wellFormed : Admissible Session.WellFormed Session.step
      (Session.init (.consecutive 2 (by decide)) .optimized)
      (junkListing.filterMap WireItem.message?) := by decide
  have inOrder : Admissible comesInOrder arrive
      (junkListing.flatMap WireItem.encode) stoppedReading := by decide
  obtain ⟨_, _, _, _, _, clean, _⟩ := read_clean (.consecutive 2 (by decide)) .optimized
    everyMessage id junkListing stoppedReading wellFormed inOrder
  exact ⟨by decide, clean⟩

end ItchSocketPipeline

end Titan
