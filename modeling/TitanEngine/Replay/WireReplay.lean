import TitanEngine.Feed.Wire
import TitanEngine.Replay.ParityReports

/-!
# Replaying a recorded feed

A recorded file holds a feed that may have been cut off anywhere. The replay of a file is the
checker's run over the messages that arrived whole, and its counters tell them from the junk between
them. So a file that holds a well-formed session is replayed without a mismatch, whatever else
stands between its messages.
-/

namespace Titan

open Library

namespace EventReplayer

/-- The results of items are replayed as their messages. -/
theorem foldl_items (items : List WireItem) (checker : ParityChecker) (decoded skipped : Nat) :
    ∃ later, (items.flatMap WireItem.results).foldl replayMessage (checker, decoded, skipped) =
      ((items.filterMap WireItem.message?).foldl ParityChecker.process checker,
        decoded + (items.filterMap WireItem.message?).length, later) := by
  induction items generalizing checker decoded skipped with
  | nil => exact ⟨skipped, rfl⟩
  | cons item items ih =>
    rw [List.flatMap_cons, List.foldl_append]
    cases item with
    | message sent fits =>
      obtain ⟨later, rest⟩ := ih (checker.process sent) (decoded + 1) skipped
      refine ⟨later, rest.trans ?_⟩
      have counted : decoded + 1 + (items.filterMap WireItem.message?).length =
          decoded + (sent :: items.filterMap WireItem.message?).length := by
        rw [List.length_cons]
        omega
      rw [counted]
      rfl
    | unknown record undecoded => exact ih checker decoded (skipped + 1)
    | corrupt length refused => exact ih checker decoded skipped

/-- The replay of a file is the checker's run over the messages that stand whole in it. -/
theorem replayFile_eq (registry : InstrumentRegistry) (checkpointInterval : CheckpointInterval)
    (walk : List StockLocate → List StockLocate) (items : List WireItem) {part : List UInt8}
    (waits : nextFrame part = none) :
    let checker := ParityChecker.after registry checkpointInterval walk
      (items.filterMap WireItem.message?)
    replayFile ⟨registry, checkpointInterval, walk⟩ (items.flatMap WireItem.encode ++ part) =
      ({ parity := checker.report
         engineEventLog := checker.adapter.registry.eventLog
         messagesDecoded := (items.filterMap WireItem.message?).length
         messagesSkipped := items.countP (fun item => item.message?.isNone) },
        checker.adapter.registry) := by
  have fed := ItchParser.feedAll_items items waits [items.flatMap WireItem.encode ++ part]
    (by rw [List.flatten_cons, List.flatten_nil, List.append_nil])
  rw [ItchParser.feedAll_init, List.flatten_cons, List.flatten_nil, List.append_nil] at fed
  obtain ⟨later, replayed⟩ := foldl_items items
    (ParityChecker.init (ItchEngineAdapter.init registry) checkpointInterval walk) 0 0
  simp only [replayFile, replayMessages, fed, replayed, Nat.zero_add]
  rfl

/-- A file with a well-formed session, whatever junk stands between its messages and wherever the
last item was cut off, is replayed over either matcher without a mismatch: every message is counted
as processed and as decoded, every other item as skipped, and the registry is left as the session
leaves it, but for the snapshots counted. -/
theorem replayFile_clean (allocator : SlabAllocator) (backend : MatcherBackend)
    (checkpointInterval : CheckpointInterval) (walk : List StockLocate → List StockLocate)
    (items : List WireItem) (last : WireItem) (arrived : Nat)
    (cut : arrived < last.encode.length)
    (wellFormed : Admissible Session.WellFormed Session.step (Session.init allocator backend)
      (items.filterMap WireItem.message?)) :
    let replayed := replayFile ⟨InstrumentRegistry.init allocator backend, checkpointInterval, walk⟩
      (items.flatMap WireItem.encode ++ last.encode.take arrived)
    replayed.1.parity.mismatchCount = 0 ∧ replayed.1.parity.firstMismatches = [] ∧
      replayed.1.parity.messagesProcessed = (items.filterMap WireItem.message?).length ∧
      replayed.1.messagesDecoded = (items.filterMap WireItem.message?).length ∧
      replayed.1.messagesSkipped = items.countP (fun item => item.message?.isNone) ∧
      replayed.2.unnumbered = (Session.after allocator backend
        (items.filterMap WireItem.message?)).adapter.registry.unnumbered := by
  have replayed := replayFile_eq (InstrumentRegistry.init allocator backend) checkpointInterval walk
    items (WireItem.code.waits_of_take last cut)
  have clean := Session.clean_report allocator backend checkpointInterval walk
    (items.filterMap WireItem.message?) wellFormed
  have stands := ParityChecker.processed_run (InstrumentRegistry.init allocator backend)
    checkpointInterval walk (items.filterMap WireItem.message?)
  have books := (Session.after_books allocator backend (items.filterMap WireItem.message?)).2
  intro replay
  rw [show replay = _ from replayed]
  refine ⟨clean.1, clean.2, stands.processed, rfl, rfl, ?_⟩
  rw [books]
  exact congrArg ItchEngineAdapter.registry stands.adapter

/-- Whether the timestamp of a message fits into six bytes. -/
instance decidableFits (message : ItchMessage) :
    Decidable (∀ timestamp ∈ message.timestamp?, timestamp.toNat < 2 ^ 48) :=
  have (timestamp : ItchTimestampNs) : Decidable (timestamp.toNat < 2 ^ 48) := Nat.decLt _ _
  Option.decidableForallMem message.timestamp?

/-- The sample session with a corrupt length before every message. -/
def junkSession : List WireItem :=
  Session.sampleSession.flatMap (fun sent =>
    if fits : ∀ timestamp ∈ sent.timestamp?, timestamp.toNat < 2 ^ 48 then
      [.corrupt 0 (.inl rfl), .message sent fits]
    else [])

/-- Nine messages and nine corrupt lengths, and the first byte of another item. -/
theorem replayFile_clean_junk :
    let replayed := replayFile
      ⟨InstrumentRegistry.init (.consecutive 2 (by decide)) .optimized, everyMessage, id⟩
      (junkSession.flatMap WireItem.encode ++ (WireItem.corrupt 0 (.inl rfl)).encode.take 1)
    replayed.1.parity.mismatchCount = 0 ∧ replayed.1.messagesDecoded = 9 ∧
      replayed.1.messagesSkipped = 9 := by
  have wellFormed : Admissible Session.WellFormed Session.step
      (Session.init (.consecutive 2 (by decide)) .optimized)
      (junkSession.filterMap WireItem.message?) := by decide
  have messages : (junkSession.filterMap WireItem.message?).length = 9 := by decide
  have junk : junkSession.countP (fun item => item.message?.isNone) = 9 := by decide
  have replay := replayFile_clean (.consecutive 2 (by decide)) .optimized everyMessage id
    junkSession (.corrupt 0 (.inl rfl)) 1 (by decide) wellFormed
  exact ⟨replay.1, replay.2.2.2.1.trans messages, replay.2.2.2.2.1.trans junk⟩

end EventReplayer

end Titan
