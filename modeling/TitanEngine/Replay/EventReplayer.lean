import TitanEngine.Feed.Parser
import TitanEngine.Replay.ItchAdapter

/-!
# Replaying a session against both books

`ParityChecker` and `EventReplayer` of `src/replay`: every decoded message goes to the feed's
book and to the engine, whose best levels are compared at checkpoints. The order in which an
`std::unordered_set` is walked is not specified; it depends on the insertions alone, and
`walk` gives it.
-/

namespace Titan

/-- `ParityMismatch`. -/
structure ParityMismatch where
  /-- Messages processed when it was seen. -/
  messageIndex : Nat
  /-- What the feed's book shows. -/
  feedSnapshot : BookSnapshot
  /-- What the engine shows. -/
  engineSnapshot : BookSnapshot
  deriving DecidableEq, Repr

/-- `ParityReport`. -/
structure ParityReport where
  /-- Messages processed. -/
  messagesProcessed : Nat := 0
  /-- Pairs of snapshots compared. -/
  checkpointsCompared : Nat := 0
  /-- Pairs that differ. -/
  mismatchCount : Nat := 0
  /-- The first few of them. -/
  firstMismatches : List ParityMismatch := []
  /-- Shares executed according to the feed. -/
  feedTradeVolume : UInt64 := 0
  /-- Shares traded by the engine. -/
  engineTradeVolume : UInt64 := 0
  deriving DecidableEq, Repr

/-- A `checkpointInterval`. The constructors take any `size_t`, but `process` divides by it, and a
division by zero is undefined. -/
abbrev CheckpointInterval := { interval : Nat // 0 < interval }

/-- The default of the constructors: a checkpoint after every message. -/
def everyMessage : CheckpointInterval := ⟨1, Nat.one_pos⟩

/-- `ParityChecker`, with the builder and the adapter it drives. -/
structure ParityChecker where
  /-- `builder_`. -/
  builder : ItchBookBuilder
  /-- `adapter_`. -/
  adapter : ItchEngineAdapter
  /-- `checkpointInterval_`. -/
  checkpointInterval : CheckpointInterval
  /-- The order in which a set built by these insertions is walked. -/
  walk : List StockLocate → List StockLocate
  /-- `knownLocates_`, as it was inserted. -/
  knownLocates : List StockLocate
  /-- `report_`. -/
  report : ParityReport

/-- `extractLocate`. -/
def extractLocate : ItchMessage → Option StockLocate
  | .systemEvent message => some message.stockLocate
  | .stockDirectory message => some message.stockLocate
  | .addOrder message => some message.stockLocate
  | .addOrderMpid message => some message.base.stockLocate
  | .orderExecuted message => some message.stockLocate
  | .orderExecutedWithPrice message => some message.base.stockLocate
  | .orderCancel message => some message.stockLocate
  | .orderDelete message => some message.stockLocate
  | .orderReplace message => some message.stockLocate
  | .timestampSeconds _ => none

/-- `executedSharesOf`. -/
def executedSharesOf : ItchMessage → UInt32
  | .orderExecuted message => message.executedShares
  | .orderExecutedWithPrice message => message.base.executedShares
  | _ => 0

/-- `bidMatch` and `askMatch`: both sides are empty, or their best levels agree. -/
def topMatches (feed engine : List PriceLevel) : Bool :=
  (feed.isEmpty == engine.isEmpty) && (feed.isEmpty || feed.head? == engine.head?)

/-- `kMaxStoredMismatches`. -/
def kMaxStoredMismatches : Nat := 5

namespace ParityChecker

/-- The constructor. -/
def init (adapter : ItchEngineAdapter) (checkpointInterval : CheckpointInterval)
    (walk : List StockLocate → List StockLocate) : ParityChecker where
  builder := ItchBookBuilder.init
  adapter := adapter
  checkpointInterval := checkpointInterval
  walk := walk
  knownLocates := []
  report := {}

/-- The body of the loop of `compareAllLocates`. -/
def compareLocate (checker : ParityChecker) (locate : StockLocate) : ParityChecker :=
  match checker.builder.snapshot locate 1 with
  | (none, _) => checker
  | (some feedSnap, builder) =>
    let (engineSnap, adapter) := checker.adapter.snapshot locate 1
    let report := { checker.report with
      checkpointsCompared := checker.report.checkpointsCompared + 1 }
    let compared := { checker with builder := builder, adapter := adapter, report := report }
    if topMatches feedSnap.bids engineSnap.bids && topMatches feedSnap.asks engineSnap.asks then
      compared
    else
      { compared with
        report := { report with
          mismatchCount := report.mismatchCount + 1
          firstMismatches :=
            if report.firstMismatches.length < kMaxStoredMismatches then
              report.firstMismatches ++
                [{ messageIndex := report.messagesProcessed
                   feedSnapshot := feedSnap
                   engineSnapshot := engineSnap }]
            else report.firstMismatches } }

/-- `compareAllLocates`. -/
def compareAllLocates (checker : ParityChecker) : ParityChecker :=
  (checker.walk checker.knownLocates).foldl compareLocate checker

/-- `knownLocates_.insert`. -/
def learn (checker : ParityChecker) (message : ItchMessage) : ParityChecker :=
  match extractLocate message with
  | none => checker
  | some locate =>
    if locate ∈ checker.knownLocates then checker
    else { checker with knownLocates := checker.knownLocates ++ [locate] }

/-- `process`. -/
def process (checker : ParityChecker) (message : ItchMessage) : ParityChecker :=
  let learned := checker.learn message
  let adapter := (learned.adapter.apply message).2
  let report : ParityReport := { learned.report with
    feedTradeVolume := learned.report.feedTradeVolume + (executedSharesOf message).toUInt64
    engineTradeVolume := adapter.tradeVolume
    messagesProcessed := learned.report.messagesProcessed + 1 }
  let applied : ParityChecker := { learned with
    builder := learned.builder.apply message
    adapter := adapter
    report := report }
  if report.messagesProcessed % applied.checkpointInterval.val = 0 then applied.compareAllLocates
  else applied

end ParityChecker

/-- `ReplayResult`. -/
structure ReplayResult where
  /-- The checker's report. -/
  parity : ParityReport
  /-- The registry's log. -/
  engineEventLog : List Event
  /-- Messages processed. -/
  messagesDecoded : Nat
  /-- Records that were not. -/
  messagesSkipped : Nat
  deriving DecidableEq, Repr

/-- `EventReplayer`; the registry belongs to the caller. -/
structure EventReplayer where
  /-- `registry_`. -/
  registry : InstrumentRegistry
  /-- `checkpointInterval_`. -/
  checkpointInterval : CheckpointInterval
  /-- The order in which the checker walks its set. -/
  walk : List StockLocate → List StockLocate

namespace EventReplayer

/-- The body of the loop of `replayMessages`: the checker and the two counters. -/
def replayMessage (state : ParityChecker × Nat × Nat) (parsed : ItchParseResult) :
    ParityChecker × Nat × Nat :=
  let (checker, decoded, skipped) := state
  if parsed.ok then (checker.process parsed.message, decoded + 1, skipped)
  else (checker, decoded, skipped + 1)

/-- `replayMessages`, with the registry it leaves. -/
def replayMessages (replayer : EventReplayer) (results : List ItchParseResult) :
    ReplayResult × InstrumentRegistry :=
  let checker := ParityChecker.init (ItchEngineAdapter.init replayer.registry)
    replayer.checkpointInterval replayer.walk
  let (final, decoded, skipped) := results.foldl replayMessage (checker, 0, 0)
  ({ parity := final.report
     engineEventLog := final.adapter.registry.eventLog
     messagesDecoded := decoded
     messagesSkipped := skipped },
    final.adapter.registry)

/-- `replayFile`, on a file with the given bytes. -/
def replayFile (replayer : EventReplayer) (bytes : List UInt8) :
    ReplayResult × InstrumentRegistry :=
  let (results, parser) := ItchParser.init.feed bytes
  let (result, registry) := replayer.replayMessages results
  ({ result with messagesSkipped := parser.messagesSkipped }, registry)

end EventReplayer

end Titan
