import TitanEngine.Feed.SocketFeed
import TitanEngine.Replay.AdapterCalls
import TitanEngine.Spec.Sweeps

/-!
# Backtest metrics

`BacktestRunner` of `src/backtest/backtest_runner.cpp` replays a file and counts the events of the
log that the replay leaves. The end of messages clears that log. So the metrics cover all calls
that the replay makes of the registry exactly when nothing was logged before any end of messages.
-/

namespace Titan

open Library

/-- `BacktestConfig`. -/
structure BacktestConfig where
  /-- Which matcher the registry uses. -/
  backend : MatcherBackend := .reference
  /-- Depth of the final snapshots. -/
  bookDepth : Nat := 10

/-- `BacktestResult`, without the wall time. -/
structure BacktestResult where
  /-- Messages processed. -/
  messagesDecoded : Nat := 0
  /-- Records that were not. -/
  messagesSkipped : Nat := 0
  /-- Orders accepted. -/
  ordersSubmitted : Nat := 0
  /-- Calls refused. -/
  ordersRejected : Nat := 0
  /-- Orders cancelled. -/
  ordersCancelled : Nat := 0
  /-- Orders replaced. -/
  ordersReplaced : Nat := 0
  /-- Trades. -/
  tradesExecuted : Nat := 0
  /-- Their quantity. -/
  totalTradeVolume : UInt64 := 0
  /-- The last snapshot of each symbol that was logged. -/
  finalBook : SymbolMap BookSnapshot := ∅

namespace BacktestResult

/-- The visitor of the loop over the log. -/
def count (result : BacktestResult) (payload : EventPayload) : BacktestResult :=
  match payload with
  | .orderSubmitted .. => { result with ordersSubmitted := result.ordersSubmitted + 1 }
  | .orderRejected .. => { result with ordersRejected := result.ordersRejected + 1 }
  | .orderCancelled .. => { result with ordersCancelled := result.ordersCancelled + 1 }
  | .orderReplaced .. => { result with ordersReplaced := result.ordersReplaced + 1 }
  | .tradeExecuted _ _ _ _ quantity =>
    { result with
      tradesExecuted := result.tradesExecuted + 1
      totalTradeVolume := result.totalTradeVolume + quantity }

/-- The body of the loop over the symbols. -/
def shoot (depth : Nat) (state : BacktestResult × InstrumentRegistry) (symbol : Symbol) :
    BacktestResult × InstrumentRegistry :=
  let (taken, registry) := state.2.snapshot symbol depth
  ({ state.1 with finalBook := state.1.finalBook.insert symbol taken }, registry)

end BacktestResult

namespace BacktestRunner

/-- The replayer of a run: `EventReplayer(registry)` compares after every message. -/
def replayer (config : BacktestConfig) (allocator : SlabAllocator)
    (walk : List StockLocate → List StockLocate) : EventReplayer where
  registry := InstrumentRegistry.init allocator config.backend
  checkpointInterval := everyMessage
  walk := walk

/-- `replayFile` without a strategy, on a file with the given bytes. -/
def replayFile (config : BacktestConfig) (allocator : SlabAllocator)
    (walk : List StockLocate → List StockLocate) (bytes : List UInt8) : BacktestResult :=
  let (replay, registry) := (replayer config allocator walk).replayFile bytes
  let result : BacktestResult :=
    { messagesDecoded := replay.messagesDecoded, messagesSkipped := replay.messagesSkipped }
  let counted := (replay.engineEventLog.map Event.payload).foldl BacktestResult.count result
  let symbols := (replay.engineEventLog.map (fun event => event.payload.symbol)).eraseDups
  (symbols.foldl (BacktestResult.shoot config.bookDepth) (counted, registry)).1

end BacktestRunner

/-- What an event or a call stands for in the metrics. -/
inductive Outcome where
  | submitted
  | rejected
  | cancelled
  | replaced
  | traded (quantity : Quantity)
  deriving DecidableEq, Repr

/-- What an event stands for. -/
def EventPayload.outcome : EventPayload → Outcome
  | orderSubmitted .. => .submitted
  | orderRejected .. => .rejected
  | orderCancelled .. => .cancelled
  | orderReplaced .. => .replaced
  | tradeExecuted _ _ _ _ quantity => .traded quantity

/-- Whether the manager of the symbol accepts the order that is matched. -/
def InstrumentRegistry.matchAccepts (registry : InstrumentRegistry) (symbol : Symbol)
    (order : Order) : Bool :=
  match registry.find symbol with
  | none => false
  | some instrument => (instrument.manager.matchOrder order).1.accept.accepted

/-- A call and the registry that received it. -/
structure MadeCall where
  /-- The registry before the call. -/
  registry : InstrumentRegistry
  /-- The call. -/
  call : RegistryCall

namespace MadeCall

/-- How the call came out. -/
def outcome (made : MadeCall) : Option Outcome :=
  match made.call with
  | .createInstrument _ => none
  | .submitOrder symbol order =>
    some (if (made.registry.submitOrder symbol order).1.accepted then .submitted else .rejected)
  | .matchOrder symbol order =>
    some (if made.registry.matchAccepts symbol order then .submitted else .rejected)
  | .cancelOrder symbol id =>
    some (if (made.registry.cancelOrder symbol id).1.accepted then .cancelled else .rejected)
  | .cancelReplace symbol oldId newOrder =>
    some (if (made.registry.cancelReplace symbol oldId newOrder).1.accepted then .replaced
      else .rejected)
  | .snapshot _ _ => none

/-- The trades it returned. -/
def trades (made : MadeCall) : List Trade := (callRegistry made.registry made.call).1.tradesOf

/-- How it came out and its trades. -/
def outcomes (made : MadeCall) : List Outcome :=
  made.outcome.toList ++ made.trades.map (fun trade => .traded trade.quantity)

end MadeCall

/-- The calls that the messages make of the registry. -/
def callsDuring (checker : ParityChecker) : List ItchMessage → List MadeCall
  | [] => []
  | message :: rest =>
    (checker.adapter.callFor message).toList.map
        (fun call => { registry := checker.adapter.registry, call := call }) ++
      callsDuring (checker.process message) rest

/-- The metrics cover all calls. -/
structure BacktestResult.Covers (result : BacktestResult) (calls : List MadeCall) : Prop where
  /-- All orders accepted. -/
  submitted : result.ordersSubmitted = calls.countP (fun made => made.outcome = some .submitted)
  /-- All calls refused. -/
  rejected : result.ordersRejected = calls.countP (fun made => made.outcome = some .rejected)
  /-- All orders cancelled. -/
  cancelled : result.ordersCancelled = calls.countP (fun made => made.outcome = some .cancelled)
  /-- All orders replaced. -/
  replaced : result.ordersReplaced = calls.countP (fun made => made.outcome = some .replaced)
  /-- All trades. -/
  trades : result.tradesExecuted = (calls.flatMap MadeCall.trades).length
  /-- Their whole quantity, as far as 64 bits hold it. -/
  volume : result.totalTradeVolume.toNat = totalTraded (calls.flatMap MadeCall.trades) % 2 ^ 64

namespace InstrumentRegistry

/-- What the log stands for. -/
def outcomes (registry : InstrumentRegistry) : List Outcome :=
  registry.eventLog.map (fun event => event.payload.outcome)

/-- Emitting an event adds its outcome. -/
theorem outcomes_emit (registry : InstrumentRegistry) (payload : EventPayload) :
    (registry.emit payload).outcomes = registry.outcomes ++ [payload.outcome] := by
  simp [outcomes, emit]

/-- Emitting trades adds them. -/
theorem outcomes_emitTrades (registry : InstrumentRegistry) (symbol : Symbol)
    (trades : List Trade) :
    (trades.foldl (fun logged trade => logged.emit (trade.event symbol)) registry).outcomes =
      registry.outcomes ++ trades.map (fun trade => .traded trade.quantity) := by
  induction trades generalizing registry with
  | nil => simp
  | cons trade rest ih =>
    rw [List.foldl_cons, ih, outcomes_emit]
    simp [Trade.event, EventPayload.outcome]

/-- A routed call logs how it came out. -/
theorem outcomes_route (registry : InstrumentRegistry) (symbol : Symbol) (id : OrderId)
    (request : OrderManager Matcher → AcceptResult × OrderManager Matcher)
    (accepted : EventPayload) :
    (registry.route symbol id request accepted).2.outcomes = registry.outcomes ++
      [if (registry.route symbol id request accepted).1.accepted then accepted.outcome
        else .rejected] := by
  unfold route
  cases found : registry.find symbol with
  | none => exact outcomes_emit registry _
  | some instrument =>
    dsimp only
    by_cases answer : (request instrument.manager).1.accepted = true
    · simp only [answer, ↓reduceIte]
      exact outcomes_emit _ _
    · simp only [answer, Bool.false_eq_true, ↓reduceIte]
      exact outcomes_emit _ _

/-- A matched order logs how it came out and its trades. -/
theorem outcomes_matchOrder (registry : InstrumentRegistry) (symbol : Symbol) (order : Order) :
    (registry.matchOrder symbol order).2.outcomes = registry.outcomes ++
      ([if registry.matchAccepts symbol order then Outcome.submitted else Outcome.rejected] ++
        (registry.matchOrder symbol order).1.map (fun trade => .traded trade.quantity)) := by
  unfold matchOrder matchAccepts
  cases found : registry.find symbol with
  | none => exact outcomes_emit registry _
  | some instrument =>
    dsimp only
    rw [outcomes_emitTrades]
    by_cases answer : (instrument.manager.matchOrder order).1.accept.accepted = true
    · simp only [answer, ↓reduceIte, outcomes_emit, List.append_assoc]
      rfl
    · simp only [answer, Bool.false_eq_true, ↓reduceIte, outcomes_emit, List.append_assoc]
      rfl

/-- Every call logs how it came out and its trades. -/
theorem outcomes_call (registry : InstrumentRegistry) (call : RegistryCall) :
    (callRegistry registry call).2.outcomes =
      registry.outcomes ++ (MadeCall.outcomes { registry := registry, call := call }) := by
  cases call with
  | createInstrument symbol =>
    simp only [callRegistry, createInstrument, MadeCall.outcomes, MadeCall.outcome, MadeCall.trades,
      RegistryAnswer.tradesOf, Option.toList_none, List.map_nil, List.append_nil]
    split <;> rfl
  | snapshot symbol depth =>
    simp only [callRegistry, snapshot, MadeCall.outcomes, MadeCall.outcome, MadeCall.trades,
      RegistryAnswer.tradesOf, Option.toList_none, List.map_nil, List.append_nil]
    split <;> rfl
  | submitOrder symbol order =>
    exact outcomes_route registry symbol order.id (fun manager => manager.addOrder order)
      (.orderSubmitted symbol order.id order.side order.price order.quantity)
  | cancelOrder symbol id =>
    exact outcomes_route registry symbol id (fun manager => manager.cancelOrder id)
      (.orderCancelled symbol id)
  | cancelReplace symbol oldId newOrder =>
    exact outcomes_route registry symbol oldId (fun manager => manager.cancelReplace oldId newOrder)
      (.orderReplaced symbol oldId newOrder.price newOrder.quantity)
  | matchOrder symbol order =>
    rw [MadeCall.outcomes, MadeCall.trades]
    show (registry.matchOrder symbol order).2.outcomes = registry.outcomes ++
      ([if registry.matchAccepts symbol order then Outcome.submitted else Outcome.rejected] ++
        (registry.matchOrder symbol order).1.map (fun trade => .traded trade.quantity))
    exact outcomes_matchOrder registry symbol order

end InstrumentRegistry

/-- The end of messages makes no call. -/
theorem ItchEngineAdapter.callFor_ends (adapter : ItchEngineAdapter) {message : ItchMessage}
    (ends : message.endsSession = true) : adapter.callFor message = none := by
  cases message <;> simp_all [ItchMessage.endsSession, ItchEngineAdapter.callFor]

namespace ParityChecker

/-- What a checker's log stands for. -/
def outcomes (checker : ParityChecker) : List Outcome := checker.adapter.registry.outcomes

/-- Comparing a locate logs nothing. -/
theorem outcomes_compareLocate (checker : ParityChecker) (locate : StockLocate) :
    (checker.compareLocate locate).outcomes = checker.outcomes := by
  have unlogged : (checker.adapter.snapshot locate 1).2.registry.outcomes =
      checker.adapter.registry.outcomes := by
    unfold ItchEngineAdapter.snapshot
    split
    · rfl
    · simp only [InstrumentRegistry.snapshot]
      split <;> rfl
  unfold compareLocate
  split
  · rfl
  · dsimp only
    split <;> exact unlogged

/-- Comparing all locates logs nothing. -/
theorem outcomes_compareAllLocates (checker : ParityChecker) :
    checker.compareAllLocates.outcomes = checker.outcomes := by
  unfold compareAllLocates
  generalize checker.walk checker.knownLocates = locates
  induction locates generalizing checker with
  | nil => rfl
  | cons locate rest ih => rw [List.foldl_cons, ih, outcomes_compareLocate]

/-- `process` as a machine without outputs. -/
def processStep (checker : ParityChecker) (message : ItchMessage) : Unit × ParityChecker :=
  ((), checker.process message)

/-- Nothing is logged when the end of messages comes. -/
def closesEmpty (checker : ParityChecker) (message : ItchMessage) : Prop :=
  message.endsSession = true → checker.adapter.registry.eventLog = []

/-- A message logs what its call stands for, or clears the log. -/
theorem outcomes_process (checker : ParityChecker) (message : ItchMessage) :
    (checker.process message).outcomes =
      if message.endsSession then []
      else checker.outcomes ++ (checker.adapter.callFor message).toList.flatMap (fun call =>
        MadeCall.outcomes { registry := checker.adapter.registry, call := call }) := by
  have applied : (checker.process message).outcomes =
      (checker.adapter.apply message).2.registry.outcomes := by
    have learned : (checker.learn message).adapter = checker.adapter := by
      unfold learn
      split
      · rfl
      · split <;> rfl
    unfold process
    dsimp only
    split
    · rw [outcomes_compareAllLocates]
      exact congrArg (fun adapter => (ItchEngineAdapter.apply adapter message).2.registry.outcomes)
        learned
    · exact congrArg (fun adapter => (ItchEngineAdapter.apply adapter message).2.registry.outcomes)
        learned
  rw [applied]
  cases makes : checker.adapter.callFor message with
  | none =>
    rw [checker.adapter.apply_idle makes]
    split
    · rfl
    · simp [outcomes]
  | some call =>
    rw [checker.adapter.apply_call makes, if_neg ?_]
    · show (callRegistry checker.adapter.registry call).2.outcomes = _
      rw [InstrumentRegistry.outcomes_call]
      simp [outcomes]
    · intro ends
      rw [checker.adapter.callFor_ends ends] at makes
      cases makes

/-- What the messages log and what their calls stand for differ by what is cleared, which is
nothing when the log is empty at every end of messages. -/
theorem outcomes_run (checker : ParityChecker) (messages : List ItchMessage) :
    ∃ lost, checker.outcomes ++ (callsDuring checker messages).flatMap MadeCall.outcomes =
        lost ++ (messages.foldl process checker).outcomes ∧
      (lost = [] ↔ Admissible closesEmpty processStep checker messages) := by
  induction messages generalizing checker with
  | nil => exact ⟨[], by simp [callsDuring], by simp [Admissible]⟩
  | cons message rest ih =>
    obtain ⟨lost, same, empty⟩ := ih (checker.process message)
    rw [outcomes_process] at same
    cases ends : message.endsSession with
    | true =>
      -- The end of messages makes no call, and all that was logged before it is lost.
      have idle := checker.adapter.callFor_ends ends
      refine ⟨checker.outcomes ++ lost, ?_, ?_⟩
      · simp only [ends, ↓reduceIte, List.nil_append] at same
        simp [callsDuring, idle, same]
      · have logged : checker.outcomes = [] ↔ checker.adapter.registry.eventLog = [] := by
          simp [outcomes, InstrumentRegistry.outcomes]
        rw [List.append_eq_nil_iff, empty, logged]
        simp [Admissible, closesEmpty, processStep, ends]
    | false =>
      refine ⟨lost, ?_, ?_⟩
      · simp only [ends, Bool.false_eq_true, ↓reduceIte, List.append_assoc] at same
        rw [List.foldl_cons, ← same, callsDuring, List.flatMap_append]
        simp [List.flatMap_map]
      · rw [empty]
        simp [Admissible, closesEmpty, processStep, ends]

end ParityChecker

namespace Outcome

/-- The quantity of a trade. -/
def quantity? : Outcome → Option Quantity
  | traded quantity => some quantity
  | _ => none

/-- The quantities of the trades. -/
def quantities (outcomes : List Outcome) : List Quantity := outcomes.filterMap quantity?

/-- Their sum. -/
def volume (outcomes : List Outcome) : Nat :=
  ((quantities outcomes).map UInt64.toNat).sum

@[simp] theorem quantities_nil : quantities [] = [] := rfl

/-- The first outcome's quantity comes first. -/
@[simp] theorem quantities_cons (outcome : Outcome) (rest : List Outcome) :
    quantities (outcome :: rest) = outcome.quantity?.toList ++ quantities rest := by
  cases quantity : outcome.quantity? <;> simp [quantities, quantity]

/-- Quantities of two lists are those of the first and those of the second. -/
@[simp] theorem quantities_append (first second : List Outcome) :
    quantities (first ++ second) = quantities first ++ quantities second :=
  List.filterMap_append

end Outcome

namespace MadeCall

/-- How a call comes out is not a trade. -/
theorem quantities_outcome (made : MadeCall) : Outcome.quantities made.outcome.toList = [] := by
  unfold outcome
  split
  all_goals first | rfl | (split <;> rfl)

/-- The quantities of what a call stands for are those of its trades. -/
theorem quantities_outcomes (calls : List MadeCall) :
    Outcome.quantities (calls.flatMap outcomes) =
      (calls.flatMap trades).map (fun trade => trade.quantity) := by
  have traded (found : List Trade) :
      Outcome.quantities (found.map (fun trade => Outcome.traded trade.quantity)) =
        found.map (fun trade => trade.quantity) := by
    induction found with
    | nil => rfl
    | cons trade rest ih => simp [Outcome.quantity?, ih]
  induction calls with
  | nil => rfl
  | cons made rest ih => simp [outcomes, quantities_outcome, traded, ih]

/-- An outcome other than a trade is counted once for each call that came out so. -/
theorem count_outcomes (calls : List MadeCall) {result : Outcome}
    (plain : result.quantity? = none) :
    (calls.flatMap outcomes).count result =
      calls.countP (fun made => made.outcome = some result) := by
  have untraded (found : List Trade) :
      (found.map (fun trade => Outcome.traded trade.quantity)).count result = 0 := by
    rw [List.count_eq_zero]
    rintro member
    obtain ⟨trade, -, rfl⟩ := List.mem_map.mp member
    cases plain
  induction calls with
  | nil => rfl
  | cons made rest ih =>
    rw [List.flatMap_cons, List.count_append, ih, outcomes, List.count_append, untraded,
      List.countP_cons]
    cases made.outcome with
    | none => simp
    | some other => simp [List.count_cons, Nat.add_comm]

end MadeCall

namespace BacktestResult

/-- The counters are those of the outcomes. -/
structure Tells (result : BacktestResult) (outcomes : List Outcome) : Prop where
  submitted : result.ordersSubmitted = outcomes.count .submitted
  rejected : result.ordersRejected = outcomes.count .rejected
  cancelled : result.ordersCancelled = outcomes.count .cancelled
  replaced : result.ordersReplaced = outcomes.count .replaced
  trades : result.tradesExecuted = (Outcome.quantities outcomes).length
  volume : result.totalTradeVolume.toNat = Outcome.volume outcomes % 2 ^ 64

/-- Counting an event adds its outcome. -/
theorem Tells.count {result : BacktestResult} {outcomes : List Outcome}
    (tells : result.Tells outcomes) (payload : EventPayload) :
    (result.count payload).Tells (outcomes ++ [payload.outcome]) := by
  obtain ⟨submitted, rejected, cancelled, replaced, trades, volume⟩ := tells
  cases payload <;>
    constructor <;>
    simp [BacktestResult.count, EventPayload.outcome, List.count_append, Outcome.quantity?,
      Outcome.volume, UInt64.toNat_add, submitted, rejected, cancelled, replaced, trades,
      volume]

/-- Counting a log adds its outcomes. -/
theorem Tells.foldl_count {result : BacktestResult} {outcomes : List Outcome}
    (tells : result.Tells outcomes) (payloads : List EventPayload) :
    (payloads.foldl BacktestResult.count result).Tells
      (outcomes ++ payloads.map EventPayload.outcome) := by
  induction payloads generalizing result outcomes with
  | nil => simpa using tells
  | cons payload rest ih => simpa using ih (tells.count payload)

/-- The final snapshots leave the counters alone. -/
theorem Tells.foldl_shoot {result : BacktestResult} {outcomes : List Outcome}
    (tells : result.Tells outcomes) (depth : Nat) (registry : InstrumentRegistry)
    (symbols : List Symbol) :
    (symbols.foldl (shoot depth) (result, registry)).1.Tells outcomes := by
  induction symbols generalizing result registry with
  | nil => exact tells
  | cons symbol rest ih =>
    have shot : (shoot depth (result, registry) symbol).1.Tells outcomes :=
      ⟨tells.submitted, tells.rejected, tells.cancelled, tells.replaced, tells.trades,
        tells.volume⟩
    exact ih shot (shoot depth (result, registry) symbol).2

/-- Counters that are those of some outcomes and of fewer show that no more are missing than
none. -/
theorem Tells.lost_eq_nil {result : BacktestResult} {lost kept : List Outcome}
    (all : result.Tells (lost ++ kept)) (tells : result.Tells kept) : lost = [] := by
  rcases lost with _ | ⟨outcome, lost⟩
  · rfl
  · have submitted := all.submitted.symm.trans tells.submitted
    have rejected := all.rejected.symm.trans tells.rejected
    have cancelled := all.cancelled.symm.trans tells.cancelled
    have replaced := all.replaced.symm.trans tells.replaced
    have trades := all.trades.symm.trans tells.trades
    cases outcome <;>
      simp [List.count_append, Outcome.quantity?] at submitted rejected cancelled replaced trades <;>
      omega

/-- Covering calls is telling what they stand for. -/
theorem covers_iff_tells (result : BacktestResult) (calls : List MadeCall) :
    result.Covers calls ↔ result.Tells (calls.flatMap MadeCall.outcomes) := by
  have volume : Outcome.volume (calls.flatMap MadeCall.outcomes) =
      totalTraded (calls.flatMap MadeCall.trades) := by
    rw [Outcome.volume, MadeCall.quantities_outcomes, List.map_map]
    rfl
  constructor
  · intro covers
    refine ⟨?_, ?_, ?_, ?_, ?_, ?_⟩
    · rw [MadeCall.count_outcomes calls rfl, covers.submitted]
    · rw [MadeCall.count_outcomes calls rfl, covers.rejected]
    · rw [MadeCall.count_outcomes calls rfl, covers.cancelled]
    · rw [MadeCall.count_outcomes calls rfl, covers.replaced]
    · rw [MadeCall.quantities_outcomes, List.length_map, covers.trades]
    · rw [volume, covers.volume]
  · intro tells
    refine ⟨?_, ?_, ?_, ?_, ?_, ?_⟩
    · rw [← MadeCall.count_outcomes calls rfl, tells.submitted]
    · rw [← MadeCall.count_outcomes calls rfl, tells.rejected]
    · rw [← MadeCall.count_outcomes calls rfl, tells.cancelled]
    · rw [← MadeCall.count_outcomes calls rfl, tells.replaced]
    · rw [tells.trades, MadeCall.quantities_outcomes, List.length_map]
    · rw [← volume, tells.volume]

end BacktestResult

namespace BacktestRunner

/-- The checker of a run, before the first message. -/
def checker (config : BacktestConfig) (allocator : SlabAllocator)
    (walk : List StockLocate → List StockLocate) : ParityChecker :=
  ParityChecker.init
    (ItchEngineAdapter.init (InstrumentRegistry.init allocator config.backend)) everyMessage walk

/-- A replay processes the decoded messages. -/
theorem checker_replayMessages (checker : ParityChecker) (decoded skipped : Nat)
    (results : List ItchParseResult) :
    (results.foldl EventReplayer.replayMessage (checker, decoded, skipped)).1 =
      (okMessages results).foldl ParityChecker.process checker := by
  induction results generalizing checker decoded skipped with
  | nil => rfl
  | cons result rest ih =>
    cases ok : result.ok with
    | true => simpa [okMessages, ok, EventReplayer.replayMessage] using ih _ (decoded + 1) skipped
    | false => simpa [okMessages, ok, EventReplayer.replayMessage] using ih _ decoded (skipped + 1)

/-- The counters of a run are those of the log that its messages leave. -/
theorem replayFile_tells (config : BacktestConfig) (allocator : SlabAllocator)
    (walk : List StockLocate → List StockLocate) (bytes : List UInt8) :
    (replayFile config allocator walk bytes).Tells
      ((okMessages (ItchParser.init.feed bytes).1).foldl ParityChecker.process
        (checker config allocator walk)).outcomes := by
  have log : ((replayer config allocator walk).replayFile bytes).1.engineEventLog =
      ((okMessages (ItchParser.init.feed bytes).1).foldl ParityChecker.process
        (checker config allocator walk)).adapter.registry.eventLog :=
    congrArg (fun final => final.adapter.registry.eventLog)
      (checker_replayMessages (checker config allocator walk) 0 0 (ItchParser.init.feed bytes).1)
  have fresh (decoded skipped : Nat) : BacktestResult.Tells
      { messagesDecoded := decoded, messagesSkipped := skipped } [] :=
    ⟨rfl, rfl, rfl, rfl, rfl, rfl⟩
  unfold replayFile
  dsimp only
  rw [log]
  refine BacktestResult.Tells.foldl_shoot ?_ config.bookDepth _ _
  simpa [ParityChecker.outcomes, InstrumentRegistry.outcomes, Function.comp_def]
    using (fresh _ _).foldl_count (List.map Event.payload _)

/-- The metrics cover all calls of the replay exactly when nothing is logged before an end of
messages. -/
theorem metrics_cover_replay (config : BacktestConfig) (allocator : SlabAllocator)
    (walk : List StockLocate → List StockLocate) (bytes : List UInt8) :
    let start := checker config allocator walk
    let messages := okMessages (ItchParser.init.feed bytes).1
    (replayFile config allocator walk bytes).Covers (callsDuring start messages) ↔
      Admissible ParityChecker.closesEmpty ParityChecker.processStep start messages := by
  intro start messages
  have tells := replayFile_tells config allocator walk bytes
  obtain ⟨lost, same, empty⟩ := start.outcomes_run messages
  have fresh : start.outcomes = [] := rfl
  rw [fresh, List.nil_append] at same
  rw [BacktestResult.covers_iff_tells, same, ← empty]
  constructor
  · intro all
    exact all.lost_eq_nil tells
  · rintro rfl
    exact tells

/-- A directory record, an order for ten shares, its execution and the end of messages. -/
def shortDay : List UInt8 :=
  [0, 39, 0x52, 0, 1, 0, 0, 0, 0, 0, 0, 0, 0, 0x54, 0x49, 0x54, 0x41, 0x4e, 0x20, 0x20,
    0x20, 0x51, 0x4e, 0, 0, 0, 100, 0x4e, 0x43, 0x5a, 0x20, 0x50, 0x4e, 0x4e, 0x31, 0x4e, 0, 0,
    0, 0, 0x4e] ++
  [0, 36, 0x41, 0, 1, 0, 0, 0, 0, 0, 0, 0, 0, 0, 0, 0, 0, 0, 0, 0, 7, 0x42, 0, 0, 0, 10,
    0x54, 0x49, 0x54, 0x41, 0x4e, 0x20, 0x20, 0x20, 0, 0, 0, 100] ++
  [0, 31, 0x45, 0, 1, 0, 0, 0, 0, 0, 0, 0, 0, 0, 0, 0, 0, 0, 0, 0, 7, 0, 0, 0, 10, 0, 0, 0, 0,
    0, 0, 0, 0] ++
  [0, 12, 0x53, 0, 0, 0, 0, 0, 0, 0, 0, 0, 0, 0x43]

/-- The engine accepts the order and trades its ten shares, but the metrics of that day are all
zero. -/
theorem closing_clears_metrics :
    let start := checker {} (.consecutive 2 (by decide)) id
    let calls := callsDuring start (okMessages (ItchParser.init.feed shortDay).1)
    let result := replayFile {} (.consecutive 2 (by decide)) id shortDay
    calls.countP (fun made => made.outcome = some .submitted) = 2 ∧
      (calls.flatMap MadeCall.trades).length = 1 ∧
      totalTraded (calls.flatMap MadeCall.trades) = 10 ∧
      result.ordersSubmitted = 0 ∧ result.tradesExecuted = 0 ∧ result.totalTradeVolume = 0 ∧
      ¬ result.Covers calls := by
  intro start calls result
  have submitted : calls.countP (fun made => made.outcome = some .submitted) = 2 := by
    decide +kernel
  have traded : (calls.flatMap MadeCall.trades).length = 1 ∧
      totalTraded (calls.flatMap MadeCall.trades) = 10 := by
    decide +kernel
  have cleared : result.ordersSubmitted = 0 ∧ result.tradesExecuted = 0 ∧
      result.totalTradeVolume = 0 := by
    decide +kernel
  refine ⟨submitted, traded.1, traded.2, cleared.1, cleared.2.1, cleared.2.2, ?_⟩
  intro covers
  have counted := covers.submitted
  rw [cleared.1, submitted] at counted
  cases counted

end BacktestRunner

end Titan
