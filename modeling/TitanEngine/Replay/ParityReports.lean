import TitanEngine.Exchange.Snapshots
import TitanEngine.Replay.AdapterCalls
import TitanEngine.Replay.EventReplayer
import TitanEngine.Replay.FeedParity

/-!
# What a parity report says

A checkpoint takes snapshots of both books, which count in them. The report of any stream of
messages, well formed or not and over any registry, is nevertheless what two plain runs of the books
decide: at every multiple of the interval, the locates seen so far that the feed has registered are
compared as the undisturbed books stand there. Nothing compared is left out of the counters, and the
mismatches stored are the first ones. A well-formed session has none.
-/

namespace Titan

open Library Std

namespace SymbolBook

/-- A book whose snapshots were not counted. -/
def unnumbered (book : SymbolBook) : SymbolBook := { book with nextSnapshotSequenceNumber := 0 }

/-- The change does not look at the count and keeps it. -/
def Uncounted (change : SymbolBook → SymbolBook) : Prop :=
  ∀ book, (change book).unnumbered = change book.unnumbered

theorem uncounted_addOrder (ref : OrderRefNumber) (side : Side) (shares : Quantity)
    (price : Price) : Uncounted (fun book => book.addOrder ref side shares price) := by
  intro book
  cases side <;> rfl

theorem uncounted_removeLevel (side : Side) (price : Price) (qty : Quantity) :
    Uncounted (fun book => book.removeLevel side price qty) := by
  intro book
  have same : book.unnumbered.levels side = book.levels side := by cases side <;> rfl
  simp only [removeLevel, same]
  split
  · rfl
  · cases side <;> split <;> rfl

theorem uncounted_reduceOrder (ref : OrderRefNumber) (shares : Quantity) :
    Uncounted (fun book => book.reduceOrder ref shares) := by
  intro book
  show (book.reduceOrder ref shares).unnumbered = book.unnumbered.reduceOrder ref shares
  have same : book.unnumbered.orders[ref]? = book.orders[ref]? := rfl
  unfold reduceOrder
  rw [same]
  cases book.orders[ref]? with
  | none => rfl
  | some order =>
    have removed := uncounted_removeLevel order.side order.price
      (min shares order.remainingShares) book
    simp only at removed ⊢
    rw [← removed]
    split <;> rfl

theorem uncounted_deleteOrder (ref : OrderRefNumber) :
    Uncounted (fun book => book.deleteOrder ref) := by
  intro book
  show (book.deleteOrder ref).unnumbered = book.unnumbered.deleteOrder ref
  have same : book.unnumbered.orders[ref]? = book.orders[ref]? := rfl
  unfold deleteOrder
  rw [same]
  cases book.orders[ref]? with
  | none => rfl
  | some order =>
    have removed := uncounted_removeLevel order.side order.price order.remainingShares book
    simp only at removed ⊢
    rw [← removed]
    rfl

end SymbolBook

namespace ItchBookBuilder

/-- A builder whose snapshots were not counted. -/
def unnumbered (builder : ItchBookBuilder) : ItchBookBuilder :=
  { books := builder.books.map (fun _ => SymbolBook.unnumbered) }

theorem getElem?_unnumbered (builder : ItchBookBuilder) (locate : StockLocate) :
    builder.unnumbered.books[locate]? = builder.books[locate]?.map SymbolBook.unnumbered :=
  ExtTreeMap.getElem?_map

theorem unnumbered_onBook (builder : ItchBookBuilder) (locate : StockLocate)
    {change : SymbolBook → SymbolBook} (uncounted : SymbolBook.Uncounted change) :
    (builder.onBook locate change).unnumbered = builder.unnumbered.onBook locate change := by
  unfold onBook
  rw [getElem?_unnumbered]
  cases builder.books[locate]? with
  | none => rfl
  | some book =>
    simp only [Option.map_some, unnumbered, map_insert, uncounted book]

/-- No message looks at the counts. -/
theorem unnumbered_apply (builder : ItchBookBuilder) (message : ItchMessage) :
    (builder.apply message).unnumbered = builder.unnumbered.apply message := by
  cases message with
  | timestampSeconds message => rfl
  | systemEvent message =>
    simp only [apply, handleSystemEvent]
    split
    · exact congrArg ItchBookBuilder.mk (ExtTreeMap.ext_getElem? (fun _ => ExtTreeMap.getElem?_map))
    · rfl
  | stockDirectory message =>
    simp only [apply, handleStockDirectory, unnumbered, map_insert,
      ExtTreeMap.getD_eq_getD_getElem?, ExtTreeMap.getElem?_map]
    cases builder.books[message.stockLocate]? <;> rfl
  | addOrder message => exact builder.unnumbered_onBook _ (SymbolBook.uncounted_addOrder _ _ _ _)
  | addOrderMpid message =>
    exact builder.unnumbered_onBook _ (SymbolBook.uncounted_addOrder _ _ _ _)
  | orderExecuted message =>
    exact builder.unnumbered_onBook _ (SymbolBook.uncounted_reduceOrder _ _)
  | orderExecutedWithPrice message =>
    exact builder.unnumbered_onBook _ (SymbolBook.uncounted_reduceOrder _ _)
  | orderCancel message => exact builder.unnumbered_onBook _ (SymbolBook.uncounted_reduceOrder _ _)
  | orderDelete message => exact builder.unnumbered_onBook _ (SymbolBook.uncounted_deleteOrder _)
  | orderReplace message =>
    apply builder.unnumbered_onBook
    intro book
    have same : book.unnumbered.orders[message.originalOrderReferenceNumber]? =
        book.orders[message.originalOrderReferenceNumber]? := rfl
    simp only [same]
    cases book.orders[message.originalOrderReferenceNumber]? with
    | none => rfl
    | some original =>
      have deleted := SymbolBook.uncounted_deleteOrder message.originalOrderReferenceNumber book
      simp only at deleted ⊢
      rw [← deleted]
      exact SymbolBook.uncounted_addOrder _ _ _ _ _

/-- A snapshot only counts. -/
theorem unnumbered_snapshot (builder : ItchBookBuilder) (locate : StockLocate) (depth : Nat) :
    (builder.snapshot locate depth).2.unnumbered = builder.unnumbered := by
  unfold snapshot
  cases found : builder.books[locate]? with
  | none => rfl
  | some book => exact congrArg ItchBookBuilder.mk (map_insert_of_same found rfl)

/-- What is shown does not depend on the counts. -/
theorem snapshot_unnumbered (builder : ItchBookBuilder) (locate : StockLocate) (depth : Nat) :
    (builder.unnumbered.snapshot locate depth).1 =
      (builder.snapshot locate depth).1.map (fun taken => { taken with sequenceNumber := 0 }) := by
  unfold snapshot
  rw [getElem?_unnumbered]
  cases builder.books[locate]? with
  | none => rfl
  | some book => rfl

end ItchBookBuilder

namespace ItchEngineAdapter

/-- An adapter whose registry's snapshots were not counted. -/
def unnumbered (adapter : ItchEngineAdapter) : ItchEngineAdapter :=
  { adapter with registry := adapter.registry.unnumbered }

/-- The records an adapter looks up do not depend on the counts. -/
theorem findOrder_unnumbered (adapter : ItchEngineAdapter) :
    adapter.unnumbered.registry.findOrder = adapter.registry.findOrder := by
  funext symbol id
  exact adapter.registry.findOrder_unnumbered symbol id

/-- Neither does the call a message makes. -/
theorem callFor_unnumbered (adapter : ItchEngineAdapter) (message : ItchMessage) :
    adapter.unnumbered.callFor message = adapter.callFor message := by
  have records := adapter.findOrder_unnumbered
  cases message with
  | orderExecuted message =>
    simp only [callFor, executionCall, records]
    rfl
  | orderExecutedWithPrice message =>
    simp only [callFor, executionCall, records]
    rfl
  | orderCancel message =>
    simp only [callFor, cancelCall, records]
    rfl
  | orderReplace message =>
    simp only [callFor, replaceCall, records]
    rfl
  | _ => rfl

/-- No message makes the call of a snapshot. -/
theorem acts_of_callFor {adapter : ItchEngineAdapter} {message : ItchMessage} {call : RegistryCall}
    (makes : adapter.callFor message = some call) : call.acts = true := by
  cases message with
  | systemEvent message => cases makes
  | timestampSeconds message => cases makes
  | stockDirectory message =>
    obtain rfl := Option.some.inj makes
    rfl
  | addOrder message =>
    obtain ⟨_, _, rfl⟩ := addCall_eq_some_iff.mp makes
    rfl
  | addOrderMpid message =>
    obtain ⟨_, _, rfl⟩ := addCall_eq_some_iff.mp makes
    rfl
  | orderExecuted message =>
    obtain ⟨_, _, _, _, rfl⟩ := executionCall_eq_some_iff.mp makes
    rfl
  | orderExecutedWithPrice message =>
    obtain ⟨_, _, _, _, rfl⟩ := executionCall_eq_some_iff.mp makes
    rfl
  | orderCancel message =>
    obtain ⟨_, _, _, _, rfl⟩ := cancelCall_eq_some_iff.mp makes
    split <;> rfl
  | orderDelete message =>
    obtain ⟨_, _, rfl⟩ := deleteCall_eq_some_iff.mp makes
    rfl
  | orderReplace message =>
    obtain ⟨_, _, _, _, rfl⟩ := replaceCall_eq_some_iff.mp makes
    rfl

/-- No message looks at the counts. -/
theorem apply_unnumbered (adapter : ItchEngineAdapter) (message : ItchMessage) :
    adapter.unnumbered.apply message =
      ((adapter.apply message).1, (adapter.apply message).2.unnumbered) := by
  have same := adapter.callFor_unnumbered message
  cases makes : adapter.callFor message with
  | none =>
    rw [makes] at same
    rw [adapter.apply_idle_eq makes, adapter.unnumbered.apply_idle_eq same]
    cases message.endsSession with
    | false => rfl
    | true =>
      have emptied : (∅ : SymbolMap Instrument).map (fun _ => Instrument.unnumbered) = ∅ :=
        ExtTreeMap.ext_getElem? (fun _ => ExtTreeMap.getElem?_map)
      simp only [↓reduceIte, reset, unnumbered, InstrumentRegistry.reset,
        InstrumentRegistry.unnumbered, emptied]
  | some call =>
    rw [makes] at same
    rw [adapter.apply_call makes, adapter.unnumbered.apply_call same]
    have registry : callRegistry adapter.unnumbered.registry call = _ :=
      adapter.registry.callRegistry_unnumbered (acts_of_callFor makes)
    have symbols : adapter.unnumbered.symbolsAfter message = adapter.symbolsAfter message := by
      cases message <;> rfl
    have ids : ∀ succeeded, adapter.unnumbered.idsAfter message succeeded =
        adapter.idsAfter message succeeded := by
      intro succeeded
      cases message <;> rfl
    have next : adapter.unnumbered.nextIdAfter call = adapter.nextIdAfter call := by
      cases call <;> rfl
    simp only [called, registry, symbols, ids, next]
    rfl

/-- A snapshot only counts. -/
theorem unnumbered_snapshot (adapter : ItchEngineAdapter) (locate : StockLocate) (depth : Nat) :
    (adapter.snapshot locate depth).2.unnumbered = adapter.unnumbered := by
  unfold snapshot
  cases adapter.symbols[locate]? with
  | none => rfl
  | some symbol =>
    simp only [unnumbered, InstrumentRegistry.snapshot_unnumbered]

/-- What is shown does not depend on the counts. -/
theorem snapshot_unnumbered (adapter : ItchEngineAdapter) (locate : StockLocate) (depth : Nat) :
    (adapter.unnumbered.snapshot locate depth).1 =
      { (adapter.snapshot locate depth).1 with sequenceNumber := 0 } := by
  have same : adapter.unnumbered.symbols[locate]? = adapter.symbols[locate]? := rfl
  unfold snapshot
  rw [same]
  cases adapter.symbols[locate]? with
  | none => rfl
  | some symbol => exact adapter.registry.levels_unnumbered symbol depth

end ItchEngineAdapter

/-- A mismatch whose snapshots were not counted. -/
def ParityMismatch.unnumbered (mismatch : ParityMismatch) : ParityMismatch where
  messageIndex := mismatch.messageIndex
  feedSnapshot := { mismatch.feedSnapshot with sequenceNumber := 0 }
  engineSnapshot := { mismatch.engineSnapshot with sequenceNumber := 0 }

/-- The two snapshots have the same best levels. -/
def ParityMismatch.agrees (mismatch : ParityMismatch) : Bool :=
  topMatches mismatch.feedSnapshot.bids mismatch.engineSnapshot.bids &&
    topMatches mismatch.feedSnapshot.asks mismatch.engineSnapshot.asks

/-- What is compared of a locate: both books to a depth of one level, if the feed has registered
it. -/
def compareTops (messageIndex : Nat) (builder : ItchBookBuilder) (adapter : ItchEngineAdapter)
    (locate : StockLocate) : Option ParityMismatch :=
  (builder.snapshot locate 1).1.map (fun feedSnapshot =>
    { messageIndex := messageIndex
      feedSnapshot := feedSnapshot
      engineSnapshot := (adapter.snapshot locate 1).1 })

/-- The locates of messages, in the order in which they were first seen. -/
def locatesSeen (messages : List ItchMessage) : List StockLocate :=
  (messages.filterMap extractLocate).eraseDups

/-- The feed's own book after messages that nobody observes. -/
def builderAfter (messages : List ItchMessage) : ItchBookBuilder :=
  messages.foldl ItchBookBuilder.apply ItchBookBuilder.init

/-- The engine over a registry, after messages that nobody observes. -/
def adapterAfter (registry : InstrumentRegistry) (messages : List ItchMessage) :
    ItchEngineAdapter :=
  messages.foldl (fun adapter message => (adapter.apply message).2)
    (ItchEngineAdapter.init registry)

/-- What is compared at a checkpoint after the given messages. -/
def comparedAfter (registry : InstrumentRegistry) (walk : List StockLocate → List StockLocate)
    (messages : List ItchMessage) : List ParityMismatch :=
  ((walk (locatesSeen messages)).filterMap
    (compareTops messages.length (builderAfter messages) (adapterAfter registry messages))).map
    ParityMismatch.unnumbered

/-- What is compared along messages: a checkpoint at every multiple of the interval. -/
def compared (registry : InstrumentRegistry) (checkpointInterval : CheckpointInterval)
    (walk : List StockLocate → List StockLocate) (messages : List ItchMessage) :
    List ParityMismatch :=
  (List.range (messages.length / checkpointInterval.val)).flatMap (fun checkpoint =>
    comparedAfter registry walk (messages.take ((checkpoint + 1) * checkpointInterval.val)))

/-- The report counts what was compared and keeps the first few mismatches. -/
structure ParityReport.Summarises (report : ParityReport) (seen : List ParityMismatch) :
    Prop where
  /-- Everything compared is counted. -/
  compared : report.checkpointsCompared = seen.length
  /-- So is every mismatch. -/
  mismatches : report.mismatchCount = (seen.filter (fun pair => !pair.agrees)).length
  /-- The first few of them are kept. -/
  first : report.firstMismatches.map ParityMismatch.unnumbered =
    (seen.filter (fun pair => !pair.agrees)).take kMaxStoredMismatches

/-- What is compared does not depend on the counts. -/
theorem compareTops_unnumbered (messageIndex : Nat) (builder : ItchBookBuilder)
    (adapter : ItchEngineAdapter) (locate : StockLocate) :
    compareTops messageIndex builder.unnumbered adapter.unnumbered locate =
      (compareTops messageIndex builder adapter locate).map ParityMismatch.unnumbered := by
  unfold compareTops
  rw [builder.snapshot_unnumbered, adapter.snapshot_unnumbered]
  cases (builder.snapshot locate 1).1 <;> rfl

/-- So books that differ in their counts compare alike. -/
theorem compareTops_congr {builder builder' : ItchBookBuilder}
    {adapter adapter' : ItchEngineAdapter} (messageIndex : Nat)
    (books : builder.unnumbered = builder'.unnumbered)
    (engines : adapter.unnumbered = adapter'.unnumbered) (locates : List StockLocate) :
    (locates.filterMap (compareTops messageIndex builder adapter)).map ParityMismatch.unnumbered =
      (locates.filterMap (compareTops messageIndex builder' adapter')).map
        ParityMismatch.unnumbered := by
  rw [List.map_filterMap, List.map_filterMap]
  refine List.filterMap_congr (fun locate _ => ?_)
  rw [← compareTops_unnumbered, books, engines, compareTops_unnumbered]

/-- One more comparison, counted and kept as it should be. -/
theorem ParityReport.Summarises.compare {report next : ParityReport} {seen : List ParityMismatch}
    (summary : report.Summarises seen) {pair : ParityMismatch}
    (counted : next.checkpointsCompared = report.checkpointsCompared + 1)
    (matched : pair.agrees = true → next.mismatchCount = report.mismatchCount ∧
      next.firstMismatches = report.firstMismatches)
    (differed : pair.agrees = false → next.mismatchCount = report.mismatchCount + 1 ∧
      next.firstMismatches =
        if report.firstMismatches.length < kMaxStoredMismatches then
          report.firstMismatches ++ [pair]
        else report.firstMismatches) :
    next.Summarises (seen ++ [pair.unnumbered]) := by
  have shown : pair.unnumbered.agrees = pair.agrees := rfl
  cases same : pair.agrees with
  | true =>
    obtain ⟨count, kept⟩ := matched same
    have alike : (seen ++ [pair.unnumbered]).filter (fun pair => !pair.agrees) =
        seen.filter (fun pair => !pair.agrees) := by
      simp [List.filter_append, shown, same]
    constructor
    · rw [counted, summary.compared, List.length_append, List.length_singleton]
    · rw [alike, count, summary.mismatches]
    · rw [alike, kept, summary.first]
  | false =>
    obtain ⟨count, kept⟩ := differed same
    have longer : (seen ++ [pair.unnumbered]).filter (fun pair => !pair.agrees) =
        seen.filter (fun pair => !pair.agrees) ++ [pair.unnumbered] := by
      simp [List.filter_append, shown, same]
    have stored : report.firstMismatches.length =
        min kMaxStoredMismatches (seen.filter (fun pair => !pair.agrees)).length := by
      rw [← List.length_map ParityMismatch.unnumbered, summary.first, List.length_take]
    constructor
    · rw [counted, summary.compared, List.length_append, List.length_singleton]
    · rw [longer, count, summary.mismatches, List.length_append, List.length_singleton]
    · rw [longer, kept]
      by_cases room : report.firstMismatches.length < kMaxStoredMismatches
      · have few : (seen.filter (fun pair => !pair.agrees)).length < kMaxStoredMismatches := by
          omega
        rw [if_pos room, List.map_append, summary.first, List.take_of_length_le (by omega),
          List.take_of_length_le (by
            rw [List.length_append, List.length_singleton]
            omega)]
        rfl
      · have many : kMaxStoredMismatches ≤ (seen.filter (fun pair => !pair.agrees)).length := by
          omega
        rw [if_neg room, summary.first, List.take_append_of_le_length many]

namespace ParityChecker

/-- What comparisons leave as it was. -/
structure Observed (checker next : ParityChecker) : Prop where
  /-- The feed's books, but for their counts. -/
  builder : next.builder.unnumbered = checker.builder.unnumbered
  /-- The engine, but for its counts. -/
  adapter : next.adapter.unnumbered = checker.adapter.unnumbered
  /-- The locates seen. -/
  known : next.knownLocates = checker.knownLocates
  /-- The interval. -/
  interval : next.checkpointInterval = checker.checkpointInterval
  /-- The order in which a set is walked. -/
  walk : next.walk = checker.walk
  /-- The number of messages. -/
  processed : next.report.messagesProcessed = checker.report.messagesProcessed
  /-- The feed's volume. -/
  feed : next.report.feedTradeVolume = checker.report.feedTradeVolume
  /-- The engine's volume. -/
  engine : next.report.engineTradeVolume = checker.report.engineTradeVolume

theorem Observed.refl (checker : ParityChecker) : Observed checker checker :=
  ⟨rfl, rfl, rfl, rfl, rfl, rfl, rfl, rfl⟩

theorem Observed.trans {first second third : ParityChecker} (before : Observed first second)
    (after : Observed second third) : Observed first third where
  builder := after.builder.trans before.builder
  adapter := after.adapter.trans before.adapter
  known := after.known.trans before.known
  interval := after.interval.trans before.interval
  walk := after.walk.trans before.walk
  processed := after.processed.trans before.processed
  feed := after.feed.trans before.feed
  engine := after.engine.trans before.engine

/-- Comparing one locate only observes, and the report goes on as a summary. -/
theorem observed_compareLocate (checker : ParityChecker) (locate : StockLocate)
    {seen : List ParityMismatch} (summary : checker.report.Summarises seen) :
    Observed checker (checker.compareLocate locate) ∧
      (checker.compareLocate locate).report.Summarises
        (seen ++ ((compareTops checker.report.messagesProcessed checker.builder checker.adapter
          locate).map ParityMismatch.unnumbered).toList) := by
  have builder := checker.builder.unnumbered_snapshot locate 1
  have adapter := checker.adapter.unnumbered_snapshot locate 1
  cases taken : checker.builder.snapshot locate 1 with
  | mk feedSnap counted =>
    rw [taken] at builder
    cases feedSnap with
    | none =>
      simp only [compareLocate, compareTops, taken, Option.map_none, Option.toList_none,
        List.append_nil]
      exact ⟨.refl checker, summary⟩
    | some feedSnap =>
      simp only [compareLocate, compareTops, taken, Option.map_some, Option.toList_some]
      let pair : ParityMismatch :=
        { messageIndex := checker.report.messagesProcessed
          feedSnapshot := feedSnap
          engineSnapshot := (checker.adapter.snapshot locate 1).1 }
      cases same : pair.agrees with
      | true =>
        have top : (topMatches feedSnap.bids (checker.adapter.snapshot locate 1).1.bids &&
          topMatches feedSnap.asks (checker.adapter.snapshot locate 1).1.asks) = true := same
        rw [if_pos top]
        refine ⟨⟨builder, adapter, rfl, rfl, rfl, rfl, rfl, rfl⟩, ?_⟩
        exact summary.compare rfl (fun _ => ⟨rfl, rfl⟩)
          (fun differs => absurd (same.symm.trans differs) (by simp))
      | false =>
        have top : ¬ (topMatches feedSnap.bids (checker.adapter.snapshot locate 1).1.bids &&
          topMatches feedSnap.asks (checker.adapter.snapshot locate 1).1.asks) = true := by
          intro agrees
          exact absurd (agrees.symm.trans same) (by simp)
        rw [if_neg top]
        refine ⟨⟨builder, adapter, rfl, rfl, rfl, rfl, rfl, rfl⟩, ?_⟩
        exact summary.compare rfl (fun agrees => absurd (agrees.symm.trans same) (by simp))
          (fun _ => ⟨rfl, rfl⟩)

/-- Comparing any locates only observes, and every one of them is compared as the books stood
before. -/
theorem observed_compareAll (locates : List StockLocate) (checker : ParityChecker)
    {seen : List ParityMismatch} (summary : checker.report.Summarises seen) :
    Observed checker (locates.foldl compareLocate checker) ∧
      (locates.foldl compareLocate checker).report.Summarises
        (seen ++ (locates.filterMap (compareTops checker.report.messagesProcessed checker.builder
          checker.adapter)).map ParityMismatch.unnumbered) := by
  induction locates generalizing checker seen with
  | nil => simpa using ⟨Observed.refl checker, summary⟩
  | cons locate rest ih =>
    obtain ⟨here, next⟩ := checker.observed_compareLocate locate summary
    obtain ⟨later, final⟩ := ih (checker.compareLocate locate) next
    refine ⟨here.trans later, ?_⟩
    rw [List.foldl_cons]
    -- the comparison before counted, which no later one can see
    have same := compareTops_congr checker.report.messagesProcessed here.builder here.adapter rest
    rw [here.processed, same, List.append_assoc] at final
    have listed : ((locate :: rest).filterMap (compareTops checker.report.messagesProcessed
          checker.builder checker.adapter)).map ParityMismatch.unnumbered =
        ((compareTops checker.report.messagesProcessed checker.builder checker.adapter
          locate).map ParityMismatch.unnumbered).toList ++
        (rest.filterMap (compareTops checker.report.messagesProcessed checker.builder
          checker.adapter)).map ParityMismatch.unnumbered := by
      cases first : compareTops checker.report.messagesProcessed checker.builder checker.adapter
        locate with
      | none => rw [List.filterMap_cons_none first]; rfl
      | some pair => rw [List.filterMap_cons_some first]; rfl
    rw [listed]
    exact final

/-- Where a checker stands that has processed messages, with the comparisons in its report. -/
structure Processed (registry : InstrumentRegistry) (checkpointInterval : CheckpointInterval)
    (order : List StockLocate → List StockLocate) (messages : List ItchMessage)
    (seen : List ParityMismatch) (checker : ParityChecker) : Prop where
  /-- The feed's books are those nobody observed. -/
  builder : checker.builder.unnumbered = (builderAfter messages).unnumbered
  /-- The engine is the one nobody observed. -/
  adapter : checker.adapter.unnumbered = (adapterAfter registry messages).unnumbered
  /-- The locates seen are remembered. -/
  known : checker.knownLocates = locatesSeen messages
  /-- The interval stays. -/
  interval : checker.checkpointInterval = checkpointInterval
  /-- So does the order of a walk. -/
  walk : checker.walk = order
  /-- Every message is counted. -/
  processed : checker.report.messagesProcessed = messages.length
  /-- The feed's volume is what the messages execute. -/
  feed : checker.report.feedTradeVolume =
    (messages.map (fun message => (executedSharesOf message).toUInt64)).sum
  /-- The engine's volume is its own. -/
  engine : checker.report.engineTradeVolume = (adapterAfter registry messages).tradeVolume
  /-- The report summarises the comparisons. -/
  report : checker.report.Summarises seen

/-- What is compared along one more message. -/
theorem compared_concat (registry : InstrumentRegistry) {checkpointInterval : CheckpointInterval}
    (walk : List StockLocate → List StockLocate) (messages : List ItchMessage)
    (message : ItchMessage) :
    compared registry checkpointInterval walk (messages ++ [message]) =
      compared registry checkpointInterval walk messages ++
        if (messages.length + 1) % checkpointInterval.val = 0 then
          comparedAfter registry walk (messages ++ [message])
        else [] := by
  have earlier : ∀ checkpoint ∈ List.range (messages.length / checkpointInterval.val),
      (messages ++ [message]).take ((checkpoint + 1) * checkpointInterval.val) =
        messages.take ((checkpoint + 1) * checkpointInterval.val) := by
    intro checkpoint inside
    have below : (checkpoint + 1) * checkpointInterval.val ≤ messages.length :=
      (Nat.mul_le_mul_right _ (List.mem_range.mp inside)).trans (Nat.div_mul_le_self _ _)
    exact List.take_append_of_le_length below
  have kept : (List.range (messages.length / checkpointInterval.val)).flatMap (fun checkpoint =>
      comparedAfter registry walk
        ((messages ++ [message]).take ((checkpoint + 1) * checkpointInterval.val))) =
      compared registry checkpointInterval walk messages := by
    refine List.flatMap_congr (fun checkpoint inside => ?_)
    rw [earlier checkpoint inside]
  unfold compared at kept ⊢
  rw [List.length_append, List.length_singleton]
  by_cases due : (messages.length + 1) % checkpointInterval.val = 0
  · have count := Nat.succ_div_of_mod_eq_zero due
    have whole : (messages.length / checkpointInterval.val + 1) * checkpointInterval.val =
        messages.length + 1 := by
      rw [← count]
      exact Nat.div_mul_cancel (Nat.dvd_of_mod_eq_zero due)
    rw [count, List.range_succ, List.flatMap_append, kept, if_pos due, List.flatMap_singleton,
      whole, List.take_of_length_le (by rw [List.length_append, List.length_singleton])]
  · rw [Nat.succ_div_of_mod_ne_zero due, kept, if_neg due, List.append_nil]

/-- One more entry is kept if it is new. -/
theorem eraseDups_concat (locates : List StockLocate) (locate : StockLocate) :
    (locates ++ [locate]).eraseDups =
      if locate ∈ locates then locates.eraseDups else locates.eraseDups ++ [locate] := by
  rw [List.eraseDups_append]
  by_cases before : locate ∈ locates
  · simp [List.removeAll, before]
  · simp [List.removeAll, before, List.eraseDups_cons]

/-- The locates seen after one more message. -/
theorem knownLocates_learn (checker : ParityChecker) {messages : List ItchMessage}
    (known : checker.knownLocates = locatesSeen messages) (message : ItchMessage) :
    (checker.learn message).knownLocates = locatesSeen (messages ++ [message]) := by
  unfold learn
  rw [locatesSeen, List.filterMap_append]
  cases located : extractLocate message with
  | none =>
    rw [List.filterMap_cons_none located, List.filterMap_nil, List.append_nil]
    exact known
  | some locate =>
    rw [List.filterMap_cons_some located, List.filterMap_nil, eraseDups_concat]
    have seen : locate ∈ checker.knownLocates ↔ locate ∈ messages.filterMap extractLocate := by
      rw [known]
      exact List.mem_eraseDups
    by_cases before : locate ∈ messages.filterMap extractLocate
    · rw [if_pos before, ← locatesSeen, ← known]
      exact congrArg knownLocates (if_pos (seen.mpr before))
    · rw [if_neg before, ← locatesSeen, ← known]
      exact congrArg knownLocates (if_neg (mt seen.mp before))

/-- Remembering a locate keeps everything else. -/
theorem learn_only (checker : ParityChecker) (message : ItchMessage) :
    checker.learn message =
      { checker with knownLocates := (checker.learn message).knownLocates } := by
  unfold learn
  split
  · rfl
  · split <;> rfl

/-- `process`, up to the comparison. -/
def advance (checker : ParityChecker) (message : ItchMessage) : ParityChecker where
  builder := checker.builder.apply message
  adapter := (checker.adapter.apply message).2
  checkpointInterval := checker.checkpointInterval
  walk := checker.walk
  knownLocates := (checker.learn message).knownLocates
  report := { checker.report with
    feedTradeVolume := checker.report.feedTradeVolume + (executedSharesOf message).toUInt64
    engineTradeVolume := (checker.adapter.apply message).2.tradeVolume
    messagesProcessed := checker.report.messagesProcessed + 1 }

/-- A message is applied to both books, which are compared if a checkpoint is due. -/
theorem process_eq (checker : ParityChecker) (message : ItchMessage) :
    checker.process message =
      if (checker.report.messagesProcessed + 1) % checker.checkpointInterval.val = 0 then
        (checker.advance message).compareAllLocates
      else checker.advance message := by
  unfold process advance
  rw [learn_only]

section Runs

variable {registry : InstrumentRegistry} {checkpointInterval : CheckpointInterval}
  {order : List StockLocate → List StockLocate} {messages : List ItchMessage}
  {seen : List ParityMismatch} {checker : ParityChecker}

/-- A message that is not compared yet. -/
theorem Processed.advance
    (stands : Processed registry checkpointInterval order messages seen checker)
    (message : ItchMessage) :
    Processed registry checkpointInterval order (messages ++ [message]) seen
      (checker.advance message) := by
  have adapter : (checker.adapter.apply message).2.unnumbered =
      (adapterAfter registry (messages ++ [message])).unnumbered := by
    have one : (checker.adapter.unnumbered.apply message).2 = _ :=
      congrArg Prod.snd (checker.adapter.apply_unnumbered message)
    have other : ((adapterAfter registry messages).unnumbered.apply message).2 = _ :=
      congrArg Prod.snd ((adapterAfter registry messages).apply_unnumbered message)
    rw [stands.adapter] at one
    refine (one.symm.trans other).trans ?_
    rw [adapterAfter, adapterAfter, List.foldl_append]
    rfl
  refine ⟨?_, adapter, checker.knownLocates_learn stands.known message, stands.interval,
    stands.walk, ?_, ?_, ?_, ?_⟩
  · show (checker.builder.apply message).unnumbered = _
    rw [ItchBookBuilder.unnumbered_apply, stands.builder, ← ItchBookBuilder.unnumbered_apply,
      builderAfter, builderAfter, List.foldl_append]
    rfl
  · show checker.report.messagesProcessed + 1 = _
    rw [stands.processed, List.length_append, List.length_singleton]
  · show checker.report.feedTradeVolume + (executedSharesOf message).toUInt64 = _
    rw [stands.feed, List.map_append, List.sum_append, List.map_singleton, List.sum_singleton]
  · have same := congrArg ItchEngineAdapter.tradeVolume adapter
    exact same
  · exact ⟨stands.report.compared, stands.report.mismatches, stands.report.first⟩

/-- A comparison of all locates adds what it compares. -/
theorem Processed.compareAll
    (stands : Processed registry checkpointInterval order messages seen checker) :
    Processed registry checkpointInterval order messages
      (seen ++ comparedAfter registry order messages) checker.compareAllLocates := by
  obtain ⟨observed, final⟩ :=
    observed_compareAll (checker.walk checker.knownLocates) checker stands.report
  rw [stands.processed, compareTops_congr messages.length stands.builder stands.adapter,
    stands.walk, stands.known] at final
  refine ⟨observed.builder.trans stands.builder, observed.adapter.trans stands.adapter,
    observed.known.trans stands.known, observed.interval.trans stands.interval,
    observed.walk.trans stands.walk, observed.processed.trans stands.processed,
    observed.feed.trans stands.feed, observed.engine.trans stands.engine, ?_⟩
  unfold compareAllLocates
  rw [stands.walk, stands.known]
  exact final

/-- A message with the checkpoint that may be due after it. -/
theorem Processed.process
    (stands : Processed registry checkpointInterval order messages
      (compared registry checkpointInterval order messages) checker) (message : ItchMessage) :
    Processed registry checkpointInterval order (messages ++ [message])
      (compared registry checkpointInterval order (messages ++ [message]))
      (checker.process message) := by
  have advanced := stands.advance message
  rw [process_eq, stands.processed, stands.interval, compared_concat]
  by_cases due : (messages.length + 1) % checkpointInterval.val = 0
  · rw [if_pos due, if_pos due]
    exact advanced.compareAll
  · rw [if_neg due, if_neg due, List.append_nil]
    exact advanced

end Runs

/-- The checker of a registry after messages. -/
def after (registry : InstrumentRegistry) (checkpointInterval : CheckpointInterval)
    (walk : List StockLocate → List StockLocate) (messages : List ItchMessage) : ParityChecker :=
  messages.foldl process (init (ItchEngineAdapter.init registry) checkpointInterval walk)

/-- The messages were processed one by one. -/
theorem processed_run (registry : InstrumentRegistry) (checkpointInterval : CheckpointInterval)
    (walk : List StockLocate → List StockLocate) (messages : List ItchMessage) :
    Processed registry checkpointInterval walk messages
      (compared registry checkpointInterval walk messages)
      (after registry checkpointInterval walk messages) := by
  unfold after
  induction messages using List.reverseRecOn with
  | nil =>
    refine ⟨rfl, rfl, rfl, rfl, rfl, rfl, rfl, rfl, ?_⟩
    rw [compared, List.length_nil, Nat.zero_div]
    exact ⟨rfl, rfl, rfl⟩
  | append_singleton messages message ih =>
    rw [List.foldl_append, List.foldl_cons, List.foldl_nil]
    exact ih.process message

/-- Whatever the messages and the registry, the report counts every message and sums the shares
that the messages execute; its engine volume is the adapter's own counter, which the end of
messages clears. It counts every pair of snapshots and every mismatch that two books nobody observes
show at the checkpoints, and keeps the first five mismatches. The books themselves are left as if
nobody had observed them, but for the numbers of the snapshots. -/
theorem parity_report_exact (registry : InstrumentRegistry)
    (checkpointInterval : CheckpointInterval) (walk : List StockLocate → List StockLocate)
    (messages : List ItchMessage) :
    let checker := after registry checkpointInterval walk messages
    checker.report.messagesProcessed = messages.length ∧
      checker.report.feedTradeVolume =
        (messages.map (fun message => (executedSharesOf message).toUInt64)).sum ∧
      checker.report.engineTradeVolume = (adapterAfter registry messages).tradeVolume ∧
      checker.report.Summarises (compared registry checkpointInterval walk messages) ∧
      checker.builder.unnumbered = (builderAfter messages).unnumbered ∧
      checker.adapter.unnumbered = (adapterAfter registry messages).unnumbered := by
  have stands := processed_run registry checkpointInterval walk messages
  exact ⟨stands.processed, stands.feed, stands.engine, stands.report, stands.builder,
    stands.adapter⟩

/-- An offer below the best bid, which the engine trades and the feed only lists. -/
def crossingFeed : List ItchMessage :=
  [listingOf 1 65,
    .addOrder { (default : AddOrderMessage) with
      stockLocate := 1, orderReferenceNumber := 5, buySellIndicator := 0x42, shares := 10,
      price := 100 },
    .addOrder { (default : AddOrderMessage) with
      stockLocate := 1, orderReferenceNumber := 6, buySellIndicator := 0x53, shares := 4,
      price := 90 }]

/-- The last of three comparisons differs. -/
theorem parity_report_exact_crossing :
    let checker := after (InstrumentRegistry.init (.consecutive 2 (by decide)) .optimized)
      everyMessage id crossingFeed
    checker.report.checkpointsCompared = 3 ∧ checker.report.mismatchCount = 1 ∧
      checker.report.messagesProcessed = 3 := by
  refine ⟨by decide, by decide, ?_⟩
  exact (parity_report_exact (InstrumentRegistry.init (.consecutive 2 (by decide)) .optimized)
    everyMessage id crossingFeed).1

end ParityChecker

namespace Session

/-- A session is two books that nobody observes. -/
theorem after_books (allocator : SlabAllocator) (backend : MatcherBackend)
    (messages : List ItchMessage) :
    (after allocator backend messages).builder = builderAfter messages ∧
      (after allocator backend messages).adapter =
        adapterAfter (InstrumentRegistry.init allocator backend) messages := by
  induction messages using List.reverseRecOn with
  | nil => exact ⟨rfl, rfl⟩
  | append_singleton messages message ih =>
    obtain ⟨builder, adapter⟩ := ih
    have next : after allocator backend (messages ++ [message]) =
        ((after allocator backend messages).step message).2 := by
      rw [after, run_append]
      rfl
    rw [next, builderAfter, adapterAfter, List.foldl_append, List.foldl_append]
    exact ⟨congrArg (·.apply message) builder, congrArg (fun adapter => (adapter.apply message).2)
      adapter⟩

/-- Equal levels agree. -/
theorem topMatches_self (levels : List PriceLevel) : topMatches levels levels = true := by
  simp [topMatches]

/-- Nothing compared of the same books differs. -/
theorem SameBooks.agrees {session : Session} (same : session.SameBooks) {messageIndex : Nat}
    {locate : StockLocate} {pair : ParityMismatch}
    (shown : compareTops messageIndex session.builder session.adapter locate = some pair) :
    pair.agrees = true := by
  obtain ⟨feed, taken, rfl⟩ := Option.map_eq_some_iff.mp shown
  have levels := same locate 1
  rw [taken] at levels
  obtain ⟨_, bids, asks⟩ := levels
  simp only [ParityMismatch.agrees, bids, asks, topMatches_self, Bool.and_self]

/-- The report of a well-formed session over either matcher shows no mismatch, whatever the
interval and the order of the walks. -/
theorem clean_report (allocator : SlabAllocator) (backend : MatcherBackend)
    (checkpointInterval : CheckpointInterval) (walk : List StockLocate → List StockLocate)
    (messages : List ItchMessage)
    (wellFormed : Admissible WellFormed step (init allocator backend) messages) :
    let checker := ParityChecker.after (InstrumentRegistry.init allocator backend)
      checkpointInterval walk messages
    checker.report.mismatchCount = 0 ∧ checker.report.firstMismatches = [] := by
  have summary := (ParityChecker.processed_run (InstrumentRegistry.init allocator backend)
    checkpointInterval walk messages).report
  have none_ : (compared (InstrumentRegistry.init allocator backend) checkpointInterval walk
      messages).filter (fun pair => !pair.agrees) = [] := by
    rw [List.filter_eq_nil_iff]
    intro pair listed
    obtain ⟨checkpoint, _, here⟩ := List.mem_flatMap.mp listed
    obtain ⟨original, taken, rfl⟩ := List.mem_map.mp here
    obtain ⟨locate, _, shown⟩ := List.mem_filterMap.mp taken
    -- a checkpoint stands after the first messages of the session
    have parity := (parity_after allocator backend
      (wellFormed.take ((checkpoint + 1) * checkpointInterval.val))).sameBooks
    obtain ⟨builder, adapter⟩ := after_books allocator backend
      (messages.take ((checkpoint + 1) * checkpointInterval.val))
    rw [← builder, ← adapter] at shown
    have agree := parity.agrees shown
    show ¬ (!original.agrees) = true
    rw [agree]
    decide
  have stored := summary.first
  rw [none_, List.take_nil, List.map_eq_nil_iff] at stored
  exact ⟨summary.mismatches.trans (congrArg List.length none_), stored⟩

end Session

end Titan
