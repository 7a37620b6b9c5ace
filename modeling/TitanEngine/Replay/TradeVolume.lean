import TitanEngine.Replay.AdapterCalls
import TitanEngine.Replay.EventReplayer
import TitanEngine.Replay.FeedParity

/-!
# Trade volumes

`ParityChecker::process` sums the executed shares of the messages and reads the volume of the
engine back from the adapter. A snapshot taken at a checkpoint changes neither book, so the
parity invariant holds of the checker's books too, and each execution adds the same to both
sums. The end of messages clears the adapter's sum and not the checker's: the two stay equal as
long as nothing was executed before it.
-/

namespace Titan

open Library Std

namespace ItchEngineAdapter

/-- Only executions and the end of messages change the engine's volume. -/
theorem tradeVolume_apply (adapter : ItchEngineAdapter) {message : ItchMessage}
    (unexecuted : message.execution = none) :
    (adapter.apply message).2.tradeVolume =
      if message.endsSession then 0 else adapter.tradeVolume := by
  cases message with
  | systemEvent message =>
    simp only [apply, handleSystemEvent, ItchMessage.endsSession, beq_iff_eq]
    split <;> rfl
  | orderExecuted message => simp [ItchMessage.execution] at unexecuted
  | orderExecutedWithPrice message => simp [ItchMessage.execution] at unexecuted
  | stockDirectory message => rfl
  | timestampSeconds message => rfl
  | addOrder message =>
    simp only [apply, handleAddOrder, ItchMessage.endsSession]
    split <;> rfl
  | addOrderMpid message =>
    simp only [apply, handleAddOrderMpid, handleAddOrder, ItchMessage.endsSession]
    split <;> rfl
  | orderDelete message =>
    simp only [apply, handleOrderDelete, ItchMessage.endsSession]
    split <;> rfl
  | orderCancel message =>
    simp only [apply, handleOrderCancel, ItchMessage.endsSession]
    split
    · rfl
    · split
      · rfl
      · split <;> rfl
  | orderReplace message =>
    simp only [apply, handleOrderReplace, ItchMessage.endsSession]
    split
    · rfl
    · split
      · rfl
      · split <;> rfl

end ItchEngineAdapter

namespace InParity

variable {history : History} {builder : ItchBookBuilder} {adapter : ItchEngineAdapter}
  {market : Market}

/-- Counting a snapshot on both sides keeps the parity. -/
theorem snapshot (parity : InParity history builder adapter market) {locate : StockLocate}
    {book : SymbolBook} (found : builder.books[locate]? = some book) (depth : Nat) :
    InParity history (builder.snapshot locate depth).2 (adapter.snapshot locate depth).2
      (market.snapshot book.symbol depth).2 := by
  obtain ⟨registered, listing, listed, _, follows⟩ := parity.book found
  let counted : SymbolBook :=
    { book with nextSnapshotSequenceNumber := book.nextSnapshotSequenceNumber + 1 }
  let numbered : Listing := { listing with nextSnapshot := listing.nextSnapshot + 1 }
  have feed : (builder.snapshot locate depth).2 =
      { builder with books := builder.books.insert locate counted } := by
    rw [ItchBookBuilder.snapshot, found]
  have engine : (adapter.snapshot locate depth).2 =
      { adapter with registry := (adapter.registry.snapshot book.symbol depth).2 } := by
    rw [ItchEngineAdapter.snapshot, registered]
  have listings : (market.snapshot book.symbol depth).2.listings =
      Function.update market.listings book.symbol (some numbered) := by
    rw [Market.snapshot, listed]
  have ledgers : ∀ symbol entry, (market.snapshot book.symbol depth).2.listings symbol =
      some entry → ∃ old, market.listings symbol = some old ∧ old.ledger = entry.ledger := by
    intro symbol entry present
    rw [listings] at present
    by_cases same : symbol = book.symbol
    · rw [same, Function.update_self, Option.some.injEq] at present
      exact ⟨listing, same ▸ listed, by rw [← present]⟩
    · rw [Function.update_of_ne same] at present
      exact ⟨entry, present, rfl⟩
  have lives : ∀ other ref,
      ({ builder with books := builder.books.insert locate counted } : ItchBookBuilder).liveOrder
        other ref = builder.liveOrder other ref := by
    intro other ref
    rw [ItchBookBuilder.liveOrder_insert]
    split
    · rename_i same
      rw [← same, ItchBookBuilder.liveOrder, found]
      rfl
    · rfl
  rw [feed, engine]
  constructor
  · exact (parity.mirrors.snapshot book.symbol depth).2
  · intro other
    show Option.Rel _ (builder.books.insert locate counted)[other]? adapter.symbols[other]?
    rw [ExtTreeMap.getElem?_insert]
    by_cases same : locate = other
    · subst same
      rw [if_pos ReflCmp.compare_self, registered]
      refine .some ⟨rfl, numbered, ?_, ⟨⟨follows.linked.live, follows.linked.apart, ?_⟩,
        follows.fed⟩⟩
      · rw [listings, Function.update_self]
      · intro side
        have levels := follows.linked.levels side
        cases side <;> exact levels
    · rw [if_neg (by simpa using same)]
      cases entry : builder.books[other]? with
      | none =>
        rw [parity.unregistered entry]
        exact .none
      | some old =>
        obtain ⟨named, kept, present, _, before⟩ := parity.book entry
        have apart : old.symbol ≠ book.symbol := by
          intro equal
          rw [equal] at named
          exact same (parity.single locate other book.symbol registered named)
        rw [named]
        refine .some ⟨rfl, kept, ?_, before⟩
        rw [listings, Function.update_of_ne apart]
        exact present
  · intro symbol entry present
    obtain ⟨old, before, _⟩ := ledgers symbol entry present
    exact parity.owned symbol old before
  · exact parity.single
  · exact parity.registered
  · exact parity.budget.shrink (fun other ref left remains =>
      ⟨left, by rw [← lives]; exact remains, UInt64.le_refl _⟩)
  · intro symbol entry present id member
    obtain ⟨old, before, same⟩ := ledgers symbol entry present
    exact parity.known symbol old before id (same ▸ member)
  · exact parity.handedOut

/-- An execution of the first order of a side adds its shares to the engine's volume. -/
theorem tradeVolume_applyExecuted (parity : InParity history builder adapter market)
    {locate : StockLocate} {ref : OrderRefNumber} {resting : RestingOrder}
    (live : builder.liveOrder locate ref = some resting) {executedShares : UInt32}
    {executionPrice : Option UInt32} (some_ : executedShares ≠ 0)
    (covered : executedShares.toUInt64 ≤ resting.remainingShares)
    (first : adapter.firstResting locate resting.side = some (adapter.engineIdFor ref))
    (through : ∀ price ∈ executionPrice,
      price ≠ 0 ∧ crosses resting.side.opposite price.toUInt64 resting.price = true) :
    (adapter.applyExecuted locate ref executedShares executionPrice).2.tradeVolume =
      adapter.tradeVolume + executedShares.toUInt64 := by
  obtain ⟨book, found, entry⟩ := ItchBookBuilder.book_of_live live
  obtain ⟨listing, target, record, names⟩ := parity.names found entry
  obtain ⟨rest, orders⟩ := parity.head found names first
  obtain ⟨called, _⟩ := names.matchOrder orders (parity.synthetic_unknown names.listed) some_
    covered through
  have trades := (parity.mirrors.matchOrder book.symbol (ItchEngineAdapter.syntheticOrder
    adapter.nextSyntheticId record executedShares executionPrice)).1
  rw [(Market.call_listed names.listed _).1, called] at trades
  simp only [ItchEngineAdapter.applyExecuted, (parity.book found).1, names.found, trades,
    List.foldl_cons, List.foldl_nil, tradeWith]

end InParity

/-- The messages so far and the checker that processed them. -/
structure CheckedSession where
  /-- Messages processed. -/
  messages : List ItchMessage
  /-- The checker, with its books. -/
  checker : ParityChecker

namespace CheckedSession

/-- A checker over an empty registry. -/
def init (allocator : SlabAllocator) (backend : MatcherBackend)
    (checkpointInterval : CheckpointInterval) (walk : List StockLocate → List StockLocate) :
    CheckedSession where
  messages := []
  checker := ParityChecker.init
    (ItchEngineAdapter.init (InstrumentRegistry.init allocator backend)) checkpointInterval walk

/-- The session of the checker's own books. -/
def session (checked : CheckedSession) : Session where
  messages := checked.messages
  builder := checked.checker.builder
  adapter := checked.checker.adapter

/-- Process a message; the report is the output. -/
def step (checked : CheckedSession) (message : ItchMessage) : ParityReport × CheckedSession :=
  let checker := checked.checker.process message
  (checker.report, { messages := checked.messages ++ [message], checker := checker })

/-- The message is well formed after the messages so far. -/
def WellFormed (checked : CheckedSession) (message : ItchMessage) : Prop :=
  checked.session.WellFormed message

instance (checked : CheckedSession) (message : ItchMessage) :
    Decidable (checked.WellFormed message) :=
  Session.decidableWellFormed checked.session message

/-- A session that ends has executed nothing. -/
def Timely (checked : CheckedSession) (message : ItchMessage) : Prop :=
  message.endsSession = true → checked.session.executed = []

instance (checked : CheckedSession) (message : ItchMessage) :
    Decidable (checked.Timely message) :=
  inferInstanceAs (Decidable (_ → _))

/-- The report shows equal volumes. -/
def SameVolume (report : ParityReport) : Prop := report.feedTradeVolume = report.engineTradeVolume

instance (report : ParityReport) : Decidable (SameVolume report) :=
  inferInstanceAs (Decidable (_ = _))

/-- The checker's books are in parity, and both sums are the adapter's. -/
structure InStep (history : History) (checker : ParityChecker) : Prop where
  /-- The books are in parity. -/
  parity : ∃ market, InParity history checker.builder checker.adapter market
  /-- The feed's sum is the adapter's. -/
  feed : checker.report.feedTradeVolume = checker.adapter.tradeVolume
  /-- The engine's sum is the adapter's. -/
  engine : checker.report.engineTradeVolume = checker.adapter.tradeVolume
  /-- Without an execution it is zero. -/
  idle : history.executed = [] → checker.adapter.tradeVolume = 0

/-- Comparing a locate keeps the checker in step. -/
theorem InStep.compareLocate {history : History} {checker : ParityChecker}
    (inStep : InStep history checker) (locate : StockLocate) :
    InStep history (checker.compareLocate locate) := by
  obtain ⟨market, parity⟩ := inStep.parity
  cases found : checker.builder.books[locate]? with
  | none =>
    have nothing : checker.compareLocate locate = checker := by
      simp only [ParityChecker.compareLocate, ItchBookBuilder.snapshot, found]
    rw [nothing]
    exact inStep
  | some book =>
    have counted := parity.snapshot found 1
    have volume : (checker.adapter.snapshot locate 1).2.tradeVolume =
        checker.adapter.tradeVolume := by
      rw [ItchEngineAdapter.snapshot, (parity.book found).1]
    have taken : ∃ snapshot, checker.builder.snapshot locate 1 =
        (some snapshot, (checker.builder.snapshot locate 1).2) := by
      rw [ItchBookBuilder.snapshot, found]
      exact ⟨_, rfl⟩
    obtain ⟨snapshot, taken⟩ := taken
    unfold ParityChecker.compareLocate
    rw [taken]
    simp only
    split
    · exact ⟨⟨_, counted⟩, inStep.feed.trans volume.symm, inStep.engine.trans volume.symm,
        fun none_ => volume.trans (inStep.idle none_)⟩
    · exact ⟨⟨_, counted⟩, inStep.feed.trans volume.symm, inStep.engine.trans volume.symm,
        fun none_ => volume.trans (inStep.idle none_)⟩

/-- Comparing any locates keeps the checker in step. -/
theorem InStep.compareAll {history : History} {checker : ParityChecker}
    (inStep : InStep history checker) (locates : List StockLocate) :
    InStep history (locates.foldl ParityChecker.compareLocate checker) := by
  induction locates generalizing checker with
  | nil => exact inStep
  | cons locate rest ih => exact ih (inStep.compareLocate locate)

/-- A message that executes nothing has no executed shares. -/
theorem executedSharesOf_unexecuted {message : ItchMessage}
    (unexecuted : message.execution = none) : executedSharesOf message = 0 := by
  cases message <;> first | rfl | simp [ItchMessage.execution] at unexecuted

/-- The end of messages executes nothing. -/
theorem execution_endsSession {message : ItchMessage} (ends : message.endsSession = true) :
    message.execution = none := by
  cases message <;> first | rfl | simp [ItchMessage.endsSession] at ends

/-- Every well-formed message adds the shares it executes to the engine's volume, or clears it. -/
theorem tradeVolume_step {session : Session} (parity : session.Parity) {message : ItchMessage}
    (wellFormed : session.WellFormed message) :
    (session.adapter.apply message).2.tradeVolume =
      if message.endsSession then 0
      else session.adapter.tradeVolume + (executedSharesOf message).toUInt64 := by
  obtain ⟨market, parity⟩ := parity
  cases executes : message.execution with
  | none =>
    rw [session.adapter.tradeVolume_apply executes, executedSharesOf_unexecuted executes]
    simp
  | some ref =>
    cases message <;> simp only [ItchMessage.execution, reduceCtorEq] at executes
    case orderExecuted message =>
      obtain ⟨order, live, some_, covered, first, through⟩ := wellFormed
      exact parity.tradeVolume_applyExecuted live some_ covered first through
    case orderExecutedWithPrice message =>
      obtain ⟨order, live, some_, covered, first, through⟩ := wellFormed
      exact parity.tradeVolume_applyExecuted live some_ covered first through

/-- Remembering a locate touches neither book nor the report. -/
theorem learn_eq (checker : ParityChecker) (message : ItchMessage) :
    (checker.learn message).builder = checker.builder ∧
      (checker.learn message).adapter = checker.adapter ∧
      (checker.learn message).report = checker.report := by
  unfold ParityChecker.learn
  split
  · exact ⟨rfl, rfl, rfl⟩
  · split <;> exact ⟨rfl, rfl, rfl⟩

/-- A well-formed message that does not end a session with executions keeps the checker in
step. -/
theorem InStep.step {checked : CheckedSession} (inStep : InStep checked.session.history
    checked.checker) {message : ItchMessage} (wellFormed : checked.WellFormed message)
    (timely : checked.Timely message) :
    InStep (checked.step message).2.session.history (checked.step message).2.checker := by
  have history : (checked.step message).2.session.history =
      checked.session.history.extend message := checked.session.history_step message
  rw [history]
  obtain ⟨builder, adapter, report⟩ := learn_eq checked.checker message
  have volume : (checked.checker.adapter.apply message).2.tradeVolume = _ :=
    tradeVolume_step inStep.parity wellFormed
  have kept : checked.session.Parity := inStep.parity
  have parity := kept.step wellFormed
  unfold Session.Parity at parity
  rw [Session.history_step] at parity
  have sums : checked.checker.report.feedTradeVolume + (executedSharesOf message).toUInt64 =
      (checked.checker.adapter.apply message).2.tradeVolume := by
    rw [volume, inStep.feed]
    split
    · -- the session ends, so nothing was executed and both sums are zero
      rename_i ends
      rw [inStep.idle (timely ends), executedSharesOf_unexecuted (execution_endsSession ends)]
      rfl
    · rfl
  have idle : (checked.session.history.extend message).executed = [] →
      (checked.checker.adapter.apply message).2.tradeVolume = 0 := by
    intro none_
    obtain ⟨before, now⟩ := List.append_eq_nil_iff.mp none_
    rw [← sums, inStep.feed, inStep.idle before,
      executedSharesOf_unexecuted (Option.toList_eq_nil_iff.mp now)]
    rfl
  show InStep _ (checked.checker.process message)
  unfold ParityChecker.process
  simp only [builder, adapter, report]
  split
  · refine InStep.compareAll ?_ _
    exact ⟨parity, sums, rfl, idle⟩
  · exact ⟨parity, sums, rfl, idle⟩

/-- Without executions before the end of messages the two volumes are equal in every report. -/
theorem trade_volume_parity (allocator : SlabAllocator) (backend : MatcherBackend)
    (checkpointInterval : CheckpointInterval) (walk : List StockLocate → List StockLocate)
    (messages : List ItchMessage)
    (wellFormed : Admissible (fun checked message =>
      checked.WellFormed message ∧ checked.Timely message) step
      (init allocator backend checkpointInterval walk) messages) :
    ∀ report ∈ (run step (init allocator backend checkpointInterval walk) messages).1,
      SameVolume report := by
  have start : InStep (init allocator backend checkpointInterval walk).session.history
      (init allocator backend checkpointInterval walk).checker :=
    ⟨⟨_, InParity.init allocator backend⟩, rfl, rfl, fun _ => rfl⟩
  refine run_outputs (P := SameVolume)
    (fun checked => InStep checked.session.history checked.checker) ?_ start wellFormed
  intro checked message inStep admitted
  have later := inStep.step admitted.1 admitted.2
  exact ⟨later, later.feed.trans later.engine.symm⟩

/-- The end of messages. -/
def closing : ItchMessage :=
  .systemEvent { (default : SystemEventMessage) with eventCode := endOfMessages }

/-- A bid of locate 1 and the execution of four of its ten shares. -/
def oneExecution : List ItchMessage :=
  [listingOf 1 65,
    .addOrder { (default : AddOrderMessage) with
      stockLocate := 1, orderReferenceNumber := 5, buySellIndicator := 0x42, shares := 10,
      price := 100 },
    .orderExecuted { (default : OrderExecutedMessage) with
      stockLocate := 1, orderReferenceNumber := 5, executedShares := 4 }]

/-- A checker that compares the books after every second message. -/
def everySecond : CheckedSession :=
  init (.consecutive 2 (by decide)) .optimized ⟨2, Nat.two_pos⟩ id

/-- A session that ends before anything is executed, and four shares executed after it. -/
theorem trade_volume_parity_early_end :
    (run step everySecond (closing :: oneExecution)).2.checker.report.engineTradeVolume = 4 ∧
      ∀ report ∈ (run step everySecond (closing :: oneExecution)).1, SameVolume report := by
  refine ⟨by decide, ?_⟩
  exact trade_volume_parity (.consecutive 2 (by decide)) .optimized ⟨2, Nat.two_pos⟩ id
    (closing :: oneExecution) (by decide)

/-- The end of messages after an execution: the feed's sum stays, the engine's is cleared. -/
theorem closing_clears_engine_volume :
    Admissible WellFormed step everySecond (oneExecution ++ [closing]) ∧
      (run step everySecond (oneExecution ++ [closing])).2.checker.report.feedTradeVolume = 4 ∧
      (run step everySecond (oneExecution ++ [closing])).2.checker.report.engineTradeVolume = 0 ∧
      ¬ ∀ report ∈ (run step everySecond (oneExecution ++ [closing])).1, SameVolume report := by
  refine ⟨by decide, by decide, by decide, by decide⟩

end CheckedSession

end Titan
