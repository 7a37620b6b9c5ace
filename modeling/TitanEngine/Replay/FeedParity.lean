import TitanEngine.Replay.ParitySteps

/-!
# Feed and engine in parity

Every well-formed message keeps the parity invariant, whatever its type. So after any number of
messages of a well-formed session the feed's own book and the engine show the same levels of
every locate to every depth.
-/

namespace Titan

open Library Std

namespace Session

/-- The session is in parity with some market. -/
def Parity (session : Session) : Prop :=
  ∃ market, InParity session.history session.builder session.adapter market

/-- A well-formed message keeps the parity. -/
theorem Parity.step {session : Session} (parity : session.Parity) {message : ItchMessage}
    (wellFormed : session.WellFormed message) : (session.step message).2.Parity := by
  obtain ⟨market, parity⟩ := parity
  unfold Parity
  rw [history_step]
  -- the history grows by what the type of the message says
  cases message <;>
    simp only [History.extend, ItchMessage.registration, ItchMessage.introduction,
      ItchMessage.execution, Option.toList_none, Option.toList_some, List.append_nil]
  case systemEvent message =>
    show ∃ market, InParity _ (if message.eventCode = endOfMessages then _ else _)
      (Prod.snd (if message.eventCode = endOfMessages then _ else _)) market
    by_cases ends : message.eventCode = endOfMessages
    · rw [if_pos ends, if_pos ends]
      exact ⟨_, parity.reset⟩
    · rw [if_neg ends, if_neg ends]
      exact ⟨market, parity⟩
  case timestampSeconds => exact ⟨market, parity⟩
  case stockDirectory => exact parity.stockDirectory wellFormed
  case addOrder =>
    obtain ⟨_, ⟨new, below, shares, price⟩, clear⟩ := wellFormed
    exact parity.addOrder new below shares price clear
  case addOrderMpid =>
    obtain ⟨_, ⟨new, below, shares, price⟩, clear⟩ := wellFormed
    exact parity.addOrder new below shares price clear
  case orderExecuted =>
    obtain ⟨order, live, some_, covered, first, through⟩ := wellFormed
    exact parity.applyExecuted live some_ covered first through
  case orderExecutedWithPrice =>
    obtain ⟨order, live, some_, covered, first, through⟩ := wellFormed
    exact parity.applyExecuted live some_ covered first through
  case orderCancel =>
    obtain ⟨order, live⟩ := Option.isSome_iff_exists.mp wellFormed
    exact parity.cancelOrder live
  case orderDelete =>
    obtain ⟨order, live⟩ := Option.isSome_iff_exists.mp wellFormed
    exact parity.deleteOrder live
  case orderReplace =>
    obtain ⟨order, live, ⟨new, below, shares, price⟩, clear⟩ := wellFormed
    exact parity.replaceOrder live new below shares price clear

/-- Well-formed messages keep the parity. -/
theorem parity_after (allocator : SlabAllocator) (backend : MatcherBackend)
    {messages : List ItchMessage}
    (wellFormed : Admissible WellFormed step (init allocator backend) messages) :
    (after allocator backend messages).Parity := by
  have start : (init allocator backend).Parity := ⟨_, InParity.init allocator backend⟩
  apply run_invariant Parity _ start wellFormed
  intro session message parity admitted
  exact parity.step admitted

/-- Both know the same locates under the same symbols and show the same levels of each to every
depth. -/
def SameBooks (session : Session) : Prop :=
  ∀ locate depth,
    match (session.builder.snapshot locate depth).1 with
    | none => session.adapter.symbolForLocate locate = none
    | some feed =>
      session.adapter.symbolForLocate locate = some feed.symbol ∧
        feed.bids = (session.adapter.snapshot locate depth).1.bids ∧
        feed.asks = (session.adapter.snapshot locate depth).1.asks

/-- Books in parity are the same. -/
theorem Parity.sameBooks {session : Session} (parity : session.Parity) : session.SameBooks := by
  obtain ⟨market, parity⟩ := parity
  intro locate depth
  unfold ItchBookBuilder.snapshot ItchEngineAdapter.symbolForLocate ItchEngineAdapter.snapshot
  cases found : session.builder.books[locate]? with
  | none => exact parity.unregistered found
  | some book =>
    obtain ⟨registered, listing, listed, consistent, follows⟩ := parity.book found
    have shown := (parity.mirrors.snapshot book.symbol depth).1
    rw [Market.snapshot, listed] at shown
    have levels := follows.linked.depth consistent.sound
    rw [registered]
    show some book.symbol = some book.symbol ∧
      book.depth .buy depth = (session.adapter.registry.snapshot book.symbol depth).1.bids ∧
      book.depth .sell depth = (session.adapter.registry.snapshot book.symbol depth).1.asks
    rw [shown]
    exact ⟨rfl, levels .buy depth, levels .sell depth⟩

/-- After any number of messages of a well-formed session the feed's own book and the engine,
over either matcher, show the same levels of every locate to every depth. -/
theorem feed_engine_parity (allocator : SlabAllocator) (backend : MatcherBackend)
    (messages : List ItchMessage)
    (wellFormed : Admissible WellFormed step (init allocator backend) messages) (count : Nat) :
    (after allocator backend (messages.take count)).SameBooks :=
  (parity_after allocator backend (wellFormed.take count)).sameBooks

/-- A session of every kind of order message: an execution of the first of two bids, a partial
cancel of the second, an execution with a price, a replacement and a deletion. -/
def sampleSession : List ItchMessage :=
  [listingOf 1 65,
    .addOrder { (default : AddOrderMessage) with
      stockLocate := 1, orderReferenceNumber := 5, buySellIndicator := 0x42, shares := 10,
      price := 100 },
    .addOrder { (default : AddOrderMessage) with
      stockLocate := 1, orderReferenceNumber := 6, buySellIndicator := 0x42, shares := 5,
      price := 100 },
    .addOrderMpid { (default : AddOrderMpidMessage) with
      base := { (default : AddOrderMessage) with
        stockLocate := 1, orderReferenceNumber := 7, buySellIndicator := 0x53, shares := 8,
        price := 105 } },
    .orderExecuted { (default : OrderExecutedMessage) with
      stockLocate := 1, orderReferenceNumber := 5, executedShares := 4 },
    .orderCancel { (default : OrderCancelMessage) with
      stockLocate := 1, orderReferenceNumber := 6, cancelledShares := 2 },
    .orderExecutedWithPrice { (default : OrderExecutedWithPriceMessage) with
      base := { (default : OrderExecutedMessage) with
        stockLocate := 1, orderReferenceNumber := 5, executedShares := 1 },
      executionPrice := 99 },
    .orderReplace { (default : OrderReplaceMessage) with
      stockLocate := 1, originalOrderReferenceNumber := 7, newOrderReferenceNumber := 8,
      shares := 3, price := 106 },
    .orderDelete { (default : OrderDeleteMessage) with
      stockLocate := 1, orderReferenceNumber := 5 }]

/-- After the sample session one bid and one ask are left, and both books show them. -/
theorem feed_engine_parity_sample :
    Admissible WellFormed step (init (.consecutive 2 (by decide)) .optimized) sampleSession ∧
      ((after (.consecutive 2 (by decide)) .optimized sampleSession).builder.snapshot 1 5).1 =
        some { symbol := [65], sequenceNumber := 0, bids := [⟨100, 3⟩], asks := [⟨106, 3⟩] } ∧
      (after (.consecutive 2 (by decide)) .optimized (sampleSession.take 9)).SameBooks := by
  have wellFormed : Admissible WellFormed step (init (.consecutive 2 (by decide)) .optimized)
      sampleSession := by decide
  refine ⟨wellFormed, by decide, ?_⟩
  exact feed_engine_parity (.consecutive 2 (by decide)) .optimized sampleSession wellFormed 9

end Session

end Titan
