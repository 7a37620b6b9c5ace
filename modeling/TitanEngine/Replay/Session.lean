import TitanEngine.Library.Machine
import TitanEngine.Replay.ItchAdapter
import TitanEngine.Spec.Ledger

/-!
# Feed sessions

A session applies every message to the feed's own book and to the engine. A message is well
formed after the messages so far when the venue could have sent it: references are introduced
once and name live orders afterwards, nothing is added that crosses, and an execution names the
order that trades first.
-/

namespace Titan

open Library

namespace ItchMessage

/-- The locate and the symbol a message registers. -/
def registration : ItchMessage → Option (StockLocate × Symbol)
  | stockDirectory message => some (message.stockLocate, trimTrailingSpaces message.stock)
  | _ => none

/-- The reference a message introduces. -/
def introduction : ItchMessage → Option OrderRefNumber
  | addOrder message => some message.orderReferenceNumber
  | addOrderMpid message => some message.base.orderReferenceNumber
  | orderReplace message => some message.newOrderReferenceNumber
  | _ => none

/-- The reference a message executes. -/
def execution : ItchMessage → Option OrderRefNumber
  | orderExecuted message => some message.orderReferenceNumber
  | orderExecutedWithPrice message => some message.base.orderReferenceNumber
  | _ => none

end ItchMessage

/-- Whether a limit crosses the best opposite price of a locate. -/
def ItchBookBuilder.crosses (builder : ItchBookBuilder) (locate : StockLocate) (side : Side)
    (price : Price) : Bool :=
  (builder.books[locate]?).any (fun book =>
    Ledger.crossesBest side price (book.levels side.opposite))

/-- The id of the order of a side that the engine would execute first. -/
def ItchEngineAdapter.firstResting (adapter : ItchEngineAdapter) (locate : StockLocate)
    (side : Side) : Option OrderId := do
  let symbol ← adapter.symbols[locate]?
  let instrument ← adapter.registry.find symbol
  let first ← (resting instrument.manager.matcher side).head?
  return first.id

/-- The messages so far, oldest first, and what they were applied to. -/
structure Session where
  /-- Messages applied. -/
  messages : List ItchMessage
  /-- The feed's own book. -/
  builder : ItchBookBuilder
  /-- The engine. -/
  adapter : ItchEngineAdapter

namespace Session

/-- A session over an empty registry. -/
def init (allocator : SlabAllocator) (backend : MatcherBackend) : Session where
  messages := []
  builder := ItchBookBuilder.init
  adapter := ItchEngineAdapter.init (InstrumentRegistry.init allocator backend)

/-- Apply a message to both; the engine's answer is the output. -/
def step (session : Session) (message : ItchMessage) : Bool × Session :=
  ((session.adapter.apply message).1,
    { messages := session.messages ++ [message]
      builder := session.builder.apply message
      adapter := (session.adapter.apply message).2 })

/-- The session after some messages over an empty registry. -/
def after (allocator : SlabAllocator) (backend : MatcherBackend) (messages : List ItchMessage) :
    Session :=
  (run step (init allocator backend) messages).2

/-- Locates registered so far, with their symbols. -/
def registrations (session : Session) : List (StockLocate × Symbol) :=
  session.messages.filterMap ItchMessage.registration

/-- References introduced so far. -/
def introduced (session : Session) : List OrderRefNumber :=
  session.messages.filterMap ItchMessage.introduction

/-- References executed so far, once for each execution. -/
def executed (session : Session) : List OrderRefNumber :=
  session.messages.filterMap ItchMessage.execution

/-- A new reference below the synthetic ids, with shares and a price. -/
def Introduces (session : Session) (ref : OrderRefNumber) (shares price : UInt32) : Prop :=
  ref ∉ session.introduced ∧ ref < firstSyntheticId ∧ shares ≠ 0 ∧ price ≠ 0

instance (session : Session) (ref : OrderRefNumber) (shares price : UInt32) :
    Decidable (session.Introduces ref shares price) :=
  inferInstanceAs (Decidable (_ ∧ _ ∧ _ ∧ _))

/-- A new order on a registered locate that does not cross. -/
def Adds (session : Session) (message : AddOrderMessage) : Prop :=
  message.stockLocate ∈ session.registrations.map Prod.fst ∧
    session.Introduces message.orderReferenceNumber message.shares message.price ∧
    session.builder.crosses message.stockLocate message.side message.price.toUInt64 = false

instance (session : Session) (message : AddOrderMessage) : Decidable (session.Adds message) :=
  inferInstanceAs (Decidable (_ ∧ _ ∧ _))

/-- An execution of the first order of its side, for no more than its shares and at a price at
or through its own. -/
def Executes (session : Session) (locate : StockLocate) (ref : OrderRefNumber)
    (executedShares : UInt32) (executionPrice : Option UInt32) : Prop :=
  ∃ order ∈ session.builder.liveOrder locate ref,
    executedShares ≠ 0 ∧ executedShares.toUInt64 ≤ order.remainingShares ∧
    session.adapter.firstResting locate order.side = some (session.adapter.engineIdFor ref) ∧
    ∀ price ∈ executionPrice,
      price ≠ 0 ∧ crosses order.side.opposite price.toUInt64 order.price = true

instance (session : Session) (locate : StockLocate) (ref : OrderRefNumber)
    (executedShares : UInt32) (executionPrice : Option UInt32) :
    Decidable (session.Executes locate ref executedShares executionPrice) :=
  have (order : RestingOrder) : Decidable (∀ price ∈ executionPrice,
      price ≠ 0 ∧ crosses order.side.opposite price.toUInt64 order.price = true) :=
    Option.decidableForallMem executionPrice
  inferInstanceAs (Decidable (∃ order ∈ session.builder.liveOrder locate ref, _))

/-- A reference that is live on its locate. -/
def Live (session : Session) (locate : StockLocate) (ref : OrderRefNumber) : Prop :=
  (session.builder.liveOrder locate ref).isSome

instance (session : Session) (locate : StockLocate) (ref : OrderRefNumber) :
    Decidable (session.Live locate ref) :=
  inferInstanceAs (Decidable (_ = true))

/-- A live order is replaced under a new reference, without crossing. -/
def Replaces (session : Session) (message : OrderReplaceMessage) : Prop :=
  ∃ order ∈ session.builder.liveOrder message.stockLocate message.originalOrderReferenceNumber,
    session.Introduces message.newOrderReferenceNumber message.shares message.price ∧
    session.builder.crosses message.stockLocate order.side message.price.toUInt64 = false

instance (session : Session) (message : OrderReplaceMessage) :
    Decidable (session.Replaces message) :=
  inferInstanceAs (Decidable (∃ order ∈ session.builder.liveOrder _ _, _))

/-- A locate keeps its symbol and shares it with no other locate. -/
def Registers (session : Session) (locate : StockLocate) (symbol : Symbol) : Prop :=
  ∀ earlier ∈ session.registrations, earlier.1 = locate ↔ earlier.2 = symbol

instance (session : Session) (locate : StockLocate) (symbol : Symbol) :
    Decidable (session.Registers locate symbol) :=
  inferInstanceAs (Decidable (∀ earlier ∈ session.registrations, _))

/-- The message is well formed after the session so far. -/
def WellFormed (session : Session) : ItchMessage → Prop
  | .systemEvent _ => True
  | .stockDirectory message =>
    session.Registers message.stockLocate (trimTrailingSpaces message.stock)
  | .addOrder message => session.Adds message
  | .addOrderMpid message => session.Adds message.base
  | .orderExecuted message =>
    session.Executes message.stockLocate message.orderReferenceNumber message.executedShares none
  | .orderExecutedWithPrice message =>
    session.Executes message.base.stockLocate message.base.orderReferenceNumber
      message.base.executedShares (some message.executionPrice)
  | .orderCancel message => session.Live message.stockLocate message.orderReferenceNumber
  | .orderDelete message => session.Live message.stockLocate message.orderReferenceNumber
  | .orderReplace message => session.Replaces message
  | .timestampSeconds _ => True

instance decidableWellFormed (session : Session) :
    (message : ItchMessage) → Decidable (session.WellFormed message)
  | .systemEvent _ => .isTrue trivial
  | .stockDirectory message =>
    inferInstanceAs
      (Decidable (session.Registers message.stockLocate (trimTrailingSpaces message.stock)))
  | .addOrder message => inferInstanceAs (Decidable (session.Adds message))
  | .addOrderMpid message => inferInstanceAs (Decidable (session.Adds message.base))
  | .orderExecuted message =>
    inferInstanceAs (Decidable (session.Executes message.stockLocate message.orderReferenceNumber
      message.executedShares none))
  | .orderExecutedWithPrice message =>
    inferInstanceAs (Decidable (session.Executes message.base.stockLocate
      message.base.orderReferenceNumber message.base.executedShares
      (some message.executionPrice)))
  | .orderCancel message =>
    inferInstanceAs (Decidable (session.Live message.stockLocate message.orderReferenceNumber))
  | .orderDelete message =>
    inferInstanceAs (Decidable (session.Live message.stockLocate message.orderReferenceNumber))
  | .orderReplace message => inferInstanceAs (Decidable (session.Replaces message))
  | .timestampSeconds _ => .isTrue trivial

end Session

/-- The message that registers a locate under a symbol of one letter. -/
def listingOf (stockLocate : StockLocate) (letter : UInt8) : ItchMessage :=
  .stockDirectory { (default : StockDirectoryMessage) with
    stockLocate := stockLocate, stock := #v[letter, 32, 32, 32, 32, 32, 32, 32] }

end Titan
