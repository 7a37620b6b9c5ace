import TitanEngine.Feed.Messages

/-!
# The feed's own book

`ItchBookBuilder` of `src/feed/itch/book_builder.cpp`: for each locate the resting orders by
reference number and, for each side, the shares resting at each price. The levels are kept
beside the orders and are never computed from them.
-/

namespace Titan

/-- `std::unordered_map<StockLocate, β>`. -/
abbrev LocateMap (β : Type) := Std.ExtTreeMap StockLocate β

/-- `ItchBookBuilder::RestingOrder`. -/
structure RestingOrder where
  /-- Buy or sell. -/
  side : Side
  /-- Limit. -/
  price : Price
  /-- Shares left. -/
  remainingShares : Quantity
  deriving DecidableEq, Repr, Inhabited

/-- `ItchBookBuilder::SymbolBook`. -/
structure SymbolBook where
  /-- Symbol of the locate. -/
  symbol : Symbol
  /-- Resting orders by reference. -/
  orders : IdMap RestingOrder
  /-- Shares bid at each price. -/
  bidLevels : PriceMap Quantity
  /-- Shares offered at each price. -/
  askLevels : PriceMap Quantity
  /-- `nextSnapshotSequenceNumber`. -/
  nextSnapshotSequenceNumber : UInt64

namespace SymbolBook

/-- `SymbolBook{}`. -/
def empty : SymbolBook where
  symbol := []
  orders := ∅
  bidLevels := ∅
  askLevels := ∅
  nextSnapshotSequenceNumber := 0

/-- The levels of one side. -/
def levels (book : SymbolBook) : Side → PriceMap Quantity
  | .buy => book.bidLevels
  | .sell => book.askLevels

/-- Replace the levels of one side. -/
def setLevels (book : SymbolBook) (side : Side) (levels : PriceMap Quantity) : SymbolBook :=
  match side with
  | .buy => { book with bidLevels := levels }
  | .sell => { book with askLevels := levels }

/-- `addLevel`. -/
def addLevel (book : SymbolBook) (side : Side) (price : Price) (qty : Quantity) : SymbolBook :=
  let levels := book.levels side
  book.setLevels side (levels.insert price (levels.getD price 0 + qty))

/-- `removeLevel`. -/
def removeLevel (book : SymbolBook) (side : Side) (price : Price) (qty : Quantity) :
    SymbolBook :=
  let levels := book.levels side
  match levels[price]? with
  | none => book
  | some held =>
    if qty ≥ held then book.setLevels side (levels.erase price)
    else book.setLevels side (levels.insert price (held - qty))

/-- `addOrder`. -/
def addOrder (book : SymbolBook) (ref : OrderRefNumber) (side : Side) (shares : Quantity)
    (price : Price) : SymbolBook :=
  { book with
    orders := book.orders.insert ref
      { side := side, price := price, remainingShares := shares } }.addLevel side price shares

/-- `reduceOrder`. -/
def reduceOrder (book : SymbolBook) (ref : OrderRefNumber) (shares : Quantity) : SymbolBook :=
  match book.orders[ref]? with
  | none => book
  | some order =>
    let reduceBy := min shares order.remainingShares
    let lowered := book.removeLevel order.side order.price reduceBy
    if reduceBy ≥ order.remainingShares then { lowered with orders := lowered.orders.erase ref }
    else
      { lowered with
        orders := lowered.orders.insert ref
          { order with remainingShares := order.remainingShares - reduceBy } }

/-- `deleteOrder`. -/
def deleteOrder (book : SymbolBook) (ref : OrderRefNumber) : SymbolBook :=
  match book.orders[ref]? with
  | none => book
  | some order =>
    let lowered := book.removeLevel order.side order.price order.remainingShares
    { lowered with orders := lowered.orders.erase ref }

/-- The loops of `snapshot` over one side. -/
def depth (book : SymbolBook) (side : Side) (depth : Nat) : List PriceLevel :=
  ((bestFirst side (book.levels side)).take depth).map
    (fun entry => { price := entry.1, quantity := entry.2 })

end SymbolBook

/-- `ItchBookBuilder`. -/
structure ItchBookBuilder where
  /-- `books_`. -/
  books : LocateMap SymbolBook

namespace ItchBookBuilder

/-- A builder without books. -/
def init : ItchBookBuilder := { books := ∅ }

/-- `reset`. -/
def reset (_ : ItchBookBuilder) : ItchBookBuilder := { books := ∅ }

/-- `findBook`, then a change through the pointer; nothing without a book. -/
def onBook (builder : ItchBookBuilder) (locate : StockLocate)
    (change : SymbolBook → SymbolBook) : ItchBookBuilder :=
  match builder.books[locate]? with
  | none => builder
  | some book => { builder with books := builder.books.insert locate (change book) }

/-- `handle(SystemEventMessage)`. -/
def handleSystemEvent (builder : ItchBookBuilder) (message : SystemEventMessage) :
    ItchBookBuilder :=
  if message.eventCode = endOfMessages then builder.reset else builder

/-- `handle(StockDirectoryMessage)`. -/
def handleStockDirectory (builder : ItchBookBuilder) (message : StockDirectoryMessage) :
    ItchBookBuilder :=
  let book := builder.books.getD message.stockLocate SymbolBook.empty
  { builder with
    books := builder.books.insert message.stockLocate
      { book with symbol := trimTrailingSpaces message.stock } }

/-- `handle(AddOrderMessage)`. -/
def handleAddOrder (builder : ItchBookBuilder) (message : AddOrderMessage) : ItchBookBuilder :=
  builder.onBook message.stockLocate (fun book =>
    book.addOrder message.orderReferenceNumber message.side message.shares.toUInt64
      message.price.toUInt64)

/-- `handle(AddOrderMpidMessage)`. -/
def handleAddOrderMpid (builder : ItchBookBuilder) (message : AddOrderMpidMessage) :
    ItchBookBuilder :=
  builder.handleAddOrder message.base

/-- `handle(OrderExecutedMessage)`. -/
def handleOrderExecuted (builder : ItchBookBuilder) (message : OrderExecutedMessage) :
    ItchBookBuilder :=
  builder.onBook message.stockLocate (fun book =>
    book.reduceOrder message.orderReferenceNumber message.executedShares.toUInt64)

/-- `handle(OrderExecutedWithPriceMessage)`. -/
def handleOrderExecutedWithPrice (builder : ItchBookBuilder)
    (message : OrderExecutedWithPriceMessage) : ItchBookBuilder :=
  builder.handleOrderExecuted message.base

/-- `handle(OrderCancelMessage)`. -/
def handleOrderCancel (builder : ItchBookBuilder) (message : OrderCancelMessage) :
    ItchBookBuilder :=
  builder.onBook message.stockLocate (fun book =>
    book.reduceOrder message.orderReferenceNumber message.cancelledShares.toUInt64)

/-- `handle(OrderDeleteMessage)`. -/
def handleOrderDelete (builder : ItchBookBuilder) (message : OrderDeleteMessage) :
    ItchBookBuilder :=
  builder.onBook message.stockLocate (fun book => book.deleteOrder message.orderReferenceNumber)

/-- `handle(OrderReplaceMessage)`: the new order inherits the side of the original. -/
def handleOrderReplace (builder : ItchBookBuilder) (message : OrderReplaceMessage) :
    ItchBookBuilder :=
  builder.onBook message.stockLocate (fun book =>
    match book.orders[message.originalOrderReferenceNumber]? with
    | none => book
    | some original =>
      (book.deleteOrder message.originalOrderReferenceNumber).addOrder
        message.newOrderReferenceNumber original.side message.shares.toUInt64
        message.price.toUInt64)

/-- `apply`. -/
def apply (builder : ItchBookBuilder) (message : ItchMessage) : ItchBookBuilder :=
  match message with
  | .systemEvent message => builder.handleSystemEvent message
  | .stockDirectory message => builder.handleStockDirectory message
  | .addOrder message => builder.handleAddOrder message
  | .addOrderMpid message => builder.handleAddOrderMpid message
  | .orderExecuted message => builder.handleOrderExecuted message
  | .orderExecutedWithPrice message => builder.handleOrderExecutedWithPrice message
  | .orderCancel message => builder.handleOrderCancel message
  | .orderDelete message => builder.handleOrderDelete message
  | .orderReplace message => builder.handleOrderReplace message
  | .timestampSeconds _ => builder

/-- `snapshot`; the number of the next snapshot is mutable. -/
def snapshot (builder : ItchBookBuilder) (locate : StockLocate) (depth : Nat) :
    Option BookSnapshot × ItchBookBuilder :=
  match builder.books[locate]? with
  | none => (none, builder)
  | some book =>
    let taken : BookSnapshot :=
      { symbol := book.symbol
        sequenceNumber := book.nextSnapshotSequenceNumber
        bids := book.depth .buy depth
        asks := book.depth .sell depth }
    let counted := { book with
      nextSnapshotSequenceNumber := book.nextSnapshotSequenceNumber + 1 }
    (some taken, { builder with books := builder.books.insert locate counted })

/-- `symbolForLocate`. -/
def symbolForLocate (builder : ItchBookBuilder) (locate : StockLocate) : Option Symbol :=
  (builder.books[locate]?).map (fun book => book.symbol)

/-- The live order of a reference on a locate. -/
def liveOrder (builder : ItchBookBuilder) (locate : StockLocate) (ref : OrderRefNumber) :
    Option RestingOrder :=
  (builder.books[locate]?).bind (fun book => book.orders[ref]?)

/-- `orderCount`. -/
def orderCount (builder : ItchBookBuilder) (locate : StockLocate) : Nat :=
  ((builder.books[locate]?).map (fun book => book.orders.size)).getD 0

end ItchBookBuilder

end Titan
