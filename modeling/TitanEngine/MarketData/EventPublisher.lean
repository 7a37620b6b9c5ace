import TitanEngine.Exchange.InstrumentRegistry

/-!
# Publishing execution reports

`EventPublisher` of `src/market_data/publisher.cpp` with the reports of
`titan/market_data/execution_report.hpp`. The publisher derives its reports from the log of a
registry alone: it rebuilds the original quantity of every order, what was traded of it and for
how much. The average price of a fill is a division by the cumulative quantity, and only the
handlers of cancels and replacements ask first whether that is zero.
-/

namespace Titan

/-- `ExecType`. -/
inductive ExecType where
  | new
  | trade
  | cancelled
  | replaced
  | rejected
  deriving DecidableEq, Repr

/-- `ExecutionReport`. -/
structure ExecutionReport where
  /-- Symbol of the order. -/
  symbol : Symbol
  /-- Number of the report, within the symbol. -/
  sequenceNumber : UInt64
  /-- The order. -/
  orderId : OrderId
  /-- What happened to it. -/
  execType : ExecType
  /-- Quantity of the last fill. -/
  lastQty : Quantity
  /-- Quantity of all fills. -/
  cumQty : Quantity
  /-- Quantity still open. -/
  leavesQty : Quantity
  /-- Price of the last fill, or of the replacement. -/
  lastPx : Price
  /-- Average price of all fills. -/
  avgPx : Price
  /-- Why it was rejected; meaningful for a rejection only. -/
  rejectReason : RejectReason
  deriving DecidableEq, Repr

/-- `EventPublisher::OrderState`. -/
structure OrderState where
  /-- `originalQty`. -/
  originalQty : Quantity := 0
  /-- `cumQty`. -/
  cumQty : Quantity := 0
  /-- `cumNotional`. -/
  cumNotional : Quantity := 0
  deriving DecidableEq, Repr

/-- `EventPublisher`. -/
structure EventPublisher where
  /-- `orderStates_`. -/
  orderStates : SymbolMap (IdMap OrderState)
  /-- `nextSequenceNumber_`. -/
  nextSequenceNumber : SymbolMap UInt64
  /-- `reports_`. -/
  reports : List ExecutionReport

namespace EventPublisher

/-- A fresh publisher; `clear` leaves the same. -/
def init : EventPublisher where
  orderStates := ∅
  nextSequenceNumber := ∅
  reports := []

/-- The two lookups in `orderStates_`. -/
def stateOf (publisher : EventPublisher) (symbol : Symbol) (id : OrderId) : Option OrderState :=
  publisher.orderStates[symbol]?.bind (fun states => states[id]?)

/-- `orderStates_[symbol][id] = state`. -/
def setState (publisher : EventPublisher) (symbol : Symbol) (id : OrderId) (state : OrderState) :
    EventPublisher :=
  { publisher with
    orderStates := publisher.orderStates.insert symbol
      ((publisher.orderStates.getD symbol ∅).insert id state) }

/-- `nextSeq`. -/
def nextSeq (publisher : EventPublisher) (symbol : Symbol) : UInt64 × EventPublisher :=
  let number := publisher.nextSequenceNumber.getD symbol 0
  (number, { publisher with
    nextSequenceNumber := publisher.nextSequenceNumber.insert symbol (number + 1) })

/-- `reports_.push_back`, of a report that takes the next number of its symbol. -/
def report (publisher : EventPublisher) (symbol : Symbol) (id : OrderId) (execType : ExecType)
    (lastQty cumQty leavesQty : Quantity) (lastPx avgPx : Price) (reason : RejectReason) :
    EventPublisher :=
  let (number, counted) := publisher.nextSeq symbol
  { counted with
    reports := counted.reports ++
      [{ symbol := symbol
         sequenceNumber := number
         orderId := id
         execType := execType
         lastQty := lastQty
         cumQty := cumQty
         leavesQty := leavesQty
         lastPx := lastPx
         avgPx := avgPx
         rejectReason := reason }] }

/-- `cumQty > 0 ? cumNotional / cumQty : 0`. -/
def guardedAverage (state : OrderState) : Price :=
  if state.cumQty > 0 then state.cumNotional / state.cumQty else 0

/-- `handle(const OrderSubmitted&)`. -/
def handleSubmitted (publisher : EventPublisher) (symbol : Symbol) (id : OrderId)
    (quantity : Quantity) : EventPublisher :=
  (publisher.setState symbol id { originalQty := quantity }).report symbol id .new
    0 0 quantity 0 0 .none

/-- `emitFill`; nothing comes of a division by zero, which is undefined. -/
def emitFill (publisher : EventPublisher) (symbol : Symbol) (orderId : OrderId)
    (tradeQty : Quantity) (tradePx : Price) : Option EventPublisher :=
  match publisher.stateOf symbol orderId with
  | none => some publisher
  | some state =>
    let filled := { state with
      cumQty := state.cumQty + tradeQty
      cumNotional := state.cumNotional + tradeQty * tradePx }
    if filled.cumQty = 0 then none
    else
      let leaves := filled.originalQty - filled.cumQty
      let avgPx := filled.cumNotional / filled.cumQty
      some ((publisher.setState symbol orderId filled).report symbol orderId .trade
        tradeQty filled.cumQty leaves tradePx avgPx .none)

/-- `handle(const TradeExecuted&)`. -/
def handleTrade (publisher : EventPublisher) (symbol : Symbol)
    (incomingOrderId restingOrderId : OrderId) (price : Price) (quantity : Quantity) :
    Option EventPublisher :=
  (publisher.emitFill symbol incomingOrderId quantity price).bind
    (fun filled => filled.emitFill symbol restingOrderId quantity price)

/-- `handle(const OrderCancelled&)`. -/
def handleCancelled (publisher : EventPublisher) (symbol : Symbol) (id : OrderId) :
    EventPublisher :=
  match publisher.stateOf symbol id with
  | none => publisher.report symbol id .cancelled 0 0 0 0 0 .none
  | some state =>
    publisher.report symbol id .cancelled 0 state.cumQty 0 0 (guardedAverage state) .none

/-- `handle(const OrderReplaced&)`; `operator[]` makes the state that is missing. -/
def handleReplaced (publisher : EventPublisher) (symbol : Symbol) (id : OrderId)
    (newPrice : Price) (newQuantity : Quantity) : EventPublisher :=
  let state := (publisher.stateOf symbol id).getD {}
  let replaced := { state with originalQty := state.cumQty + newQuantity }
  (publisher.setState symbol id replaced).report symbol id .replaced
    0 replaced.cumQty newQuantity newPrice (guardedAverage replaced) .none

/-- `handle(const OrderRejected&)`. -/
def handleRejected (publisher : EventPublisher) (symbol : Symbol) (id : OrderId)
    (reason : RejectReason) : EventPublisher :=
  publisher.report symbol id .rejected 0 0 0 0 0 reason

/-- `process`, of the payload of an event. -/
def process (publisher : EventPublisher) (payload : EventPayload) : Option EventPublisher :=
  match payload with
  | .orderSubmitted symbol id _ _ quantity => some (publisher.handleSubmitted symbol id quantity)
  | .orderCancelled symbol id => some (publisher.handleCancelled symbol id)
  | .orderReplaced symbol id newPrice newQuantity =>
    some (publisher.handleReplaced symbol id newPrice newQuantity)
  | .tradeExecuted symbol incomingOrderId restingOrderId price quantity =>
    publisher.handleTrade symbol incomingOrderId restingOrderId price quantity
  | .orderRejected symbol id reason => some (publisher.handleRejected symbol id reason)

/-- Feed a whole log to a fresh publisher. -/
def publish (log : List Event) : Option EventPublisher :=
  (log.map Event.payload).foldlM process init

/-- The last report of an order that is of one of the given kinds. -/
def lastReport (publisher : EventPublisher) (kinds : List ExecType) (symbol : Symbol)
    (id : OrderId) : Option ExecutionReport :=
  (publisher.reports.filter (fun report =>
    report.symbol == symbol && report.orderId == id && kinds.contains report.execType)).getLast?

end EventPublisher

end Titan
