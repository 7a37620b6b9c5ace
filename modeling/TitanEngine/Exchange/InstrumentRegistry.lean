import TitanEngine.Book.Backend
import TitanEngine.Exchange.OrderManager

/-!
# The instrument registry

`InstrumentRegistry` of `src/exchange/instrument_registry.cpp` with the events of
`titan/core/events.hpp`: one matcher and one manager for each symbol. A call is routed to the
manager of its symbol, and every outcome is logged under the next sequence number.
-/

namespace Titan

/-- `EventPayload`. -/
inductive EventPayload where
  | orderSubmitted (symbol : Symbol) (id : OrderId) (side : Side) (price : Price)
      (quantity : Quantity)
  | orderCancelled (symbol : Symbol) (id : OrderId)
  | orderReplaced (symbol : Symbol) (id : OrderId) (newPrice : Price) (newQuantity : Quantity)
  | tradeExecuted (symbol : Symbol) (incomingOrderId restingOrderId : OrderId) (price : Price)
      (quantity : Quantity)
  | orderRejected (symbol : Symbol) (id : OrderId) (reason : RejectReason)
  deriving DecidableEq, Repr

/-- `Event`. -/
structure Event where
  /-- Number of the event, over all symbols. -/
  sequenceNumber : UInt64
  /-- What happened. -/
  payload : EventPayload
  deriving DecidableEq, Repr

/-- `std::unordered_map<Symbol, β>`. -/
abbrev SymbolMap (β : Type) := Std.ExtTreeMap Symbol β

/-- `Instrument`; the manager carries the matcher it is constructed over. -/
structure Instrument where
  /-- `manager`, over `matcher`. -/
  manager : OrderManager Matcher
  /-- `nextSnapshotSequenceNumber`. -/
  nextSnapshotSequenceNumber : UInt64

/-- `InstrumentRegistry`. -/
structure InstrumentRegistry where
  /-- `backend_`. -/
  backend : MatcherBackend
  /-- Where the heap puts the slabs of an optimized matcher. -/
  allocator : SlabAllocator
  /-- `instruments_`. -/
  instruments : SymbolMap Instrument
  /-- `eventLog_`. -/
  eventLog : List Event
  /-- `nextSequenceNumber_`. -/
  nextSequenceNumber : UInt64

/-- The event of a trade. -/
def Trade.event (symbol : Symbol) (trade : Trade) : EventPayload :=
  .tradeExecuted symbol trade.incomingOrderId trade.restingOrderId trade.price trade.quantity

namespace InstrumentRegistry

/-- The constructor. -/
def init (allocator : SlabAllocator) (backend : MatcherBackend) : InstrumentRegistry where
  backend := backend
  allocator := allocator
  instruments := ∅
  eventLog := []
  nextSequenceNumber := 0

/-- `createInstrument`. -/
def createInstrument (registry : InstrumentRegistry) (symbol : Symbol) : InstrumentRegistry :=
  if registry.instruments.contains symbol then registry
  else
    let instrument : Instrument :=
      { manager := OrderManager.init (makeMatcher registry.allocator registry.backend)
        nextSnapshotSequenceNumber := 0 }
    { registry with instruments := registry.instruments.insert symbol instrument }

/-- `hasInstrument`. -/
def hasInstrument (registry : InstrumentRegistry) (symbol : Symbol) : Bool :=
  registry.instruments.contains symbol

/-- `find`. -/
def find (registry : InstrumentRegistry) (symbol : Symbol) : Option Instrument :=
  registry.instruments[symbol]?

/-- `snapshot`; the number of the next snapshot is mutable. -/
def snapshot (registry : InstrumentRegistry) (symbol : Symbol) (depth : Nat) :
    BookSnapshot × InstrumentRegistry :=
  match registry.find symbol with
  | none => ({ symbol := symbol, sequenceNumber := 0, bids := [], asks := [] }, registry)
  | some instrument =>
    let taken : BookSnapshot :=
      { symbol := symbol
        sequenceNumber := instrument.nextSnapshotSequenceNumber
        bids := IMatcher.bidDepth instrument.manager.matcher depth
        asks := IMatcher.askDepth instrument.manager.matcher depth }
    let counted := { instrument with
      nextSnapshotSequenceNumber := instrument.nextSnapshotSequenceNumber + 1 }
    (taken, { registry with instruments := registry.instruments.insert symbol counted })

/-- `findOrder`. -/
def findOrder (registry : InstrumentRegistry) (symbol : Symbol) (id : OrderId) : Option Order :=
  match registry.find symbol with
  | none => none
  | some instrument => instrument.manager.find id

/-- `reset`. -/
def reset (registry : InstrumentRegistry) : InstrumentRegistry :=
  { registry with instruments := ∅, eventLog := [], nextSequenceNumber := 0 }

/-- `clearEventLog`. -/
def clearEventLog (registry : InstrumentRegistry) : InstrumentRegistry :=
  { registry with eventLog := [] }

/-- `emit`. -/
def emit (registry : InstrumentRegistry) (payload : EventPayload) : InstrumentRegistry :=
  { registry with
    eventLog := registry.eventLog ++
      [{ sequenceNumber := registry.nextSequenceNumber, payload := payload }]
    nextSequenceNumber := registry.nextSequenceNumber + 1 }

/-- What a call changed through the pointer `find` returned. -/
def setManager (registry : InstrumentRegistry) (symbol : Symbol) (instrument : Instrument)
    (manager : OrderManager Matcher) : InstrumentRegistry :=
  { registry with
    instruments := registry.instruments.insert symbol { instrument with manager := manager } }

/-- What `submitOrder`, `cancelOrder` and `cancelReplace` have in common: the manager's answer is
logged as the given event or as a rejection of the id. -/
def route (registry : InstrumentRegistry) (symbol : Symbol) (id : OrderId)
    (request : OrderManager Matcher → AcceptResult × OrderManager Matcher)
    (accepted : EventPayload) : AcceptResult × InstrumentRegistry :=
  match registry.find symbol with
  | none => (.reject .unknownSymbol, registry.emit (.orderRejected symbol id .unknownSymbol))
  | some instrument =>
    let (result, manager) := request instrument.manager
    let called := registry.setManager symbol instrument manager
    if result.accepted then (result, called.emit accepted)
    else (result, called.emit (.orderRejected symbol id result.reason))

/-- `submitOrder`. -/
def submitOrder (registry : InstrumentRegistry) (symbol : Symbol) (order : Order) :
    AcceptResult × InstrumentRegistry :=
  registry.route symbol order.id (fun manager => manager.addOrder order)
    (.orderSubmitted symbol order.id order.side order.price order.quantity)

/-- `cancelOrder`. -/
def cancelOrder (registry : InstrumentRegistry) (symbol : Symbol) (id : OrderId) :
    AcceptResult × InstrumentRegistry :=
  registry.route symbol id (fun manager => manager.cancelOrder id) (.orderCancelled symbol id)

/-- `cancelReplace`. -/
def cancelReplace (registry : InstrumentRegistry) (symbol : Symbol) (oldId : OrderId)
    (newOrder : Order) : AcceptResult × InstrumentRegistry :=
  registry.route symbol oldId (fun manager => manager.cancelReplace oldId newOrder)
    (.orderReplaced symbol oldId newOrder.price newOrder.quantity)

/-- `matchOrder`. -/
def matchOrder (registry : InstrumentRegistry) (symbol : Symbol) (order : Order) :
    List Trade × InstrumentRegistry :=
  match registry.find symbol with
  | none => ([], registry.emit (.orderRejected symbol order.id .unknownSymbol))
  | some instrument =>
    let (result, manager) := instrument.manager.matchOrder order
    let called := registry.setManager symbol instrument manager
    let entered :=
      if result.accept.accepted then
        called.emit (.orderSubmitted symbol order.id order.side order.price order.quantity)
      else called.emit (.orderRejected symbol order.id result.accept.reason)
    (result.trades,
      result.trades.foldl (fun logged trade => logged.emit (trade.event symbol)) entered)

end InstrumentRegistry

end Titan
