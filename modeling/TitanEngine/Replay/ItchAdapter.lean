import TitanEngine.Exchange.InstrumentRegistry
import TitanEngine.Feed.BookBuilder

/-!
# The engine behind the feed

`ItchEngineAdapter` of `src/replay/itch_adapter.cpp`: decoded messages become calls of the
registry. The engine has no passive execution, so an execution is a synthetic
immediate-or-cancel order from the other side; it has no renaming either, so a replaced order
keeps its engine id and the new reference is mapped to it.
-/

namespace Titan

/-- The first synthetic id. -/
def firstSyntheticId : OrderId := 1000000000

/-- `ItchEngineAdapter`, with the registry it drives. -/
structure ItchEngineAdapter where
  /-- `registry_`. -/
  registry : InstrumentRegistry
  /-- `symbols_`. -/
  symbols : LocateMap Symbol
  /-- `engineIdForRef_`. -/
  engineIdForRef : IdMap OrderId
  /-- `nextSyntheticId_`. -/
  nextSyntheticId : OrderId
  /-- `tradeVolume_`. -/
  tradeVolume : UInt64

namespace ItchEngineAdapter

/-- The constructor. -/
def init (registry : InstrumentRegistry) : ItchEngineAdapter where
  registry := registry
  symbols := ∅
  engineIdForRef := ∅
  nextSyntheticId := firstSyntheticId
  tradeVolume := 0

/-- `reset`. -/
def reset (adapter : ItchEngineAdapter) : ItchEngineAdapter where
  registry := adapter.registry.reset
  symbols := ∅
  engineIdForRef := ∅
  nextSyntheticId := firstSyntheticId
  tradeVolume := 0

/-- `engineIdFor`. -/
def engineIdFor (adapter : ItchEngineAdapter) (ref : OrderRefNumber) : OrderId :=
  adapter.engineIdForRef.getD ref ref

/-- `handle(SystemEventMessage)`. -/
def handleSystemEvent (adapter : ItchEngineAdapter) (message : SystemEventMessage) :
    Bool × ItchEngineAdapter :=
  if message.eventCode = endOfMessages then (true, adapter.reset) else (true, adapter)

/-- `handle(StockDirectoryMessage)`. -/
def handleStockDirectory (adapter : ItchEngineAdapter) (message : StockDirectoryMessage) :
    Bool × ItchEngineAdapter :=
  let symbol := trimTrailingSpaces message.stock
  (true, { adapter with
    registry := adapter.registry.createInstrument symbol
    symbols := adapter.symbols.insert message.stockLocate symbol })

/-- `handle(AddOrderMessage)`. -/
def handleAddOrder (adapter : ItchEngineAdapter) (message : AddOrderMessage) :
    Bool × ItchEngineAdapter :=
  match adapter.symbols[message.stockLocate]? with
  | none => (false, adapter)
  | some symbol =>
    let id : OrderId := message.orderReferenceNumber
    let order : Order :=
      { id := id
        side := message.side
        price := message.price.toUInt64
        quantity := message.shares.toUInt64 }
    let (result, registry) := adapter.registry.submitOrder symbol order
    (result.accepted, { adapter with
      registry := registry
      engineIdForRef := adapter.engineIdForRef.insert message.orderReferenceNumber id })

/-- `handle(AddOrderMpidMessage)`. -/
def handleAddOrderMpid (adapter : ItchEngineAdapter) (message : AddOrderMpidMessage) :
    Bool × ItchEngineAdapter :=
  adapter.handleAddOrder message.base

/-- The synthetic order that executes against a recorded one. -/
def syntheticOrder (id : OrderId) (existing : Order) (executedShares : UInt32)
    (executionPrice : Option UInt32) : Order where
  id := id
  side := existing.side.opposite
  price :=
    match executionPrice with
    | some price => price.toUInt64
    | none => existing.price
  quantity := min executedShares.toUInt64 existing.quantity
  accountId := 0
  type := .limit
  tif := .ioc

/-- `applyExecuted`. -/
def applyExecuted (adapter : ItchEngineAdapter) (locate : StockLocate) (ref : OrderRefNumber)
    (executedShares : UInt32) (executionPrice : Option UInt32) : Bool × ItchEngineAdapter :=
  match adapter.symbols[locate]? with
  | none => (false, adapter)
  | some symbol =>
    match adapter.registry.findOrder symbol (adapter.engineIdFor ref) with
    | none => (false, adapter)
    | some existing =>
      let synthetic :=
        syntheticOrder adapter.nextSyntheticId existing executedShares executionPrice
      let (trades, registry) := adapter.registry.matchOrder symbol synthetic
      (!trades.isEmpty, { adapter with
        registry := registry
        nextSyntheticId := adapter.nextSyntheticId + 1
        tradeVolume :=
          trades.foldl (fun volume trade => volume + trade.quantity) adapter.tradeVolume })

/-- `handle(OrderExecutedMessage)`. -/
def handleOrderExecuted (adapter : ItchEngineAdapter) (message : OrderExecutedMessage) :
    Bool × ItchEngineAdapter :=
  adapter.applyExecuted message.stockLocate message.orderReferenceNumber message.executedShares
    none

/-- `handle(OrderExecutedWithPriceMessage)`. -/
def handleOrderExecutedWithPrice (adapter : ItchEngineAdapter)
    (message : OrderExecutedWithPriceMessage) : Bool × ItchEngineAdapter :=
  adapter.applyExecuted message.base.stockLocate message.base.orderReferenceNumber
    message.base.executedShares (some message.executionPrice)

/-- `handle(OrderCancelMessage)`. -/
def handleOrderCancel (adapter : ItchEngineAdapter) (message : OrderCancelMessage) :
    Bool × ItchEngineAdapter :=
  match adapter.symbols[message.stockLocate]? with
  | none => (false, adapter)
  | some symbol =>
    let id := adapter.engineIdFor message.orderReferenceNumber
    match adapter.registry.findOrder symbol id with
    | none => (false, adapter)
    | some existing =>
      let cancelled := min message.cancelledShares.toUInt64 existing.quantity
      let remaining := existing.quantity - cancelled
      if remaining = 0 then
        let (result, registry) := adapter.registry.cancelOrder symbol id
        (result.accepted, { adapter with registry := registry })
      else
        let reduced := { existing with id := id, quantity := remaining }
        let (result, registry) := adapter.registry.cancelReplace symbol id reduced
        (result.accepted, { adapter with registry := registry })

/-- `handle(OrderDeleteMessage)`. -/
def handleOrderDelete (adapter : ItchEngineAdapter) (message : OrderDeleteMessage) :
    Bool × ItchEngineAdapter :=
  match adapter.symbols[message.stockLocate]? with
  | none => (false, adapter)
  | some symbol =>
    let id := adapter.engineIdFor message.orderReferenceNumber
    let (result, registry) := adapter.registry.cancelOrder symbol id
    (result.accepted, { adapter with registry := registry })

/-- `handle(OrderReplaceMessage)`. -/
def handleOrderReplace (adapter : ItchEngineAdapter) (message : OrderReplaceMessage) :
    Bool × ItchEngineAdapter :=
  match adapter.symbols[message.stockLocate]? with
  | none => (false, adapter)
  | some symbol =>
    let id := adapter.engineIdFor message.originalOrderReferenceNumber
    match adapter.registry.findOrder symbol id with
    | none => (false, adapter)
    | some existing =>
      let replacement := { existing with
        id := id
        price := message.price.toUInt64
        quantity := message.shares.toUInt64 }
      let (result, registry) := adapter.registry.cancelReplace symbol id replacement
      let replaced := { adapter with registry := registry }
      if result.accepted then
        (true, { replaced with
          engineIdForRef := replaced.engineIdForRef.insert message.newOrderReferenceNumber id })
      else (false, replaced)

/-- `apply`. -/
def apply (adapter : ItchEngineAdapter) (message : ItchMessage) : Bool × ItchEngineAdapter :=
  match message with
  | .systemEvent message => adapter.handleSystemEvent message
  | .stockDirectory message => adapter.handleStockDirectory message
  | .addOrder message => adapter.handleAddOrder message
  | .addOrderMpid message => adapter.handleAddOrderMpid message
  | .orderExecuted message => adapter.handleOrderExecuted message
  | .orderExecutedWithPrice message => adapter.handleOrderExecutedWithPrice message
  | .orderCancel message => adapter.handleOrderCancel message
  | .orderDelete message => adapter.handleOrderDelete message
  | .orderReplace message => adapter.handleOrderReplace message
  | .timestampSeconds _ => (true, adapter)

/-- `symbolForLocate`. -/
def symbolForLocate (adapter : ItchEngineAdapter) (locate : StockLocate) : Option Symbol :=
  adapter.symbols[locate]?

/-- `snapshot`. -/
def snapshot (adapter : ItchEngineAdapter) (locate : StockLocate) (depth : Nat) :
    BookSnapshot × ItchEngineAdapter :=
  match adapter.symbols[locate]? with
  | none => ({ symbol := [], sequenceNumber := 0, bids := [], asks := [] }, adapter)
  | some symbol =>
    let (taken, registry) := adapter.registry.snapshot symbol depth
    (taken, { adapter with registry := registry })

end ItchEngineAdapter

end Titan
