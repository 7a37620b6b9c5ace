import TitanEngine.Exchange.RegistryRuns
import TitanEngine.Replay.EventReplayer
import TitanEngine.Replay.Session

/-!
# What the adapter asks of the registry

Whatever its type, a message resets the registry, or makes one call of it, or leaves it alone.
`callFor` is that call, and the state of the adapter afterwards follows from its answer.
-/

namespace Titan

/-- The message ends a session: the books and the engine are reset. -/
def ItchMessage.endsSession : ItchMessage → Bool
  | systemEvent message => message.eventCode == endOfMessages
  | _ => false

/-- The answer to a message that makes no call. -/
def ItchMessage.idleAnswer : ItchMessage → Bool
  | systemEvent _ => true
  | timestampSeconds _ => true
  | _ => false

/-- The call did what it was for: it was accepted, or it traded. -/
def RegistryAnswer.succeeded : RegistryAnswer → Bool
  | created => true
  | accept result => result.accepted
  | .trades executed => !executed.isEmpty
  | snapshot _ => true

/-- The order an add message enters. -/
def AddOrderMessage.order (message : AddOrderMessage) : Order where
  id := message.orderReferenceNumber
  side := message.side
  price := message.price.toUInt64
  quantity := message.shares.toUInt64

namespace ItchEngineAdapter

/-- The call of an add. -/
def addCall (adapter : ItchEngineAdapter) (message : AddOrderMessage) : Option RegistryCall := do
  let symbol ← adapter.symbols[message.stockLocate]?
  return .submitOrder symbol message.order

/-- The call of an execution. -/
def executionCall (adapter : ItchEngineAdapter) (locate : StockLocate) (ref : OrderRefNumber)
    (executedShares : UInt32) (executionPrice : Option UInt32) : Option RegistryCall := do
  let symbol ← adapter.symbols[locate]?
  let existing ← adapter.registry.findOrder symbol (adapter.engineIdFor ref)
  return .matchOrder symbol
    (syntheticOrder adapter.nextSyntheticId existing executedShares executionPrice)

/-- The call of a cancel. -/
def cancelCall (adapter : ItchEngineAdapter) (message : OrderCancelMessage) :
    Option RegistryCall := do
  let symbol ← adapter.symbols[message.stockLocate]?
  let id := adapter.engineIdFor message.orderReferenceNumber
  let existing ← adapter.registry.findOrder symbol id
  let remaining := existing.quantity - min message.cancelledShares.toUInt64 existing.quantity
  return if remaining = 0 then .cancelOrder symbol id
    else .cancelReplace symbol id { existing with id := id, quantity := remaining }

/-- The call of a delete. -/
def deleteCall (adapter : ItchEngineAdapter) (message : OrderDeleteMessage) :
    Option RegistryCall := do
  let symbol ← adapter.symbols[message.stockLocate]?
  return .cancelOrder symbol (adapter.engineIdFor message.orderReferenceNumber)

/-- The call of a replacement. -/
def replaceCall (adapter : ItchEngineAdapter) (message : OrderReplaceMessage) :
    Option RegistryCall := do
  let symbol ← adapter.symbols[message.stockLocate]?
  let id := adapter.engineIdFor message.originalOrderReferenceNumber
  let existing ← adapter.registry.findOrder symbol id
  return .cancelReplace symbol id { existing with
    id := id
    price := message.price.toUInt64
    quantity := message.shares.toUInt64 }

section Makes

variable {adapter : ItchEngineAdapter} {call : RegistryCall}

/-- An add calls when its locate is registered. -/
theorem addCall_eq_some_iff {message : AddOrderMessage} :
    adapter.addCall message = some call ↔
      ∃ symbol, adapter.symbols[message.stockLocate]? = some symbol ∧
        call = .submitOrder symbol message.order := by
  simp only [addCall, Option.bind_eq_bind, Option.bind_eq_some_iff, Option.pure_def,
    Option.some.injEq, @eq_comm _ call]

/-- An execution calls when its locate is registered and its order is known. -/
theorem executionCall_eq_some_iff {locate : StockLocate} {ref : OrderRefNumber}
    {executedShares : UInt32} {executionPrice : Option UInt32} :
    adapter.executionCall locate ref executedShares executionPrice = some call ↔
      ∃ symbol, adapter.symbols[locate]? = some symbol ∧
        ∃ existing, adapter.registry.findOrder symbol (adapter.engineIdFor ref) = some existing ∧
          call = .matchOrder symbol
            (syntheticOrder adapter.nextSyntheticId existing executedShares executionPrice) := by
  simp only [executionCall, Option.bind_eq_bind, Option.bind_eq_some_iff, Option.pure_def,
    Option.some.injEq, @eq_comm _ call]

/-- A cancel calls when its locate is registered and its order is known. -/
theorem cancelCall_eq_some_iff {message : OrderCancelMessage} :
    adapter.cancelCall message = some call ↔
      ∃ symbol, adapter.symbols[message.stockLocate]? = some symbol ∧
        ∃ existing, adapter.registry.findOrder symbol
            (adapter.engineIdFor message.orderReferenceNumber) = some existing ∧
          call =
            if existing.quantity - min message.cancelledShares.toUInt64 existing.quantity = 0 then
              .cancelOrder symbol (adapter.engineIdFor message.orderReferenceNumber)
            else .cancelReplace symbol (adapter.engineIdFor message.orderReferenceNumber)
              { existing with
                id := adapter.engineIdFor message.orderReferenceNumber
                quantity := existing.quantity -
                  min message.cancelledShares.toUInt64 existing.quantity } := by
  simp only [cancelCall, Option.bind_eq_bind, Option.bind_eq_some_iff, Option.pure_def,
    Option.some.injEq, @eq_comm _ call]

/-- A delete calls when its locate is registered. -/
theorem deleteCall_eq_some_iff {message : OrderDeleteMessage} :
    adapter.deleteCall message = some call ↔
      ∃ symbol, adapter.symbols[message.stockLocate]? = some symbol ∧
        call = .cancelOrder symbol (adapter.engineIdFor message.orderReferenceNumber) := by
  simp only [deleteCall, Option.bind_eq_bind, Option.bind_eq_some_iff, Option.pure_def,
    Option.some.injEq, @eq_comm _ call]

/-- A replacement calls when its locate is registered and its order is known. -/
theorem replaceCall_eq_some_iff {message : OrderReplaceMessage} :
    adapter.replaceCall message = some call ↔
      ∃ symbol, adapter.symbols[message.stockLocate]? = some symbol ∧
        ∃ existing, adapter.registry.findOrder symbol
            (adapter.engineIdFor message.originalOrderReferenceNumber) = some existing ∧
          call = .cancelReplace symbol
            (adapter.engineIdFor message.originalOrderReferenceNumber)
            { existing with
              id := adapter.engineIdFor message.originalOrderReferenceNumber
              price := message.price.toUInt64
              quantity := message.shares.toUInt64 } := by
  simp only [replaceCall, Option.bind_eq_bind, Option.bind_eq_some_iff, Option.pure_def,
    Option.some.injEq, @eq_comm _ call]

end Makes

/-- The call a message makes of the registry. -/
def callFor (adapter : ItchEngineAdapter) : ItchMessage → Option RegistryCall
  | .systemEvent _ => none
  | .stockDirectory message => some (.createInstrument (trimTrailingSpaces message.stock))
  | .addOrder message => adapter.addCall message
  | .addOrderMpid message => adapter.addCall message.base
  | .orderExecuted message =>
    adapter.executionCall message.stockLocate message.orderReferenceNumber message.executedShares
      none
  | .orderExecutedWithPrice message =>
    adapter.executionCall message.base.stockLocate message.base.orderReferenceNumber
      message.base.executedShares (some message.executionPrice)
  | .orderCancel message => adapter.cancelCall message
  | .orderDelete message => adapter.deleteCall message
  | .orderReplace message => adapter.replaceCall message
  | .timestampSeconds _ => none

/-- The symbols once a message was applied. -/
def symbolsAfter (adapter : ItchEngineAdapter) : ItchMessage → LocateMap Symbol
  | .stockDirectory message =>
    adapter.symbols.insert message.stockLocate (trimTrailingSpaces message.stock)
  | _ => adapter.symbols

/-- The map of references once a message was applied and its call answered. -/
def idsAfter (adapter : ItchEngineAdapter) (message : ItchMessage) (succeeded : Bool) :
    IdMap OrderId :=
  match message with
  | .addOrder message =>
    adapter.engineIdForRef.insert message.orderReferenceNumber message.orderReferenceNumber
  | .addOrderMpid message =>
    adapter.engineIdForRef.insert message.base.orderReferenceNumber
      message.base.orderReferenceNumber
  | .orderReplace message =>
    if succeeded then
      adapter.engineIdForRef.insert message.newOrderReferenceNumber
        (adapter.engineIdFor message.originalOrderReferenceNumber)
    else adapter.engineIdForRef
  | _ => adapter.engineIdForRef

/-- The next synthetic id once a call was made. -/
def nextIdAfter (adapter : ItchEngineAdapter) : RegistryCall → OrderId
  | .matchOrder _ _ => adapter.nextSyntheticId + 1
  | _ => adapter.nextSyntheticId

/-- The adapter once the call of a message was made. -/
def called (adapter : ItchEngineAdapter) (message : ItchMessage) (call : RegistryCall) :
    Bool × ItchEngineAdapter :=
  let (answer, registry) := callRegistry adapter.registry call
  (answer.succeeded,
    { registry := registry
      symbols := adapter.symbolsAfter message
      engineIdForRef := adapter.idsAfter message answer.succeeded
      nextSyntheticId := adapter.nextIdAfter call
      tradeVolume :=
        answer.tradesOf.foldl (fun volume trade => volume + trade.quantity) adapter.tradeVolume })

/-- A call is about the symbol of the message's locate. -/
theorem symbol_callFor {adapter : ItchEngineAdapter} {message : ItchMessage} {call : RegistryCall}
    (makes : adapter.callFor message = some call) :
    ∃ locate, extractLocate message = some locate ∧
      (adapter.symbolsAfter message)[locate]? = some call.symbol := by
  cases message with
  | systemEvent message => nomatch makes
  | timestampSeconds message => nomatch makes
  | stockDirectory message =>
    obtain rfl := Option.some.inj makes
    exact ⟨_, rfl, Std.ExtTreeMap.getElem?_insert_self⟩
  | orderCancel message =>
    obtain ⟨symbol, registered, existing, found, rfl⟩ := cancelCall_eq_some_iff.mp makes
    refine ⟨_, rfl, ?_⟩
    split <;> exact registered
  | addOrder message =>
    obtain ⟨symbol, registered, rfl⟩ := addCall_eq_some_iff.mp makes
    exact ⟨_, rfl, registered⟩
  | addOrderMpid message =>
    obtain ⟨symbol, registered, rfl⟩ := addCall_eq_some_iff.mp makes
    exact ⟨_, rfl, registered⟩
  | orderExecuted message =>
    obtain ⟨symbol, registered, _, _, rfl⟩ := executionCall_eq_some_iff.mp makes
    exact ⟨_, rfl, registered⟩
  | orderExecutedWithPrice message =>
    obtain ⟨symbol, registered, _, _, rfl⟩ := executionCall_eq_some_iff.mp makes
    exact ⟨_, rfl, registered⟩
  | orderDelete message =>
    obtain ⟨symbol, registered, rfl⟩ := deleteCall_eq_some_iff.mp makes
    exact ⟨_, rfl, registered⟩
  | orderReplace message =>
    obtain ⟨symbol, registered, _, _, rfl⟩ := replaceCall_eq_some_iff.mp makes
    exact ⟨_, rfl, registered⟩

/-- A synthetic id is used up by an execution and by nothing else. -/
theorem nextIdAfter_callFor {adapter : ItchEngineAdapter} {message : ItchMessage}
    {call : RegistryCall} (makes : adapter.callFor message = some call) :
    adapter.nextIdAfter call =
      if message.execution.isSome then adapter.nextSyntheticId + 1
      else adapter.nextSyntheticId := by
  cases message with
  | systemEvent message => nomatch makes
  | timestampSeconds message => nomatch makes
  | stockDirectory message =>
    obtain rfl := Option.some.inj makes
    rfl
  | orderCancel message =>
    obtain ⟨symbol, registered, existing, found, rfl⟩ := cancelCall_eq_some_iff.mp makes
    split <;> rfl
  | addOrder message =>
    obtain ⟨symbol, _, rfl⟩ := addCall_eq_some_iff.mp makes
    rfl
  | addOrderMpid message =>
    obtain ⟨symbol, _, rfl⟩ := addCall_eq_some_iff.mp makes
    rfl
  | orderExecuted message =>
    obtain ⟨symbol, _, _, _, rfl⟩ := executionCall_eq_some_iff.mp makes
    rfl
  | orderExecutedWithPrice message =>
    obtain ⟨symbol, _, _, _, rfl⟩ := executionCall_eq_some_iff.mp makes
    rfl
  | orderDelete message =>
    obtain ⟨symbol, _, rfl⟩ := deleteCall_eq_some_iff.mp makes
    rfl
  | orderReplace message =>
    obtain ⟨symbol, _, _, _, rfl⟩ := replaceCall_eq_some_iff.mp makes
    rfl

/-- What an add does, in whatever message it comes. -/
theorem handleAddOrder_call (adapter : ItchEngineAdapter) {message : AddOrderMessage}
    {whole : ItchMessage} {call : RegistryCall} (makes : adapter.addCall message = some call)
    (symbols : adapter.symbolsAfter whole = adapter.symbols)
    (ids : ∀ succeeded, adapter.idsAfter whole succeeded = adapter.engineIdForRef.insert
      message.orderReferenceNumber message.orderReferenceNumber) :
    adapter.handleAddOrder message = adapter.called whole call := by
  obtain ⟨symbol, registered, rfl⟩ := addCall_eq_some_iff.mp makes
  simp only [handleAddOrder, registered, called, symbols, ids]
  rfl

/-- What an execution does, in whatever message it comes. -/
theorem applyExecuted_call (adapter : ItchEngineAdapter) {locate : StockLocate}
    {ref : OrderRefNumber} {executedShares : UInt32} {executionPrice : Option UInt32}
    {whole : ItchMessage} {call : RegistryCall}
    (makes : adapter.executionCall locate ref executedShares executionPrice = some call)
    (symbols : adapter.symbolsAfter whole = adapter.symbols)
    (ids : ∀ succeeded, adapter.idsAfter whole succeeded = adapter.engineIdForRef) :
    adapter.applyExecuted locate ref executedShares executionPrice =
      adapter.called whole call := by
  obtain ⟨symbol, registered, existing, found, rfl⟩ := executionCall_eq_some_iff.mp makes
  simp only [applyExecuted, registered, found, called, symbols, ids]
  rfl

/-- A message that makes a call does nothing else. -/
theorem apply_call (adapter : ItchEngineAdapter) {message : ItchMessage} {call : RegistryCall}
    (makes : adapter.callFor message = some call) :
    adapter.apply message = adapter.called message call := by
  cases message with
  | systemEvent message => nomatch makes
  | timestampSeconds message => nomatch makes
  | stockDirectory message =>
    obtain rfl := Option.some.inj makes
    rfl
  | addOrder message => exact adapter.handleAddOrder_call makes rfl (fun _ => rfl)
  | addOrderMpid message => exact adapter.handleAddOrder_call makes rfl (fun _ => rfl)
  | orderExecuted message => exact adapter.applyExecuted_call makes rfl (fun _ => rfl)
  | orderExecutedWithPrice message => exact adapter.applyExecuted_call makes rfl (fun _ => rfl)
  | orderCancel message =>
    obtain ⟨symbol, registered, existing, found, rfl⟩ := cancelCall_eq_some_iff.mp makes
    simp only [apply, handleOrderCancel, registered, found]
    split
    · rfl
    · rfl
  | orderDelete message =>
    obtain ⟨symbol, registered, rfl⟩ := deleteCall_eq_some_iff.mp makes
    simp only [apply, handleOrderDelete, registered]
    rfl
  | orderReplace message =>
    obtain ⟨symbol, registered, existing, found, rfl⟩ := replaceCall_eq_some_iff.mp makes
    simp only [apply, handleOrderReplace, registered, found, called, callRegistry]
    generalize adapter.registry.cancelReplace _ _ _ = outcome
    cases accepted : outcome.1.accepted <;>
      simp [idsAfter, symbolsAfter, nextIdAfter, RegistryAnswer.succeeded, RegistryAnswer.tradesOf,
        accepted]

/-- An execution that makes no call does nothing. -/
theorem applyExecuted_idle {adapter : ItchEngineAdapter} {locate : StockLocate}
    {ref : OrderRefNumber} {executedShares : UInt32} {executionPrice : Option UInt32}
    (idle : adapter.executionCall locate ref executedShares executionPrice = none) :
    adapter.applyExecuted locate ref executedShares executionPrice = (false, adapter) := by
  simp only [executionCall] at idle
  simp only [applyExecuted]
  cases registered : adapter.symbols[locate]? with
  | none => rfl
  | some symbol =>
    simp only [registered, Option.bind_eq_bind, Option.bind_some, Option.bind_eq_none_iff,
      Option.pure_def, reduceCtorEq, imp_false] at idle
    simp only [Option.eq_none_iff_forall_ne_some.mpr idle]

/-- A message that makes no call has a fixed answer and leaves the adapter alone, unless it ends
the session. -/
theorem apply_idle_eq (adapter : ItchEngineAdapter) {message : ItchMessage}
    (idle : adapter.callFor message = none) :
    adapter.apply message =
      (message.idleAnswer, if message.endsSession then adapter.reset else adapter) := by
  cases message with
  | systemEvent message =>
    simp only [apply, handleSystemEvent, ItchMessage.endsSession, beq_iff_eq]
    split <;> rfl
  | timestampSeconds message => rfl
  | stockDirectory message => nomatch idle
  | addOrder message =>
    simp only [callFor, addCall, Option.bind_eq_bind, Option.bind_eq_none_iff, Option.pure_def,
      reduceCtorEq, imp_false] at idle
    simp only [apply, handleAddOrder, Option.eq_none_iff_forall_ne_some.mpr idle]
    rfl
  | addOrderMpid message =>
    simp only [callFor, addCall, Option.bind_eq_bind, Option.bind_eq_none_iff, Option.pure_def,
      reduceCtorEq, imp_false] at idle
    simp only [apply, handleAddOrderMpid, handleAddOrder,
      Option.eq_none_iff_forall_ne_some.mpr idle]
    rfl
  | orderDelete message =>
    simp only [callFor, deleteCall, Option.bind_eq_bind, Option.bind_eq_none_iff, Option.pure_def,
      reduceCtorEq, imp_false] at idle
    simp only [apply, handleOrderDelete, Option.eq_none_iff_forall_ne_some.mpr idle]
    rfl
  | orderExecuted message =>
    simp only [apply, handleOrderExecuted, applyExecuted_idle idle, ItchMessage.endsSession]
    rfl
  | orderExecutedWithPrice message =>
    simp only [apply, handleOrderExecutedWithPrice, applyExecuted_idle idle,
      ItchMessage.endsSession]
    rfl
  | orderCancel message =>
    simp only [callFor, cancelCall] at idle
    simp only [apply, handleOrderCancel]
    cases registered : adapter.symbols[message.stockLocate]? with
    | none => rfl
    | some symbol =>
      simp only [registered, Option.bind_eq_bind, Option.bind_some, Option.bind_eq_none_iff,
        Option.pure_def, reduceCtorEq, imp_false] at idle
      simp only [Option.eq_none_iff_forall_ne_some.mpr idle]
      rfl
  | orderReplace message =>
    simp only [callFor, replaceCall] at idle
    simp only [apply, handleOrderReplace]
    cases registered : adapter.symbols[message.stockLocate]? with
    | none => rfl
    | some symbol =>
      simp only [registered, Option.bind_eq_bind, Option.bind_some, Option.bind_eq_none_iff,
        Option.pure_def, reduceCtorEq, imp_false] at idle
      simp only [Option.eq_none_iff_forall_ne_some.mpr idle]
      rfl

/-- What such a message leaves. -/
theorem apply_idle (adapter : ItchEngineAdapter) {message : ItchMessage}
    (idle : adapter.callFor message = none) :
    (adapter.apply message).2 = if message.endsSession then adapter.reset else adapter := by
  rw [adapter.apply_idle_eq idle]

end ItchEngineAdapter

end Titan
