import TitanEngine.Replay.Session
import TitanEngine.Spec.Quotes

/-!
# Messages about orders that are gone

The adapter resolves a reference through a map that is never cleaned and asks the engine for a
record that outlives its order. So a message about a reference that is no longer live is ignored
only under conditions on the engine: a delete, a cancel or a replacement when the order the
reference is still mapped to does not rest, and an execution when the synthetic order made from
the old record is refused or finds nothing to trade with.
-/

namespace Titan

open Library Std

/-- The locate and the (original) reference of a message about an order. -/
def ItchMessage.about : ItchMessage → Option (StockLocate × OrderRefNumber)
  | orderExecuted message => some (message.stockLocate, message.orderReferenceNumber)
  | orderExecutedWithPrice message =>
    some (message.base.stockLocate, message.base.orderReferenceNumber)
  | orderCancel message => some (message.stockLocate, message.orderReferenceNumber)
  | orderDelete message => some (message.stockLocate, message.orderReferenceNumber)
  | orderReplace message => some (message.stockLocate, message.originalOrderReferenceNumber)
  | _ => none

namespace ItchEngineAdapter

/-- The engine refuses the message, and no instrument shows a change. -/
def Ignores (adapter : ItchEngineAdapter) (message : ItchMessage) : Prop :=
  (adapter.apply message).1 = false ∧ ∀ symbol depth,
    ((adapter.apply message).2.registry.snapshot symbol depth).1.bids =
        (adapter.registry.snapshot symbol depth).1.bids ∧
      ((adapter.apply message).2.registry.snapshot symbol depth).1.asks =
        (adapter.registry.snapshot symbol depth).1.asks

/-- The instrument of a locate. -/
def instrumentFor (adapter : ItchEngineAdapter) (locate : StockLocate) : Option Instrument :=
  (adapter.symbols[locate]?).bind adapter.registry.find

/-- The record the engine keeps for a reference. -/
def recordFor (adapter : ItchEngineAdapter) (locate : StockLocate) (ref : OrderRefNumber) :
    Option Order :=
  (adapter.symbols[locate]?).bind (fun symbol =>
    adapter.registry.findOrder symbol (adapter.engineIdFor ref))

/-- The order a reference is mapped to rests. -/
def Rests (adapter : ItchEngineAdapter) (locate : StockLocate) (ref : OrderRefNumber) : Prop :=
  ∃ instrument ∈ adapter.instrumentFor locate,
    IsResting instrument.manager.matcher (adapter.engineIdFor ref)

instance (adapter : ItchEngineAdapter) (locate : StockLocate) (ref : OrderRefNumber) :
    Decidable (adapter.Rests locate ref) :=
  inferInstanceAs (Decidable (∃ instrument ∈ adapter.instrumentFor locate, _))

/-- A limit on a side reaches an order that rests on the other side. -/
def Reaches (adapter : ItchEngineAdapter) (locate : StockLocate) (side : Side) (limit : Price) :
    Prop :=
  ∃ instrument ∈ adapter.instrumentFor locate,
    ∃ order ∈ resting instrument.manager.matcher side.opposite,
      crosses side limit order.price = true

instance (adapter : ItchEngineAdapter) (locate : StockLocate) (side : Side) (limit : Price) :
    Decidable (adapter.Reaches locate side limit) :=
  inferInstanceAs (Decidable (∃ instrument ∈ adapter.instrumentFor locate, _))

/-- The instrument of a locate already accepted an order under this id. -/
def Knows (adapter : ItchEngineAdapter) (locate : StockLocate) (id : OrderId) : Prop :=
  ∃ instrument ∈ adapter.instrumentFor locate, id ∈ instrument.manager.allKnownOrderIds

instance (adapter : ItchEngineAdapter) (locate : StockLocate) (id : OrderId) :
    Decidable (adapter.Knows locate id) :=
  inferInstanceAs (Decidable (∃ instrument ∈ adapter.instrumentFor locate, _))

/-- An execution trades with nothing: the engine has no record of the reference, nothing is left
of the record or is executed, the price is zero, the synthetic id is taken, or the price reaches
no order on the side of the record. -/
def HarmlessExecution (adapter : ItchEngineAdapter) (locate : StockLocate) (ref : OrderRefNumber)
    (executedShares : UInt32) (executionPrice : Option UInt32) : Prop :=
  ∀ existing ∈ adapter.recordFor locate ref,
    executedShares = 0 ∨ existing.quantity = 0 ∨
      (executionPrice.map UInt32.toUInt64).getD existing.price = 0 ∨
      adapter.Knows locate adapter.nextSyntheticId ∨
      ¬ adapter.Reaches locate existing.side.opposite
        ((executionPrice.map UInt32.toUInt64).getD existing.price)

instance (adapter : ItchEngineAdapter) (locate : StockLocate) (ref : OrderRefNumber)
    (executedShares : UInt32) (executionPrice : Option UInt32) :
    Decidable (adapter.HarmlessExecution locate ref executedShares executionPrice) :=
  inferInstanceAs (Decidable (∀ existing ∈ adapter.recordFor locate ref, _))

/-- A replacement is refused: the order the reference is mapped to does not rest, or the new
shares or price are zero, or the new price crosses. -/
def HarmlessReplacement (adapter : ItchEngineAdapter) (message : OrderReplaceMessage) : Prop :=
  ¬ adapter.Rests message.stockLocate message.originalOrderReferenceNumber ∨
    message.shares = 0 ∨ message.price = 0 ∨
    ∃ existing ∈ adapter.recordFor message.stockLocate message.originalOrderReferenceNumber,
      adapter.Reaches message.stockLocate existing.side message.price.toUInt64

instance (adapter : ItchEngineAdapter) (message : OrderReplaceMessage) :
    Decidable (adapter.HarmlessReplacement message) :=
  inferInstanceAs (Decidable (_ ∨ _ ∨ _ ∨ ∃ existing ∈ adapter.recordFor _ _, _))

/-- When a message about an order is ignored. -/
def Harmless (adapter : ItchEngineAdapter) : ItchMessage → Prop
  | .orderExecuted message =>
    adapter.HarmlessExecution message.stockLocate message.orderReferenceNumber
      message.executedShares none
  | .orderExecutedWithPrice message =>
    adapter.HarmlessExecution message.base.stockLocate message.base.orderReferenceNumber
      message.base.executedShares (some message.executionPrice)
  | .orderCancel message => ¬ adapter.Rests message.stockLocate message.orderReferenceNumber
  | .orderDelete message => ¬ adapter.Rests message.stockLocate message.orderReferenceNumber
  | .orderReplace message => adapter.HarmlessReplacement message
  | _ => False

instance decidableHarmless (adapter : ItchEngineAdapter) :
    (message : ItchMessage) → Decidable (adapter.Harmless message)
  | .orderExecuted message =>
    inferInstanceAs (Decidable (adapter.HarmlessExecution message.stockLocate
      message.orderReferenceNumber message.executedShares none))
  | .orderExecutedWithPrice message =>
    inferInstanceAs (Decidable (adapter.HarmlessExecution message.base.stockLocate
      message.base.orderReferenceNumber message.base.executedShares
      (some message.executionPrice)))
  | .orderCancel message =>
    inferInstanceAs
      (Decidable (¬ adapter.Rests message.stockLocate message.orderReferenceNumber))
  | .orderDelete message =>
    inferInstanceAs
      (Decidable (¬ adapter.Rests message.stockLocate message.orderReferenceNumber))
  | .orderReplace message => inferInstanceAs (Decidable (adapter.HarmlessReplacement message))
  | .systemEvent _ => .isFalse id
  | .stockDirectory _ => .isFalse id
  | .addOrder _ => .isFalse id
  | .addOrderMpid _ => .isFalse id
  | .timestampSeconds _ => .isFalse id

/-- An execution leaves quotes. -/
theorem quotes_applyExecuted {adapter : ItchEngineAdapter} (quotes : adapter.registry.Quotes)
    (locate : StockLocate) (ref : OrderRefNumber) (executedShares : UInt32)
    (executionPrice : Option UInt32) :
    (adapter.applyExecuted locate ref executedShares executionPrice).2.registry.Quotes := by
  unfold applyExecuted
  cases adapter.symbols[locate]? with
  | none => exact quotes
  | some symbol =>
    cases found : adapter.registry.findOrder symbol (adapter.engineIdFor ref) with
    | none => simpa only [found] using quotes
    | some existing =>
      simp only [found]
      exact quotes.matchOrder symbol _

/-- Only quotes rest in the engine, whatever was applied. -/
theorem quotes_apply {adapter : ItchEngineAdapter} (quotes : adapter.registry.Quotes)
    (message : ItchMessage) : (adapter.apply message).2.registry.Quotes := by
  cases message with
  | systemEvent message =>
    simp only [apply, handleSystemEvent]
    split
    · exact InstrumentRegistry.quotes_reset adapter.registry
    · exact quotes
  | stockDirectory message => exact quotes.createInstrument _
  | addOrder message =>
    simp only [apply, handleAddOrder]
    cases adapter.symbols[message.stockLocate]? with
    | none => exact quotes
    | some symbol => exact quotes.submitOrder symbol _
  | addOrderMpid message =>
    simp only [apply, handleAddOrderMpid, handleAddOrder]
    cases adapter.symbols[message.base.stockLocate]? with
    | none => exact quotes
    | some symbol => exact quotes.submitOrder symbol _
  | orderExecuted message => exact quotes_applyExecuted quotes _ _ _ _
  | orderExecutedWithPrice message => exact quotes_applyExecuted quotes _ _ _ _
  | orderCancel message =>
    simp only [apply, handleOrderCancel]
    cases adapter.symbols[message.stockLocate]? with
    | none => exact quotes
    | some symbol =>
      simp only
      split
      · exact quotes
      · split
        · exact quotes.cancelOrder symbol _
        · exact quotes.cancelReplace symbol _ _
  | orderDelete message =>
    simp only [apply, handleOrderDelete]
    cases adapter.symbols[message.stockLocate]? with
    | none => exact quotes
    | some symbol => exact quotes.cancelOrder symbol _
  | orderReplace message =>
    simp only [apply, handleOrderReplace]
    cases adapter.symbols[message.stockLocate]? with
    | none => exact quotes
    | some symbol =>
      simp only
      split
      · exact quotes
      · split
        · exact quotes.cancelReplace symbol _ _
        · exact quotes.cancelReplace symbol _ _
  | timestampSeconds message => exact quotes

section Ledgers

variable {adapter : ItchEngineAdapter} {market : Market}
  (mirrors : adapter.registry.Mirrors market) {locate : StockLocate} {symbol : Symbol}
  (registered : adapter.symbols[locate]? = some symbol)

include mirrors registered

/-- What an unlisted symbol resolves to. -/
theorem instrumentFor_unlisted (unlisted : market.listings symbol = none) :
    adapter.instrumentFor locate = none := by
  rw [instrumentFor, registered]
  show adapter.registry.find symbol = none
  cases found : adapter.registry.find symbol with
  | none => rfl
  | some instrument =>
    obtain ⟨listing, listed, _⟩ := mirrors.listing found
    rw [unlisted] at listed
    nomatch listed

/-- The instrument of a listed symbol keeps its ledger. -/
theorem instrumentFor_listed {listing : Listing}
    (listed : market.listings symbol = some listing) :
    ∃ instrument, adapter.instrumentFor locate = some instrument ∧ instrument.Mirrors listing := by
  rw [instrumentFor, registered]
  exact mirrors.instrument listed

/-- A reference rests when the ledger holds the id it is mapped to. -/
theorem rests_iff {listing : Listing} (listed : market.listings symbol = some listing)
    (ref : OrderRefNumber) :
    adapter.Rests locate ref ↔ listing.ledger.holds (adapter.engineIdFor ref) = true := by
  obtain ⟨instrument, found, kept⟩ := instrumentFor_listed mirrors registered listed
  have represents := kept.manager.tracks.represents
  have sound := kept.manager.consistent.sound
  rw [Rests, found, Ledger.holds_iff, ← isResting_iff represents sound]
  simp

/-- A limit reaches an order when the ledger holds one that it crosses. -/
theorem reaches_iff {listing : Listing} (listed : market.listings symbol = some listing)
    (order : Order) :
    adapter.Reaches locate order.side order.price ↔
      Ledger.wouldCross listing.ledger.book order = true := by
  obtain ⟨instrument, found, kept⟩ := instrumentFor_listed mirrors registered listed
  have represents := kept.manager.tracks.represents
  have sound := kept.manager.consistent.sound
  rw [Reaches, found, Ledger.wouldCross, List.any_eq_true,
    ← resting_eq represents sound order.side.opposite]
  simp

/-- An id is known when the ledger accepted it. -/
theorem knows_iff {listing : Listing} (listed : market.listings symbol = some listing)
    (id : OrderId) : adapter.Knows locate id ↔ id ∈ listing.ledger.known := by
  obtain ⟨instrument, found, kept⟩ := instrumentFor_listed mirrors registered listed
  rw [Knows, found, ← kept.manager.known]
  simp

end Ledgers

/-- A call that leaves the book of its symbol changes no snapshot. -/
theorem snapshot_unchanged {registry moved : InstrumentRegistry} {market : Market}
    (mirrors : registry.Mirrors market) {symbol : Symbol} {request : ManagerCall}
    (called : moved.Mirrors (market.call symbol request).2)
    (same : ∀ listing, market.listings symbol = some listing →
      (callLedger listing.ledger request).2.book = listing.ledger.book)
    (name : Symbol) (depth : Nat) :
    (moved.snapshot name depth).1.bids = (registry.snapshot name depth).1.bids ∧
      (moved.snapshot name depth).1.asks = (registry.snapshot name depth).1.asks := by
  have before := market.levels_snapshot name depth
  have after := (market.call symbol request).2.levels_snapshot name depth
  rw [Market.bookOf_call same name] at after
  rw [(called.snapshot name depth).1, (mirrors.snapshot name depth).1]
  exact ⟨after.1.trans before.1.symm, after.2.trans before.2.symm⟩

/-- A message that does nothing is ignored. -/
theorem ignores_of_same {adapter : ItchEngineAdapter} {message : ItchMessage}
    (nothing : adapter.apply message = (false, adapter)) : adapter.Ignores message := by
  rw [Ignores, nothing]
  exact ⟨rfl, fun _ _ => ⟨rfl, rfl⟩⟩

/-- A locate without an instrument has no order that rests. -/
theorem not_rests_of_none {adapter : ItchEngineAdapter} {locate : StockLocate}
    (absent : adapter.instrumentFor locate = none) (ref : OrderRefNumber) :
    ¬ adapter.Rests locate ref := by
  rw [Rests, absent]
  simp

section Calls

variable {adapter : ItchEngineAdapter} {market : Market}
  (mirrors : adapter.registry.Mirrors market) {symbol : Symbol} {request : ManagerCall}
  {message : ItchMessage}

include mirrors

/-- A message that becomes one call is ignored exactly when the call is refused. -/
theorem ignores_iff_refused
    (answer : (adapter.apply message).1 = (market.call symbol request).1.accept.accepted)
    (called : (adapter.apply message).2.registry.Mirrors (market.call symbol request).2) :
    adapter.Ignores message ↔ (market.call symbol request).1.accept.accepted = false := by
  rw [Ignores, answer]
  constructor
  · exact fun ignored => ignored.1
  · intro refused
    refine ⟨refused, snapshot_unchanged mirrors called ?_⟩
    intro listing listed
    rw [(Market.call_listed listed request).1] at refused
    rw [Ledger.callLedger_refused refused]

end Calls

/-- A locate that is not registered has no instrument. -/
theorem instrumentFor_none {adapter : ItchEngineAdapter} {locate : StockLocate}
    (unregistered : adapter.symbols[locate]? = none) : adapter.instrumentFor locate = none := by
  rw [instrumentFor, unregistered]
  rfl

/-- A call for a symbol that is not listed is refused. -/
theorem refused_unlisted {market : Market} {symbol : Symbol}
    (unlisted : market.listings symbol = none) (request : ManagerCall) :
    (market.call symbol request).1.accept.accepted = false := by
  rw [Market.call, unlisted]
  rfl

/-- A delete is ignored exactly when the order its reference is mapped to does not rest. -/
theorem ignores_delete {adapter : ItchEngineAdapter} (quotes : adapter.registry.Quotes)
    (message : OrderDeleteMessage) :
    adapter.Ignores (.orderDelete message) ↔
      ¬ adapter.Rests message.stockLocate message.orderReferenceNumber := by
  obtain ⟨market, mirrors, _⟩ := quotes
  let id := adapter.engineIdFor message.orderReferenceNumber
  cases registered : adapter.symbols[message.stockLocate]? with
  | none =>
    have nothing : adapter.apply (.orderDelete message) = (false, adapter) := by
      simp only [apply, handleOrderDelete, registered]
    exact iff_of_true (ignores_of_same nothing)
      (not_rests_of_none (instrumentFor_none registered) _)
  | some symbol =>
    have engine := mirrors.cancelOrder symbol id
    have applied : adapter.apply (.orderDelete message) =
        ((adapter.registry.cancelOrder symbol id).1.accepted,
          { adapter with registry := (adapter.registry.cancelOrder symbol id).2 }) := by
      simp only [apply, handleOrderDelete, registered, id]
    rw [ignores_iff_refused mirrors (by rw [applied, engine.1]) (by rw [applied]; exact engine.2)]
    cases present : market.listings symbol with
    | none =>
      exact iff_of_true (refused_unlisted present _)
        (not_rests_of_none (instrumentFor_unlisted mirrors registered present) _)
    | some listing =>
      rw [(Market.call_listed present _).1, rests_iff mirrors registered present]
      exact Ledger.cancelOrder_refused_iff id

/-- A record that the engine finds is a record of the ledger of its symbol. -/
theorem listing_of_record {adapter : ItchEngineAdapter} {market : Market}
    (mirrors : adapter.registry.Mirrors market) {symbol : Symbol} {id : OrderId} {record : Order}
    (found : adapter.registry.findOrder symbol id = some record) :
    ∃ listing, market.listings symbol = some listing ∧
      listing.ledger.records[id]? = some record := by
  rw [mirrors.findOrder] at found
  exact Option.bind_eq_some_iff.mp found

/-- An order without a record does not rest. -/
theorem not_rests_of_unrecorded {adapter : ItchEngineAdapter} {market : Market}
    (mirrors : adapter.registry.Mirrors market) {locate : StockLocate} {symbol : Symbol}
    (registered : adapter.symbols[locate]? = some symbol) {ref : OrderRefNumber}
    (absent : adapter.registry.findOrder symbol (adapter.engineIdFor ref) = none) :
    ¬ adapter.Rests locate ref := by
  cases present : market.listings symbol with
  | none => exact not_rests_of_none (instrumentFor_unlisted mirrors registered present) ref
  | some listing =>
    rw [rests_iff mirrors registered present]
    intro held
    obtain ⟨record, recorded⟩ := (mirrors.consistent present).record_of_holds held
    rw [mirrors.findOrder, Market.findOrder, present] at absent
    have none_ : listing.ledger.records[adapter.engineIdFor ref]? = none := absent
    rw [recorded] at none_
    nomatch none_

/-- A partial cancel is ignored exactly when the order its reference is mapped to does not
rest. -/
theorem ignores_cancel {adapter : ItchEngineAdapter} (quotes : adapter.registry.Quotes)
    (message : OrderCancelMessage) :
    adapter.Ignores (.orderCancel message) ↔
      ¬ adapter.Rests message.stockLocate message.orderReferenceNumber := by
  obtain ⟨market, mirrors, quoted⟩ := quotes
  let id := adapter.engineIdFor message.orderReferenceNumber
  cases registered : adapter.symbols[message.stockLocate]? with
  | none =>
    have nothing : adapter.apply (.orderCancel message) = (false, adapter) := by
      simp only [apply, handleOrderCancel, registered]
    exact iff_of_true (ignores_of_same nothing)
      (not_rests_of_none (instrumentFor_none registered) _)
  | some symbol =>
    cases found : adapter.registry.findOrder symbol id with
    | none =>
      have nothing : adapter.apply (.orderCancel message) = (false, adapter) := by
        simp only [apply, handleOrderCancel, registered, found, id] at *
      exact iff_of_true (ignores_of_same nothing)
        (not_rests_of_unrecorded mirrors registered found)
    | some record =>
      obtain ⟨listing, listed, recorded⟩ := listing_of_record mirrors found
      rw [rests_iff mirrors registered listed]
      let left := record.quantity - min message.cancelledShares.toUInt64 record.quantity
      by_cases all : left = 0
      · have engine := mirrors.cancelOrder symbol id
        have applied : adapter.apply (.orderCancel message) =
            ((adapter.registry.cancelOrder symbol id).1.accepted,
              { adapter with registry := (adapter.registry.cancelOrder symbol id).2 }) := by
          simp only [apply, handleOrderCancel, registered]
          simp only [id] at found
          rw [found]
          exact if_pos all
        rw [ignores_iff_refused mirrors (by rw [applied, engine.1])
          (by rw [applied]; exact engine.2), (Market.call_listed listed _).1]
        exact Ledger.cancelOrder_refused_iff id
      · let reduced : Order := { record with id := id, quantity := left }
        have engine := mirrors.cancelReplace symbol id reduced
        have applied : adapter.apply (.orderCancel message) =
            ((adapter.registry.cancelReplace symbol id reduced).1.accepted,
              { adapter with
                registry := (adapter.registry.cancelReplace symbol id reduced).2 }) := by
          simp only [apply, handleOrderCancel, registered]
          simp only [id] at found
          rw [found]
          exact if_neg all
        rw [ignores_iff_refused mirrors (by rw [applied, engine.1])
          (by rw [applied]; exact engine.2), (Market.call_listed listed _).1]
        exact (mirrors.consistent listed).reduce_refused_iff (quoted symbol listing listed)
          recorded all

/-- The widened word of a message is zero exactly when the word is. -/
theorem toUInt64_eq_zero_iff (word : UInt32) : word.toUInt64 = 0 ↔ word = 0 := by
  rw [← UInt64.toNat_inj, ← UInt32.toNat_inj, UInt32.toNat_toUInt64]
  rfl

/-- A replacement is ignored exactly when it is harmless. -/
theorem ignores_replace {adapter : ItchEngineAdapter} (quotes : adapter.registry.Quotes)
    (message : OrderReplaceMessage) :
    adapter.Ignores (.orderReplace message) ↔ adapter.HarmlessReplacement message := by
  obtain ⟨market, mirrors, quoted⟩ := quotes
  cases registered : adapter.symbols[message.stockLocate]? with
  | none =>
    have nothing : adapter.apply (.orderReplace message) = (false, adapter) := by
      simp only [apply, handleOrderReplace, registered]
    exact iff_of_true (ignores_of_same nothing)
      (.inl (not_rests_of_none (instrumentFor_none registered) _))
  | some symbol =>
    cases found : adapter.registry.findOrder symbol
        (adapter.engineIdFor message.originalOrderReferenceNumber) with
    | none =>
      have nothing : adapter.apply (.orderReplace message) = (false, adapter) := by
        simp only [apply, handleOrderReplace, registered, found]
      exact iff_of_true (ignores_of_same nothing)
        (.inl (not_rests_of_unrecorded mirrors registered found))
    | some record =>
      let id := adapter.engineIdFor message.originalOrderReferenceNumber
      let replacement : Order :=
        { record with
          id := id
          price := message.price.toUInt64
          quantity := message.shares.toUInt64 }
      obtain ⟨listing, listed, recorded⟩ := listing_of_record mirrors found
      have engine := mirrors.cancelReplace symbol id replacement
      have answer : (adapter.apply (.orderReplace message)).1 =
          (adapter.registry.cancelReplace symbol id replacement).1.accepted := by
        simp only [apply, handleOrderReplace, registered, found]
        split
        · rename_i accepted
          exact accepted.symm
        · rename_i refused
          exact (Bool.eq_false_iff.mpr refused).symm
      have moved : (adapter.apply (.orderReplace message)).2.registry =
          (adapter.registry.cancelReplace symbol id replacement).2 := by
        simp only [apply, handleOrderReplace, registered, found]
        split <;> rfl
      have harmless : adapter.HarmlessReplacement message ↔
          ¬ listing.ledger.holds id = true ∨ replacement.quantity = 0 ∨ replacement.price = 0 ∨
            Ledger.wouldCross listing.ledger.book replacement = true := by
        have same : adapter.recordFor message.stockLocate message.originalOrderReferenceNumber =
            some record := by
          rw [recordFor, registered]
          exact found
        rw [HarmlessReplacement, rests_iff mirrors registered listed, same,
          ← reaches_iff mirrors registered listed replacement, toUInt64_eq_zero_iff,
          toUInt64_eq_zero_iff]
        simp only [Option.mem_def, Option.some.injEq, exists_eq_left']
        exact Iff.rfl
      rw [harmless, ignores_iff_refused mirrors (by rw [answer, engine.1])
        (by rw [moved]; exact engine.2), (Market.call_listed listed _).1]
      exact (mirrors.consistent listed).cancelReplace_refused_iff (quoted symbol listing listed)
        recorded replacement rfl rfl

/-- The smaller of two words is zero exactly when one of them is. -/
theorem min_eq_zero_iff (left right : UInt64) : min left right = 0 ↔ left = 0 ∨ right = 0 := by
  rw [UInt64.min_def]
  split
  · rename_i less
    refine ⟨.inl, ?_⟩
    rintro (zero | zero)
    · exact zero
    · rw [zero] at less
      exact UInt64.le_zero_iff.mp less
  · rename_i more
    refine ⟨.inr, ?_⟩
    rintro (zero | zero)
    · rw [zero] at more
      exact absurd (UInt64.zero_le) more
    · exact zero

/-- An execution is ignored exactly when it is harmless. -/
theorem ignores_execution {adapter : ItchEngineAdapter} (quotes : adapter.registry.Quotes)
    {message : ItchMessage} {locate : StockLocate} {ref : OrderRefNumber}
    {executedShares : UInt32} {executionPrice : Option UInt32}
    (applied : adapter.apply message =
      adapter.applyExecuted locate ref executedShares executionPrice) :
    adapter.Ignores message ↔
      adapter.HarmlessExecution locate ref executedShares executionPrice := by
  obtain ⟨market, mirrors, quoted⟩ := quotes
  cases registered : adapter.symbols[locate]? with
  | none =>
    have nothing : adapter.apply message = (false, adapter) := by
      simp only [applied, applyExecuted, registered]
    refine iff_of_true (ignores_of_same nothing) ?_
    rw [HarmlessExecution, recordFor, registered]
    simp
  | some symbol =>
    cases found : adapter.registry.findOrder symbol (adapter.engineIdFor ref) with
    | none =>
      have nothing : adapter.apply message = (false, adapter) := by
        simp only [applied, applyExecuted, registered, found]
      refine iff_of_true (ignores_of_same nothing) ?_
      rw [HarmlessExecution, recordFor, registered]
      simp [found]
    | some record =>
      let taker := syntheticOrder adapter.nextSyntheticId record executedShares executionPrice
      obtain ⟨listing, listed, recorded⟩ := listing_of_record mirrors found
      have engine := mirrors.matchOrder symbol taker
      have sound := (mirrors.consistent listed).sound
      have trades : (adapter.registry.matchOrder symbol taker).1 =
          (listing.ledger.matchOrder taker).1.trades := by
        rw [engine.1, (Market.call_listed listed _).1]
        rfl
      have answer : (adapter.apply message).1 =
          !(listing.ledger.matchOrder taker).1.trades.isEmpty := by
        simp only [applied, applyExecuted, registered, found]
        rw [← trades]
      have moved : (adapter.apply message).2.registry =
          (adapter.registry.matchOrder symbol taker).2 := by
        simp only [applied, applyExecuted, registered, found]
        rfl
      have ignored : adapter.Ignores message ↔
          (listing.ledger.matchOrder taker).1.trades = [] := by
        rw [Ignores, answer, Bool.not_eq_false', List.isEmpty_iff]
        refine ⟨fun both => both.1, fun untraded => ⟨untraded, ?_⟩⟩
        apply snapshot_unchanged mirrors (by rw [moved]; exact engine.2)
        intro other present
        rw [listed, Option.some.injEq] at present
        subst present
        exact Ledger.matchOrder_untraded rfl rfl sound rfl untraded
      have harmless : adapter.HarmlessExecution locate ref executedShares executionPrice ↔
          taker.quantity = 0 ∨ taker.price = 0 ∨ taker.id ∈ listing.ledger.known ∨
            Ledger.wouldCross listing.ledger.book taker = false := by
        have same : adapter.recordFor locate ref = some record := by
          rw [recordFor, registered]
          exact found
        have price : taker.price = (executionPrice.map UInt32.toUInt64).getD record.price := by
          cases executionPrice <;> rfl
        have quantity : taker.quantity = 0 ↔ executedShares = 0 ∨ record.quantity = 0 := by
          rw [← toUInt64_eq_zero_iff]
          exact min_eq_zero_iff _ _
        rw [HarmlessExecution, same, ← Bool.not_eq_true,
          ← reaches_iff mirrors registered listed taker, knows_iff mirrors registered listed,
          quantity, price, or_assoc]
        simp only [Option.mem_def, Option.some.injEq, forall_eq']
        exact Iff.rfl
      rw [ignored, harmless]
      exact Ledger.matchOrder_untraded_iff rfl rfl sound rfl

/-- A message about an order is ignored exactly when it is harmless. -/
theorem ignores_iff {adapter : ItchEngineAdapter} (quotes : adapter.registry.Quotes)
    {message : ItchMessage} (about : message.about.isSome) :
    adapter.Ignores message ↔ adapter.Harmless message := by
  cases message with
  | orderExecuted message => exact ignores_execution quotes rfl
  | orderExecutedWithPrice message => exact ignores_execution quotes rfl
  | orderCancel message => exact ignores_cancel quotes message
  | orderDelete message => exact ignores_delete quotes message
  | orderReplace message => exact ignores_replace quotes message
  | _ => nomatch about

end ItchEngineAdapter

namespace Session

/-- Whatever a session applied, only quotes rest. -/
theorem quotes_after (allocator : SlabAllocator) (backend : MatcherBackend)
    (messages : List ItchMessage) : (after allocator backend messages).adapter.registry.Quotes := by
  have start : (init allocator backend).adapter.registry.Quotes :=
    InstrumentRegistry.quotes_init allocator backend
  apply run_invariant (fun session => session.adapter.registry.Quotes) _ start
    (admissible_true step (init allocator backend) messages)
  intro session message quotes _
  exact ItchEngineAdapter.quotes_apply quotes message

/-- What is the same of every message to an engine in which only quotes rest is the same after any
session and along it. -/
theorem quoted_congr {left right : ItchEngineAdapter → ItchMessage → Prop}
    (same : ∀ {adapter : ItchEngineAdapter}, adapter.registry.Quotes →
      ∀ message, left adapter message ↔ right adapter message)
    (allocator : SlabAllocator) (backend : MatcherBackend) (messages : List ItchMessage) :
    (∀ message, left (after allocator backend messages).adapter message ↔
      right (after allocator backend messages).adapter message) ∧
    (Admissible (fun session message => left session.adapter message) step
        (init allocator backend) messages ↔
      Admissible (fun session message => right session.adapter message) step
        (init allocator backend) messages) := by
  refine ⟨same (quotes_after allocator backend messages), ?_⟩
  have start : (init allocator backend).adapter.registry.Quotes :=
    InstrumentRegistry.quotes_init allocator backend
  apply admissible_congr (fun session => session.adapter.registry.Quotes) _ _ start
    (admissible_true step (init allocator backend) messages)
  · intro session message quotes _
    exact ItchEngineAdapter.quotes_apply quotes message
  · intro session message quotes _
    exact same quotes message

/-- After any session, a message about an order, live or not, is ignored by the engine exactly
when it is harmless. -/
theorem late_message_ignored_iff (allocator : SlabAllocator) (backend : MatcherBackend)
    (messages : List ItchMessage) (message : ItchMessage) (about : message.about.isSome) :
    (after allocator backend messages).adapter.Ignores message ↔
      (after allocator backend messages).adapter.Harmless message :=
  ItchEngineAdapter.ignores_iff (quotes_after allocator backend messages) about

/-- Two bids of locate 1 at one price. -/
def twoBids : List ItchMessage :=
  [listingOf 1 65,
    .addOrder { (default : AddOrderMessage) with
      stockLocate := 1, orderReferenceNumber := 5, buySellIndicator := 0x42, shares := 10,
      price := 100 },
    .addOrder { (default : AddOrderMessage) with
      stockLocate := 1, orderReferenceNumber := 6, buySellIndicator := 0x42, shares := 5,
      price := 100 }]

/-- A delete of an order that was executed in full is ignored. -/
theorem late_message_ignored_iff_executed :
    let messages := twoBids ++ [.orderExecuted { (default : OrderExecutedMessage) with
      stockLocate := 1, orderReferenceNumber := 5, executedShares := 10 }]
    let late := ItchMessage.orderDelete { (default : OrderDeleteMessage) with
      stockLocate := 1, orderReferenceNumber := 5 }
    Admissible WellFormed step (init (.consecutive 2 (by decide)) .optimized) messages ∧
      ¬ (after (.consecutive 2 (by decide)) .optimized messages).Live 1 5 ∧
      (after (.consecutive 2 (by decide)) .optimized messages).adapter.Ignores late := by
  intro messages late
  have harmless :
      (after (.consecutive 2 (by decide)) .optimized messages).adapter.Harmless late := by
    decide
  refine ⟨by decide, by decide, ?_⟩
  exact (late_message_ignored_iff (.consecutive 2 (by decide)) .optimized messages late
    (by decide)).mpr harmless

/-- After the first of two bids was deleted, an execution of it takes shares off the second; after
it was replaced, a delete of the old reference removes its successor. -/
theorem late_message_touches_other_order :
    let allocator := SlabAllocator.consecutive 2 (by decide)
    let deleted := twoBids ++ [.orderDelete { (default : OrderDeleteMessage) with
      stockLocate := 1, orderReferenceNumber := 5 }]
    let execution := ItchMessage.orderExecuted { (default : OrderExecutedMessage) with
      stockLocate := 1, orderReferenceNumber := 5, executedShares := 4 }
    let replaced := twoBids ++ [.orderReplace { (default : OrderReplaceMessage) with
      stockLocate := 1, originalOrderReferenceNumber := 5, newOrderReferenceNumber := 7,
      shares := 3, price := 99 }]
    let deletion := ItchMessage.orderDelete { (default : OrderDeleteMessage) with
      stockLocate := 1, orderReferenceNumber := 5 }
    (Admissible WellFormed step (init allocator .reference) deleted ∧
      ¬ (after allocator .reference deleted).Live 1 5 ∧
      ((after allocator .reference deleted).adapter.snapshot 1 5).1.bids = [⟨100, 5⟩] ∧
      (((after allocator .reference deleted).step execution).2.adapter.snapshot 1 5).1.bids =
        [⟨100, 1⟩] ∧
      ¬ (after allocator .reference deleted).adapter.Ignores execution) ∧
    (Admissible WellFormed step (init allocator .reference) replaced ∧
      ¬ (after allocator .reference replaced).Live 1 5 ∧
      ((after allocator .reference replaced).adapter.snapshot 1 5).1.bids = [⟨100, 5⟩, ⟨99, 3⟩] ∧
      (((after allocator .reference replaced).step deletion).2.adapter.snapshot 1 5).1.bids =
        [⟨100, 5⟩] ∧
      ¬ (after allocator .reference replaced).adapter.Ignores deletion) := by
  intro allocator deleted execution replaced deletion
  have executes : ((after allocator .reference deleted).adapter.apply execution).1 = true := by
    decide
  have deletes : ((after allocator .reference replaced).adapter.apply deletion).1 = true := by
    decide
  refine ⟨⟨by decide, by decide, by decide, by decide, ?_⟩,
    ⟨by decide, by decide, by decide, by decide, ?_⟩⟩
  · intro ignored
    rw [ItchEngineAdapter.Ignores, executes] at ignored
    exact Bool.noConfusion ignored.1
  · intro ignored
    rw [ItchEngineAdapter.Ignores, deletes] at ignored
    exact Bool.noConfusion ignored.1

end Session

end Titan
