import TitanEngine.Exchange.Replacing
import TitanEngine.Replay.AdapterCalls
import TitanEngine.Replay.LateMessages

/-!
# Queue priority of replaced and reduced orders

A replacement of the feed takes an order out and enters a new one behind everything at its price,
and a partial cancel leaves every order where it stands. The engine serves both with one amendment,
which moves an order only when its price changes or its quantity grows. So every partial cancel
keeps its place, and a replacement goes to the back unless it keeps the price without growing.
-/

namespace Titan

open Library Std

/-- An order of a queue after a partial cancel of an id: the order of the id loses the shares, and
is gone when nothing is left. -/
def Order.afterCancel (id : OrderId) (shares : Quantity) (order : Order) : Option Order :=
  if order.id = id then
    let left := order.quantity - min shares order.quantity
    if left = 0 then none else some { order with quantity := left }
  else some order

namespace Ledger

variable {ledger : Ledger} {target newOrder : Order}

/-- The amended order is last in its level exactly when it was moved there or the order it
amends was last. -/
theorem Consistent.amend_last (consistent : ledger.Consistent)
    (inside : target ∈ ledger.book.side newOrder.side) (own : target.id = newOrder.id)
    (clear : wouldCross ledger.book newOrder = false) :
    (∃ renewed ∈ (ledger.amend newOrder).book.side newOrder.side,
      renewed.id = newOrder.id ∧ renewed.price = newOrder.price ∧
        renewed.quantity = newOrder.quantity ∧
        (group (fun order : Order => order.price)
          ((ledger.amend newOrder).book.side newOrder.side) newOrder.price).getLast? =
            some renewed) ↔
      (newOrder.price = target.price ∧ newOrder.quantity ≤ target.quantity →
        (group (fun order : Order => order.price) (ledger.book.side newOrder.side)
          target.price).getLast? = some target) := by
  have queues := consistent.group_amend inside own clear
  by_cases keeps : newOrder.price = target.price ∧ newOrder.quantity ≤ target.quantity
  · rw [if_pos keeps] at queues
    have last := congrArg List.getLast? (queues.2 newOrder.side newOrder.price)
    rw [List.getLast?_map, List.getLast?_map, keeps.1] at last
    rw [keeps.1]
    constructor
    · rintro ⟨renewed, _, sameId, _, _, final⟩ _
      rw [final, Option.map_some, eq_comm, Option.map_eq_some_iff] at last
      obtain ⟨other, before, faces⟩ := last
      have otherId : other.id = newOrder.id := by
        by_contra apart
        rw [if_neg apart] at faces
        have ids := congrArg Order.id faces
        exact apart (ids.trans sameId)
      have otherInside := (mem_group.mp (List.mem_of_getLast? before)).1
      rw [before, consistent.sound.eq_of_id_eq otherInside inside (otherId.trans own.symm)]
    · intro before
      rw [before ⟨rfl, keeps.2⟩, Option.map_some, if_pos own, Option.map_eq_some_iff] at last
      obtain ⟨renewed, final, faces⟩ := last
      have sameId := congrArg Order.id faces
      have price := congrArg Order.price faces
      have quantity := congrArg Order.quantity faces
      exact ⟨renewed, (mem_group.mp (List.mem_of_getLast? final)).1, sameId,
        price.trans keeps.1, quantity, final⟩
  · rw [if_neg keeps] at queues
    refine iff_of_true ?_ (fun both => absurd both keeps)
    have final : (group (fun order : Order => order.price)
        ((ledger.amend newOrder).book.side newOrder.side) newOrder.price).getLast? =
          some newOrder := by
      rw [queues, if_pos ⟨rfl, rfl⟩, List.getLast?_concat]
    exact ⟨newOrder, (mem_group.mp (List.mem_of_getLast? final)).1, rfl, rfl, rfl, final⟩

/-- The queues once an order was cancelled in full. -/
theorem Consistent.group_cancel (consistent : ledger.Consistent) {own : Side}
    (inside : target ∈ ledger.book.side own) {shares : Quantity}
    (all : target.quantity - min shares target.quantity = 0) (side : Side) (price : Price) :
    group (fun order : Order => order.price) ((ledger.book.cancel target.id).side side) price =
      (group (fun order : Order => order.price) (ledger.book.side side) price).filterMap
        (Order.afterCancel target.id shares) := by
  rw [Book.side_cancel, group_filter, ← List.filterMap_eq_filter]
  apply List.filterMap_congr
  intro order member
  unfold Order.afterCancel
  by_cases same : order.id = target.id
  · obtain rfl := consistent.sound.eq_of_id_eq (mem_group.mp member).1 inside same
    simp [Option.guard, all]
  · simp [Option.guard, same]

/-- The queues once an order was cancelled in part. -/
theorem Consistent.group_reduce (consistent : ledger.Consistent) {own : Side}
    (inside : target ∈ ledger.book.side own) {record : Order} (agrees : record.Agrees target)
    {shares : Quantity}
    (positive : target.quantity - min shares target.quantity ≠ 0)
    (reduced : newOrder = { record with
      id := target.id, quantity := target.quantity - min shares target.quantity, status := .new })
    (clear : wouldCross ledger.book newOrder = false) (side : Side) (price : Price) :
    (group (fun order : Order => order.price) ((ledger.amend newOrder).book.side side)
        price).map Order.face =
      ((group (fun order : Order => order.price) (ledger.book.side side) price).filterMap
        (Order.afterCancel target.id shares)).map Order.face := by
  have sameId : newOrder.id = target.id := by rw [reduced]
  have samePrice : newOrder.price = target.price := by rw [reduced]; exact agrees.price
  have less : newOrder.quantity ≤ target.quantity := by
    rw [reduced]
    exact UInt64.sub_le Std.min_le_right
  have queues := consistent.group_amend inside sameId.symm clear
  rw [if_pos ⟨samePrice, less⟩] at queues
  rw [queues.2, List.map_filterMap, ← List.filterMap_eq_map]
  apply List.filterMap_congr
  intro order member
  unfold Order.afterCancel
  by_cases same : order.id = target.id
  · obtain rfl := consistent.sound.eq_of_id_eq (mem_group.mp member).1 inside same
    have faces : newOrder.face =
        ({ order with quantity := order.quantity - min shares order.quantity } : Order).face := by
      rw [reduced]
      have whole := congrArg (fun other : Order => Order.face
        { other with
          id := order.id
          quantity := order.quantity - min shares order.quantity }) agrees
      exact whole
    simp [sameId, positive, faces]
  · simp [sameId, same]

end Ledger

namespace ItchEngineAdapter

/-- The engine's queue of a level, the order that trades first in front. -/
def queue (adapter : ItchEngineAdapter) (locate : StockLocate) (side : Side) (price : Price) :
    List Order :=
  match adapter.instrumentFor locate with
  | none => []
  | some instrument => queueAt instrument.manager.matcher side price

/-- The order a reference is mapped to, while it rests. -/
def restingOrder (adapter : ItchEngineAdapter) (locate : StockLocate) (ref : OrderRefNumber) :
    Option Order :=
  (adapter.instrumentFor locate).bind (fun instrument =>
    (resting instrument.manager.matcher .buy ++ resting instrument.manager.matcher .sell).find?
      (fun order => order.id == adapter.engineIdFor ref))

/-- A replacement rests under its new reference, with its new price and shares and on the side of
the old order, behind every other order of its level. -/
def ReplacedLast (adapter : ItchEngineAdapter) (message : OrderReplaceMessage) : Prop :=
  let after := (adapter.apply (.orderReplace message)).2
  ∃ old ∈ adapter.restingOrder message.stockLocate message.originalOrderReferenceNumber,
    ∃ renewed ∈ after.restingOrder message.stockLocate message.newOrderReferenceNumber,
      renewed.side = old.side ∧ renewed.price = message.price.toUInt64 ∧
        renewed.quantity = message.shares.toUInt64 ∧
        (after.queue message.stockLocate renewed.side renewed.price).getLast? = some renewed

instance (adapter : ItchEngineAdapter) (message : OrderReplaceMessage) :
    Decidable (adapter.ReplacedLast message) :=
  inferInstanceAs (Decidable (∃ old ∈ adapter.restingOrder _ _, ∃ renewed ∈
    (adapter.apply (.orderReplace message)).2.restingOrder _ _, _))

/-- A partial cancel reduces or removes its order and leaves every other order of every level of
the locate where it stands. -/
def CancelledInPlace (adapter : ItchEngineAdapter) (message : OrderCancelMessage) : Prop :=
  let after := (adapter.apply (.orderCancel message)).2
  (adapter.restingOrder message.stockLocate message.orderReferenceNumber).isSome ∧
    ∀ side price, (after.queue message.stockLocate side price).map Order.face =
      ((adapter.queue message.stockLocate side price).filterMap
        (Order.afterCancel (adapter.engineIdFor message.orderReferenceNumber)
          message.cancelledShares.toUInt64)).map Order.face

/-- An accepted replacement or partial cancel has the queue priority of the feed. -/
def Prioritized (adapter : ItchEngineAdapter) : ItchMessage → Prop
  | .orderReplace message =>
    (adapter.apply (.orderReplace message)).1 = true → adapter.ReplacedLast message
  | .orderCancel message =>
    (adapter.apply (.orderCancel message)).1 = true → adapter.CancelledInPlace message
  | _ => True

/-- A replacement that keeps the price of its order and does not grow it names the last order of
its level. -/
def Requeues (adapter : ItchEngineAdapter) : ItchMessage → Prop
  | .orderReplace message =>
    ∀ old ∈ adapter.restingOrder message.stockLocate message.originalOrderReferenceNumber,
      message.price.toUInt64 = old.price → message.shares ≠ 0 →
        message.shares.toUInt64 ≤ old.quantity →
          (adapter.queue message.stockLocate old.side old.price).getLast? = some old
  | _ => True

section Ledgers

variable {adapter : ItchEngineAdapter} {market : Market}
  (mirrors : adapter.registry.Mirrors market) {locate : StockLocate} {symbol : Symbol}
  (registered : adapter.symbols[locate]? = some symbol) {listing : Listing}
  (listed : market.listings symbol = some listing)

include mirrors registered listed

/-- The queues of the engine are those of the ledger. -/
theorem queue_eq (side : Side) (price : Price) :
    adapter.queue locate side price =
      group (fun order : Order => order.price) (listing.ledger.book.side side) price := by
  obtain ⟨instrument, found, kept⟩ := instrumentFor_listed mirrors registered listed
  simp only [queue, found]
  exact queueAt_eq kept.manager.tracks.represents side price

/-- The order under a reference is the order of the ledger that has its id. -/
theorem mem_restingOrder {ref : OrderRefNumber} {order : Order} :
    order ∈ adapter.restingOrder locate ref ↔
      order ∈ listing.ledger.book.side order.side ∧ order.id = adapter.engineIdFor ref := by
  obtain ⟨instrument, found, kept⟩ := instrumentFor_listed mirrors registered listed
  have sound := kept.manager.consistent.sound
  have shown := resting_eq kept.manager.tracks.represents sound
  rw [restingOrder, found, Option.bind_some, shown, shown]
  constructor
  · intro present
    have own : order.id = adapter.engineIdFor ref := by
      simpa using List.find?_some present
    have member := List.mem_of_find?_eq_some present
    refine ⟨?_, own⟩
    rcases List.mem_append.mp member with inside | inside
    · rwa [sound.sided .buy order inside]
    · rwa [sound.sided .sell order inside]
  · rintro ⟨inside, own⟩
    have member : order ∈ listing.ledger.book.side .buy ++ listing.ledger.book.side .sell := by
      cases side : order.side with
      | buy => exact List.mem_append_left _ (side ▸ inside)
      | sell => exact List.mem_append_right _ (side ▸ inside)
    cases present : (listing.ledger.book.side .buy ++ listing.ledger.book.side .sell).find?
        (fun order => order.id == adapter.engineIdFor ref) with
    | none =>
      have missing := List.find?_eq_none.mp present order member
      exact absurd (beq_iff_eq.mpr own) missing
    | some other =>
      have otherId : other.id = adapter.engineIdFor ref := by simpa using List.find?_some present
      have otherInside := List.mem_append.mp (List.mem_of_find?_eq_some present)
      have same : other = order := by
        rcases otherInside with member | member
        · exact sound.eq_of_id_eq member inside (otherId.trans own.symm)
        · exact sound.eq_of_id_eq member inside (otherId.trans own.symm)
      rw [same, Option.mem_def]

/-- The order that rests under a reference whose id is held. -/
theorem rests_of_holds {ref : OrderRefNumber} {existing : Order}
    (held : listing.ledger.holds (adapter.engineIdFor ref) = true)
    (recorded : listing.ledger.records[adapter.engineIdFor ref]? = some existing) :
    ∃ target ∈ adapter.restingOrder locate ref, target ∈ listing.ledger.book.side target.side ∧
      target.id = adapter.engineIdFor ref ∧ existing.Agrees target := by
  have consistent := mirrors.consistent listed
  obtain ⟨side, target, inside, own⟩ := Ledger.mem_of_holds held
  rw [← consistent.sound.sided side target inside] at inside
  obtain ⟨record, known, agrees⟩ := consistent.covers _ target inside
  rw [own, recorded, Option.some.injEq] at known
  subst known
  exact ⟨target, (mem_restingOrder mirrors registered listed).mpr ⟨inside, own⟩, inside, own,
    agrees⟩

end Ledgers

/-- The record behind an order that rests under a reference. -/
theorem record_of_rests {adapter : ItchEngineAdapter} {market : Market}
    (mirrors : adapter.registry.Mirrors market) {locate : StockLocate} {ref : OrderRefNumber}
    {target : Order} (rests : target ∈ adapter.restingOrder locate ref) :
    ∃ symbol listing existing, adapter.symbols[locate]? = some symbol ∧
      market.listings symbol = some listing ∧
      adapter.registry.findOrder symbol (adapter.engineIdFor ref) = some existing ∧
      existing.Agrees target := by
  cases registered : adapter.symbols[locate]? with
  | none =>
    rw [restingOrder, instrumentFor_none registered] at rests
    nomatch rests
  | some symbol =>
    cases listed : market.listings symbol with
    | none =>
      rw [restingOrder, instrumentFor_unlisted mirrors registered listed] at rests
      nomatch rests
    | some listing =>
      obtain ⟨inside, own⟩ := (mem_restingOrder mirrors registered listed).mp rests
      obtain ⟨existing, recorded, agrees⟩ := (mirrors.consistent listed).covers _ target inside
      refine ⟨symbol, listing, existing, rfl, listed, ?_, agrees⟩
      rw [mirrors.findOrder, Market.findOrder, listed, ← own]
      exact recorded

/-- The engine keeps the amended ledger once it accepted an amendment. -/
theorem listing_amended {registry : InstrumentRegistry} {market : Market}
    (mirrors : registry.Mirrors market) {symbol : Symbol} {listing : Listing}
    (listed : market.listings symbol = some listing) {oldId : OrderId} {newOrder : Order}
    (accepted : (registry.cancelReplace symbol oldId newOrder).1.accepted = true) :
    listing.ledger.holds newOrder.id = true ∧ newOrder.quantity ≠ 0 ∧
      Ledger.wouldCross listing.ledger.book newOrder = false ∧
      ∃ next, (registry.cancelReplace symbol oldId newOrder).2.Mirrors next ∧
        next.listings symbol = some { listing with
          ledger := listing.ledger.amend { newOrder with status := .new } } := by
  obtain ⟨instrument, _, kept⟩ := mirrors.instrument listed
  have engine := mirrors.cancelReplace symbol oldId newOrder
  have routed := Market.call_listed listed (.cancelReplace oldId newOrder)
  have answer : (listing.ledger.cancelReplace oldId newOrder).1.accepted = true := by
    rw [engine.1, routed.1] at accepted
    exact accepted
  rcases kept.manager.cancelReplace_cases oldId newOrder with
    ⟨reason, _, refused⟩ | ⟨_, held, positive, clear, _, amended⟩
  · rw [refused] at answer
    simp [AcceptResult.reject] at answer
  · refine ⟨held, positive, clear, _, engine.2, ?_⟩
    rw [routed.2, Function.update_self]
    simp only [callLedger, amended]

/-- The engine keeps the ledger without an order once it accepted its cancel. -/
theorem listing_cancelled {registry : InstrumentRegistry} {market : Market}
    (mirrors : registry.Mirrors market) {symbol : Symbol} {listing : Listing}
    (listed : market.listings symbol = some listing) {id : OrderId}
    (accepted : (registry.cancelOrder symbol id).1.accepted = true) :
    listing.ledger.holds id = true ∧
      ∃ next after, (registry.cancelOrder symbol id).2.Mirrors next ∧
        next.listings symbol = some after ∧
        after.ledger.book = listing.ledger.book.cancel id := by
  have engine := mirrors.cancelOrder symbol id
  have routed := Market.call_listed listed (.cancelOrder id)
  have held : listing.ledger.holds id = true := by
    by_contra loose
    have refused := (Ledger.cancelOrder_refused_iff id).mpr loose
    rw [engine.1, routed.1] at accepted
    exact Bool.false_ne_true (refused.symm.trans accepted)
  refine ⟨held, _, { listing with ledger := (callLedger listing.ledger (.cancelOrder id)).2 },
    engine.2, ?_, ?_⟩
  · rw [routed.2, Function.update_self]
  · simp only [callLedger, Ledger.cancelOrder, held, ↓reduceIte]

/-- The order a replacement message enters in the place of a record. -/
def replacementFor (adapter : ItchEngineAdapter) (message : OrderReplaceMessage)
    (existing : Order) : Order :=
  { existing with
    id := adapter.engineIdFor message.originalOrderReferenceNumber
    price := message.price.toUInt64
    quantity := message.shares.toUInt64 }

section Replacing

variable {adapter : ItchEngineAdapter} {message : OrderReplaceMessage} {symbol : Symbol}
  {existing : Order} (registered : adapter.symbols[message.stockLocate]? = some symbol)
  (found : adapter.registry.findOrder symbol
    (adapter.engineIdFor message.originalOrderReferenceNumber) = some existing)

include registered found

/-- What a replacement of a recorded order does. -/
theorem apply_replacement :
    let outcome := adapter.registry.cancelReplace symbol
      (adapter.engineIdFor message.originalOrderReferenceNumber)
      (adapter.replacementFor message existing)
    let after := (adapter.apply (.orderReplace message)).2
    (adapter.apply (.orderReplace message)).1 = outcome.1.accepted ∧
      after.registry = outcome.2 ∧ after.symbols = adapter.symbols ∧
      (outcome.1.accepted = true → after.engineIdFor message.newOrderReferenceNumber =
        adapter.engineIdFor message.originalOrderReferenceNumber) := by
  intro outcome after
  have makes : adapter.callFor (.orderReplace message) = some (.cancelReplace symbol
      (adapter.engineIdFor message.originalOrderReferenceNumber)
      (adapter.replacementFor message existing)) := by
    simp only [callFor, replaceCall, registered, found, Option.bind_eq_bind, Option.bind_some,
      replacementFor]
    rfl
  have applied := adapter.apply_call makes
  refine ⟨congrArg Prod.fst applied, congrArg (fun pair => pair.2.registry) applied,
    congrArg (fun pair => pair.2.symbols) applied, fun accepted => ?_⟩
  have ids : after.engineIdForRef = adapter.engineIdForRef.insert message.newOrderReferenceNumber
      (adapter.engineIdFor message.originalOrderReferenceNumber) := by
    have whole := congrArg (fun pair => pair.2.engineIdForRef) applied
    simp only [called, callRegistry, idsAfter, RegistryAnswer.succeeded] at whole
    exact whole.trans (if_pos accepted)
  rw [engineIdFor, ids]
  exact ExtTreeMap.getD_insert_self

/-- An accepted replacement stands last exactly when its price changed, its quantity grew or it
stood last before. -/
theorem replacedLast_iff {market : Market} (mirrors : adapter.registry.Mirrors market)
    (accepted : (adapter.apply (.orderReplace message)).1 = true) {target : Order}
    (agrees : existing.Agrees target) (rests : target ∈
      adapter.restingOrder message.stockLocate message.originalOrderReferenceNumber) :
    adapter.ReplacedLast message ↔
      (message.price.toUInt64 = target.price ∧ message.shares.toUInt64 ≤ target.quantity →
        (adapter.queue message.stockLocate target.side target.price).getLast? = some target) := by
  let newOrder : Order := { adapter.replacementFor message existing with status := .new }
  obtain ⟨answer, moved, symbols, renamed⟩ := apply_replacement registered found
  rw [answer] at accepted
  obtain ⟨listing, listed, _⟩ := listing_of_record mirrors found
  obtain ⟨_, _, clear, next, kept, amended⟩ := listing_amended mirrors listed accepted
  rw [← moved] at kept
  have consistent := mirrors.consistent listed
  obtain ⟨inside, own⟩ := (mem_restingOrder mirrors registered listed).mp rests
  have side : newOrder.side = target.side := agrees.side
  rw [← side] at inside
  have queues := queue_eq mirrors registered listed
  rw [← symbols] at registered
  have queuesAfter := queue_eq kept registered amended
  have restsAfter : ∀ renewed : Order,
      renewed ∈ (adapter.apply (.orderReplace message)).2.restingOrder message.stockLocate
          message.newOrderReferenceNumber ↔
        renewed ∈ (listing.ledger.amend newOrder).book.side renewed.side ∧
          renewed.id = newOrder.id := by
    intro renewed
    rw [mem_restingOrder kept registered amended, renamed accepted]
    rfl
  have last : _ ↔ (newOrder.price = target.price ∧ newOrder.quantity ≤ target.quantity → _) :=
    consistent.amend_last inside own clear
  rw [queues, ← side]
  refine Iff.trans ?_ last
  constructor
  · rintro ⟨old, before, renewed, after, sameSide, price, quantity, final⟩
    obtain rfl : target = old := Option.mem_unique rests before
    obtain ⟨member, sameId⟩ := (restsAfter renewed).mp after
    rw [queuesAfter] at final
    rw [sameSide, ← side] at member final
    rw [price] at final
    exact ⟨renewed, member, sameId, price, quantity, final⟩
  · rintro ⟨renewed, member, sameId, price, quantity, final⟩
    have sameSide := (kept.consistent amended).sound.sided newOrder.side renewed member
    rw [← sameSide] at member
    refine ⟨target, rests, renewed, (restsAfter renewed).mpr ⟨member, sameId⟩,
      sameSide.trans side, price, quantity, ?_⟩
    rw [queuesAfter, sameSide, price]
    exact final

/-- A replacement that keeps the price of an order that rests and does not grow it is accepted. -/
theorem accepted_of_keeps {market : Market} (mirrors : adapter.registry.Mirrors market)
    (quoted : market.Quoted)
    {target : Order} (agrees : existing.Agrees target) (rests : target ∈
      adapter.restingOrder message.stockLocate message.originalOrderReferenceNumber)
    (price : message.price.toUInt64 = target.price) (positive : message.shares ≠ 0) :
    (adapter.apply (.orderReplace message)).1 = true := by
  let newOrder := adapter.replacementFor message existing
  obtain ⟨answer, _⟩ := apply_replacement registered found
  obtain ⟨listing, listed, recorded⟩ := listing_of_record mirrors found
  have consistent := mirrors.consistent listed
  have quotes := quoted symbol listing listed
  obtain ⟨inside, own⟩ := (mem_restingOrder mirrors registered listed).mp rests
  by_contra refused
  rw [answer, (mirrors.cancelReplace symbol _ _).1, (Market.call_listed listed _).1,
    Bool.not_eq_true] at refused
  rcases (consistent.cancelReplace_refused_iff quotes recorded newOrder rfl rfl).mp refused with
    loose | zero | free | crossed
  · exact loose (own ▸ Ledger.holds_of_mem inside)
  · exact positive ((toUInt64_eq_zero_iff _).mp zero)
  · exact (quotes _ target inside).priced (price.symm.trans free)
  · have side : newOrder.side = target.side := agrees.side
    rw [Ledger.wouldCross, side, List.any_eq_true] at crossed
    obtain ⟨other, opposite, reach⟩ := crossed
    have same : newOrder.price = target.price := price
    rw [same, consistent.sound.not_crosses inside opposite] at reach
    exact Bool.noConfusion reach

end Replacing

/-- A replacement has the priority of the feed exactly when it is not an amendment in place of an
order that others stand behind. -/
theorem prioritized_replace_iff {adapter : ItchEngineAdapter} (quotes : adapter.registry.Quotes)
    (message : OrderReplaceMessage) :
    adapter.Prioritized (.orderReplace message) ↔ adapter.Requeues (.orderReplace message) := by
  obtain ⟨market, mirrors, quoted⟩ := quotes
  constructor
  · intro prioritized old rests price positive covered
    obtain ⟨symbol, listing, existing, registered, listed, found, agrees⟩ :=
      record_of_rests mirrors rests
    have accepted := accepted_of_keeps registered found mirrors quoted agrees rests price positive
    exact (replacedLast_iff registered found mirrors accepted agrees rests).mp
      (prioritized accepted) ⟨price, covered⟩
  · intro requeues accepted
    cases makes : adapter.callFor (.orderReplace message) with
    | none =>
      rw [adapter.apply_idle_eq makes] at accepted
      nomatch accepted
    | some call =>
      obtain ⟨symbol, registered, existing, found, _⟩ := replaceCall_eq_some_iff.mp makes
      obtain ⟨listing, listed, recorded⟩ := listing_of_record mirrors found
      have answer := (apply_replacement registered found).1
      obtain ⟨held, positive, _⟩ := listing_amended mirrors listed (answer.symm.trans accepted)
      obtain ⟨target, rests, _, _, agrees⟩ :=
        rests_of_holds mirrors registered listed held recorded
      refine (replacedLast_iff registered found mirrors accepted agrees rests).mpr ?_
      rintro ⟨price, covered⟩
      exact requeues target rests price (fun zero => positive ((toUInt64_eq_zero_iff _).mpr zero))
        covered

/-- A partial cancel that is accepted keeps every order in its place. -/
theorem prioritized_cancel {adapter : ItchEngineAdapter} {market : Market}
    (mirrors : adapter.registry.Mirrors market) (message : OrderCancelMessage) :
    adapter.Prioritized (.orderCancel message) := by
  intro accepted
  cases makes : adapter.callFor (.orderCancel message) with
  | none =>
    rw [adapter.apply_idle_eq makes] at accepted
    nomatch accepted
  | some call =>
    have applied := adapter.apply_call makes
    obtain ⟨symbol, registered, existing, found, rfl⟩ := cancelCall_eq_some_iff.mp makes
    obtain ⟨listing, listed, recorded⟩ := listing_of_record mirrors found
    have consistent := mirrors.consistent listed
    have symbols : (adapter.apply (.orderCancel message)).2.symbols[message.stockLocate]? =
        some symbol := by
      rw [applied]
      exact registered
    have queues := queue_eq mirrors registered listed
    by_cases all : existing.quantity - min message.cancelledShares.toUInt64 existing.quantity = 0
    · rw [if_pos all] at applied
      rw [applied] at accepted
      obtain ⟨held, next, after, kept, cancelled, book⟩ :=
        listing_cancelled mirrors listed accepted
      obtain ⟨target, rests, inside, own, agrees⟩ :=
        rests_of_holds mirrors registered listed held recorded
      have moved : (adapter.apply (.orderCancel message)).2.registry.Mirrors next := by
        rw [applied]
        exact kept
      refine ⟨Option.isSome_iff_exists.mpr ⟨target, rests⟩, fun side price => ?_⟩
      rw [queue_eq moved symbols cancelled, queues, book, ← own]
      rw [agrees.quantity] at all
      exact congrArg (List.map Order.face) (consistent.group_cancel inside all side price)
    · rw [if_neg all] at applied
      rw [applied] at accepted
      obtain ⟨held, _, clear, next, kept, amended⟩ := listing_amended mirrors listed accepted
      obtain ⟨target, rests, inside, own, agrees⟩ :=
        rests_of_holds mirrors registered listed held recorded
      have moved : (adapter.apply (.orderCancel message)).2.registry.Mirrors next := by
        rw [applied]
        exact kept
      refine ⟨Option.isSome_iff_exists.mpr ⟨target, rests⟩, fun side price => ?_⟩
      let reduced : Order :=
        { existing with
          id := target.id
          quantity := target.quantity - min message.cancelledShares.toUInt64 target.quantity
          status := .new }
      rw [← own, agrees.quantity] at clear amended
      rw [agrees.quantity] at all
      have clearReduced : Ledger.wouldCross listing.ledger.book reduced = false := clear
      rw [queue_eq moved symbols amended, queues, ← own]
      exact consistent.group_reduce inside agrees all rfl clearReduced side price

/-- Every message but a replacement has the priority of the feed, and a replacement has it exactly
when it goes to the back or stood there. -/
theorem prioritized_iff {adapter : ItchEngineAdapter} (quotes : adapter.registry.Quotes)
    (message : ItchMessage) : adapter.Prioritized message ↔ adapter.Requeues message := by
  cases message with
  | orderReplace message => exact prioritized_replace_iff quotes message
  | orderCancel message =>
    obtain ⟨market, mirrors, _⟩ := quotes
    exact iff_of_true (prioritized_cancel mirrors message) trivial
  | _ => exact Iff.rfl

end ItchEngineAdapter

namespace Session

/-- A session of any messages keeps the queue priority of the feed, at its next message and in the
whole run, exactly when no replacement keeps the price of an order that others stand behind and
does not grow it. -/
theorem queue_priority_iff (allocator : SlabAllocator) (backend : MatcherBackend)
    (messages : List ItchMessage) :
    (∀ message, (after allocator backend messages).adapter.Prioritized message ↔
      (after allocator backend messages).adapter.Requeues message) ∧
    (Admissible (fun session message => session.adapter.Prioritized message) step
        (init allocator backend) messages ↔
      Admissible (fun session message => session.adapter.Requeues message) step
        (init allocator backend) messages) :=
  quoted_congr (fun quotes message => ItchEngineAdapter.prioritized_iff quotes message) allocator
    backend messages

/-- The first of two bids of a level is replaced at its price with fewer shares, in a well-formed
session, and stays in front. -/
theorem replaced_order_stays_first :
    let allocator := SlabAllocator.consecutive 2 (by decide)
    let replacement : OrderReplaceMessage := { (default : OrderReplaceMessage) with
      stockLocate := 1, originalOrderReferenceNumber := 5, newOrderReferenceNumber := 7,
      shares := 8, price := 100 }
    let session := after allocator .reference twoBids
    Admissible WellFormed step (init allocator .reference)
        (twoBids ++ [.orderReplace replacement]) ∧
      (session.adapter.apply (.orderReplace replacement)).1 = true ∧
      ((session.adapter.apply (.orderReplace replacement)).2.queue 1 .buy 100).map
        (fun order => (order.id, order.quantity)) = [(5, 8), (6, 5)] ∧
      ¬ session.adapter.Prioritized (.orderReplace replacement) := by
  intro allocator replacement session
  have accepted : (session.adapter.apply (.orderReplace replacement)).1 = true := by
    decide +kernel
  refine ⟨by decide +kernel, accepted, by decide +kernel, ?_⟩
  have stays : ¬ session.adapter.ReplacedLast replacement := by decide +kernel
  exact fun prioritized => stays (prioritized accepted)

end Session

end Titan
