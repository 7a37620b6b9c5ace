import TitanEngine.Replay.ParityInvariant

/-!
# Messages keep the parity

What one message does to the feed's book of its locate and to the ledger of its symbol: an added
order comes to both, a deleted, cancelled or executed one is reduced in both, a replaced one is
exchanged in both, and a registered locate starts with an empty book in both.
-/

namespace Titan

open Library Std

namespace InParity

variable {history : History} {builder : ItchBookBuilder} {adapter : ItchEngineAdapter}
  {market : Market}

/-- A quantity or price of a message that is not zero stays so when it is widened. -/
theorem toUInt64_ne_zero {word : UInt32} (positive : word ≠ 0) : word.toUInt64 ≠ 0 := by
  intro zero
  apply positive
  have same := congrArg UInt64.toNat zero
  rw [UInt32.toNat_toUInt64] at same
  exact UInt32.toNat_inj.mp same

/-- A widened word fits the field it came from. -/
theorem toNat_toUInt64_lt (word : UInt32) : word.toUInt64.toNat < 2 ^ 32 := by
  rw [UInt32.toNat_toUInt64]
  exact word.toNat_lt

/-- An added order follows into the engine. -/
theorem addOrder (parity : InParity history builder adapter market) {message : AddOrderMessage}
    (new : message.orderReferenceNumber ∉ history.introduced)
    (below : message.orderReferenceNumber < firstSyntheticId) (shares : message.shares ≠ 0)
    (price : message.price ≠ 0)
    (clear : builder.crosses message.stockLocate message.side message.price.toUInt64 = false) :
    ∃ market', InParity
      { history with introduced := history.introduced ++ [message.orderReferenceNumber] }
      (builder.handleAddOrder message) (adapter.handleAddOrder message).2 market' := by
  unfold ItchBookBuilder.handleAddOrder ItchBookBuilder.onBook ItchEngineAdapter.handleAddOrder
  cases found : builder.books[message.stockLocate]? with
  | none =>
    rw [parity.unregistered found]
    exact ⟨market, parity.remember below⟩
  | some book =>
    obtain ⟨registered, listing, listed, consistent, follows⟩ := parity.book found
    rw [registered]
    let order : Order :=
      { id := message.orderReferenceNumber
        side := message.side
        price := message.price.toUInt64
        quantity := message.shares.toUInt64 }
    let moved : ItchEngineAdapter := { adapter with
      registry := (adapter.registry.submitOrder book.symbol order).2
      engineIdForRef := adapter.engineIdForRef.insert message.orderReferenceNumber
        message.orderReferenceNumber }
    have positive : order.quantity ≠ 0 := toUInt64_ne_zero shares
    have priced : order.price ≠ 0 := toUInt64_ne_zero price
    have plain : order.isMarketOrIoc = false := rfl
    have unknown : order.id ∉ listing.ledger.known := parity.unknown listed new below
    have valid : validateNewOrder order listing.ledger.known = .none := by
      simp [validateNewOrder, positive, priced, unknown]
    have uncrossed : Ledger.wouldCross listing.ledger.book order = false := by
      rw [← follows.linked.crossesBest_eq consistent.sound order]
      simpa [ItchBookBuilder.crosses, found] using clear
    obtain ⟨accepted, moves⟩ := Ledger.addOrder_clear plain valid uncrossed
    have called : (callLedger listing.ledger (.addOrder order)).2 = listing.ledger.enter order := by
      simp only [callLedger, accepted]
    have fed : order.Fed :=
      ⟨UInt64.lt_iff_toNat_lt.mp below, toNat_toUInt64_lt message.shares, plain, priced⟩
    have names : ∀ ref ∈ history.introduced,
        moved.engineIdFor ref = adapter.engineIdFor ref := by
      intro ref member
      apply ItchEngineAdapter.engineIdFor_insert_of_ne
      exact fun same => new (same ▸ member)
    have live := parity.budget.introduced_of_mem found
    have before := follows.congr moved.engineIdFor (fun ref member => names ref (live ref member))
    have unnamed : ∀ other ∈ book.orders, moved.engineIdFor other ≠ order.id := by
      intro other member
      rw [names other (live other member)]
      exact parity.unnamed found new other member
    have after := before.addOrder message.orderReferenceNumber fed unnamed
      (ItchEngineAdapter.engineIdFor_insert_self adapter _ _ _).symm positive moves
    refine ⟨_, parity.advance found listed moved (.addOrder order) rfl
      (parity.mirrors.submitOrder book.symbol order).2 (SymbolBook.symbol_addOrder _ _ _ _ _)
      (by rw [called]; exact after) names rfl ?_ (fun id knows => knows.introduce _) ?_
      parity.handedOut⟩
    · apply parity.budget.introduce found new below
      intro name entry live
      rw [SymbolBook.orders_addOrder, ExtTreeMap.getElem?_insert] at live
      by_cases same : message.orderReferenceNumber = name
      · rw [if_pos (by simpa using same), Option.some.injEq] at live
        subst live
        exact .inl ⟨same.symm, fed.light⟩
      · rw [if_neg (by simpa using same)] at live
        exact .inr live
    · intro id member
      rw [called, Ledger.enter, ExtTreeSet.mem_insert] at member
      rcases member with same | member
      · rw [← LawfulEqCmp.eq_of_compare same]
        exact .inr (.inl ⟨below, List.mem_append_right _ List.mem_cons_self⟩)
      · exact .inl member

/-- Reducing a live reference makes the live orders shrink. -/
theorem shrinks_reduceOrder {locate : StockLocate} {book : SymbolBook}
    (found : builder.books[locate]? = some book) {ref : OrderRefNumber} {resting : RestingOrder}
    (live : book.orders[ref]? = some resting) {taken : Quantity}
    (covered : taken ≤ resting.remainingShares) :
    builder.Shrinks
      { builder with books := builder.books.insert locate (book.reduceOrder ref taken) } := by
  apply ItchBookBuilder.shrinks_insert found
  intro name left entry
  obtain ⟨order, old, equal⟩ := SymbolBook.orders_reduceOrder_le live covered name left entry
  refine ⟨order, old, ?_⟩
  rw [equal]
  by_cases same : ref = name
  · subst same
    rw [live, Option.some.injEq] at old
    subst old
    rw [if_pos rfl, UInt64.le_iff_toNat_le, UInt64.toNat_sub_of_le _ _ covered]
    omega
  · rw [if_neg same]
    exact UInt64.le_refl _

section Reduce

variable (parity : InParity history builder adapter market) {locate : StockLocate}
  {book : SymbolBook} (found : builder.books[locate]? = some book) {ref : OrderRefNumber}
  {resting : RestingOrder} (live : book.orders[ref]? = some resting) {listing : Listing}
  {target record : Order} (names : Names adapter market book ref resting listing target record)
  {taken : Quantity} (covered : taken ≤ resting.remainingShares)

include parity found live names covered

/-- A call that knows no new id and takes a quantity off the order of a live reference keeps the
parity when the reference is reduced. -/
theorem reduce (request : ManagerCall) {registry : InstrumentRegistry}
    (mirrors : registry.Mirrors (market.call book.symbol request).2)
    (known : (callLedger listing.ledger request).2.known = listing.ledger.known)
    (moves : Book.Moves listing.ledger.book (callLedger listing.ledger request).2.book
      resting.side [target.face] ((Ledger.leftOf target taken).map Order.face)) :
    InParity history
      { builder with books := builder.books.insert locate (book.reduceOrder ref taken) }
      { adapter with registry := registry } (market.call book.symbol request).2 := by
  have after := names.follows.reduceOrder names.consistent.sound live names.fed names.named
    names.price names.quantity covered moves
  refine parity.advance found names.listed { adapter with registry := registry } request rfl
    mirrors (SymbolBook.symbol_reduceOrder _ _ _) after (fun _ _ => rfl) rfl ?_
    (fun _ knows => knows) ?_ parity.handedOut
  · exact parity.budget.shrink (shrinks_reduceOrder found live covered)
  · intro id member
    rw [known] at member
    exact .inl member

end Reduce

/-- What an order is left with when it is reduced by all of its quantity. -/
theorem leftOf_all {target : Order} {taken : Quantity} (all : taken = target.quantity) :
    (Ledger.leftOf target taken).map Order.face = [] := by
  rw [Ledger.leftOf, if_pos all]
  rfl

/-- A deleted order leaves the engine. -/
theorem deleteOrder (parity : InParity history builder adapter market)
    {message : OrderDeleteMessage} {resting : RestingOrder}
    (live : builder.liveOrder message.stockLocate message.orderReferenceNumber = some resting) :
    ∃ market', InParity history (builder.handleOrderDelete message)
      (adapter.handleOrderDelete message).2 market' := by
  obtain ⟨book, found, entry⟩ := ItchBookBuilder.book_of_live live
  obtain ⟨listing, target, record, names⟩ := parity.names found entry
  obtain ⟨_, moves, known⟩ := names.consistent.cancelOrder_resting names.member
  rw [names.named] at moves known
  have engine := (parity.mirrors.cancelOrder book.symbol
    (adapter.engineIdFor message.orderReferenceNumber)).2
  have after := parity.reduce found entry names (UInt64.le_refl _)
    (.cancelOrder (adapter.engineIdFor message.orderReferenceNumber)) engine known
    (by rw [leftOf_all names.quantity.symm]; exact moves)
  rw [← SymbolBook.deleteOrder_eq entry] at after
  unfold ItchBookBuilder.handleOrderDelete ItchBookBuilder.onBook
    ItchEngineAdapter.handleOrderDelete
  rw [found, (parity.book found).1]
  exact ⟨_, after⟩

/-- The order that rests for a live reference, reduced as the engine is asked to, is a valid
replacement of it. -/
theorem reduceRecord (parity : InParity history builder adapter market) {locate : StockLocate}
    {book : SymbolBook} (found : builder.books[locate]? = some book) {ref : OrderRefNumber}
    {resting : RestingOrder} (live : book.orders[ref]? = some resting) {listing : Listing}
    {target record : Order} (names : Names adapter market book ref resting listing target record)
    {taken : Quantity} (covered : taken ≤ resting.remainingShares)
    (left : record.quantity - taken ≠ 0) :
    ∃ market', InParity history
      { builder with books := builder.books.insert locate (book.reduceOrder ref taken) }
      { adapter with
        registry := (adapter.registry.cancelReplace book.symbol (adapter.engineIdFor ref)
          { record with
            id := adapter.engineIdFor ref
            quantity := record.quantity - taken }).2 } market' := by
  let reduced : Order :=
    { record with id := adapter.engineIdFor ref, quantity := record.quantity - taken }
  have sound := names.consistent.sound
  have own : reduced.side = resting.side :=
    names.agrees.side.trans (sound.sided resting.side target names.member)
  have face : reduced.face = { target with quantity := target.quantity - taken }.face := by
    have same := congrArg (fun order : Order =>
      { order with id := target.id, quantity := target.quantity - taken }) names.agrees.face
    simp only [reduced, ← names.named, names.agrees.quantity]
    exact same
  have plain : reduced.isMarketOrIoc = false := by
    have same := congrArg Order.isMarketOrIoc face
    exact same.trans names.fed.plain
  have price : reduced.price = target.price := names.agrees.price
  have clear : Ledger.wouldCross listing.ledger.book reduced = false := by
    rw [Ledger.wouldCross, own, List.any_eq_false]
    intro other inside
    rw [price, sound.not_crosses names.member inside]
    exact Bool.false_ne_true
  obtain ⟨_, moves, known⟩ := names.consistent.cancelReplace_resting names.member
    names.named.symm own plain left (by rw [price]; exact names.fed.priced) clear
  rw [names.named] at moves known
  have some_ : ¬ taken = target.quantity := by
    intro all
    rw [all, names.agrees.quantity] at left
    exact left (UInt64.sub_self _)
  have engine := (parity.mirrors.cancelReplace book.symbol (adapter.engineIdFor ref) reduced).2
  refine ⟨_, parity.reduce found live names covered
    (.cancelReplace (adapter.engineIdFor ref) reduced) engine known ?_⟩
  rw [Ledger.leftOf, if_neg some_, List.map_singleton, ← face]
  exact moves

/-- A partial cancel reduces the order in the engine too. -/
theorem cancelOrder (parity : InParity history builder adapter market)
    {message : OrderCancelMessage} {resting : RestingOrder}
    (live : builder.liveOrder message.stockLocate message.orderReferenceNumber = some resting) :
    ∃ market', InParity history (builder.handleOrderCancel message)
      (adapter.handleOrderCancel message).2 market' := by
  obtain ⟨book, found, entry⟩ := ItchBookBuilder.book_of_live live
  obtain ⟨listing, target, record, names⟩ := parity.names found entry
  have quantity : record.quantity = resting.remainingShares :=
    names.agrees.quantity.trans names.quantity
  let taken := min message.cancelledShares.toUInt64 resting.remainingShares
  have covered : taken ≤ resting.remainingShares := Std.min_le_right
  unfold ItchBookBuilder.handleOrderCancel ItchBookBuilder.onBook
    ItchEngineAdapter.handleOrderCancel
  rw [found, (parity.book found).1]
  simp only [names.found, quantity]
  rw [SymbolBook.reduceOrder_min entry]
  by_cases all : resting.remainingShares - taken = 0
  · obtain ⟨_, moves, known⟩ := names.consistent.cancelOrder_resting names.member
    rw [names.named] at moves known
    have whole : taken = target.quantity := by
      have zero := congrArg UInt64.toNat all
      rw [UInt64.toNat_sub_of_le _ _ covered] at zero
      have least := UInt64.le_iff_toNat_le.mp covered
      rw [names.quantity, ← UInt64.toNat_inj]
      change resting.remainingShares.toNat - taken.toNat = 0 at zero
      omega
    have engine := (parity.mirrors.cancelOrder book.symbol
      (adapter.engineIdFor message.orderReferenceNumber)).2
    rw [if_pos all]
    exact ⟨_, parity.reduce found entry names covered
      (.cancelOrder (adapter.engineIdFor message.orderReferenceNumber)) engine known
      (by rw [leftOf_all whole]; exact moves)⟩
  · rw [if_neg all]
    have after := parity.reduceRecord found entry names covered (by rw [quantity]; exact all)
    rw [quantity] at after
    exact after

/-- The order the engine would execute first heads its side of the ledger. -/
theorem head (parity : InParity history builder adapter market) {locate : StockLocate}
    {book : SymbolBook} (found : builder.books[locate]? = some book) {ref : OrderRefNumber}
    {resting : RestingOrder} {listing : Listing} {target record : Order}
    (names : Names adapter market book ref resting listing target record)
    (first : adapter.firstResting locate resting.side = some (adapter.engineIdFor ref)) :
    ∃ rest, listing.ledger.book.side resting.side = target :: rest := by
  obtain ⟨instrument, present, keeps⟩ := parity.mirrors.instrument names.listed
  have sound := names.consistent.sound
  have shown := resting_eq keeps.manager.tracks.represents sound resting.side
  simp only [ItchEngineAdapter.firstResting, (parity.book found).1, present, Option.bind_eq_bind,
    Option.bind_some, shown] at first
  cases orders : listing.ledger.book.side resting.side with
  | nil => simp [orders] at first
  | cons maker rest =>
    rw [orders] at first
    have id : maker.id = target.id := by
      rw [names.named]
      exact Option.some.inj first
    have inside : maker ∈ listing.ledger.book.side resting.side := orders ▸ List.mem_cons_self
    exact ⟨rest, by rw [sound.eq_of_id_eq inside names.member id]⟩

/-- The next synthetic id is not known to any instrument. -/
theorem synthetic_unknown (parity : InParity history builder adapter market) {symbol : Symbol}
    {listing : Listing} (listed : market.listings symbol = some listing) :
    adapter.nextSyntheticId ∉ listing.ledger.known := by
  intro member
  rcases parity.known symbol listing listed _ member with ⟨below, _⟩ | ⟨_, beyond⟩
  · have small := UInt64.lt_iff_toNat_lt.mp below
    have large := parity.handedOut.1
    omega
  · exact UInt64.lt_irrefl _ beyond

/-- The synthetic ids do not wrap. -/
theorem toNat_next (parity : InParity history builder adapter market) :
    (adapter.nextSyntheticId + 1).toNat = adapter.nextSyntheticId.toNat + 1 := by
  have first : firstSyntheticId.toNat = 1000000000 := by decide
  have few := parity.budget.length_executed
  have bound := parity.handedOut.2
  rw [UInt64.toNat_add]
  apply Nat.mod_eq_of_lt
  show adapter.nextSyntheticId.toNat + 1 < 2 ^ 64
  omega

/-- The synthetic order of an execution is matched with the head of a side, and with that order
alone. -/
theorem matchOrder_synthetic {ledger : Ledger} (consistent : ledger.Consistent) {side : Side}
    {target record : Order} {rest : List Order} (orders : ledger.book.side side = target :: rest)
    (agrees : record.Agrees target) (priced : target.price ≠ 0) {id : OrderId}
    (unknown : id ∉ ledger.known) {executedShares : UInt32} {executionPrice : Option UInt32}
    (some_ : executedShares ≠ 0) (covered : executedShares.toUInt64 ≤ target.quantity)
    (through : ∀ price ∈ executionPrice,
      price ≠ 0 ∧ crosses side.opposite price.toUInt64 target.price = true) :
    let taker := ItchEngineAdapter.syntheticOrder id record executedShares executionPrice
    callLedger ledger (.matchOrder taker) =
        ({ trades := [tradeWith id target executedShares.toUInt64], accept := .ok },
          ledger.enter taker) ∧
      Book.Moves ledger.book (ledger.enter taker).book side [target.face]
        ((Ledger.leftOf target executedShares.toUInt64).map Order.face) := by
  intro taker
  have sided := consistent.sound.sided side target (orders ▸ List.mem_cons_self)
  have quantity : taker.quantity = executedShares.toUInt64 := by
    show min executedShares.toUInt64 record.quantity = _
    rw [agrees.quantity, UInt64.min_def, if_pos covered]
  have positive : taker.quantity ≠ 0 := by
    rw [quantity]
    exact toUInt64_ne_zero some_
  have side_ : taker.side = side.opposite := by
    show record.side.opposite = _
    rw [agrees.side, sided]
  have across : taker.side.opposite = side := by
    rw [side_, Side.opposite_opposite]
  have price : taker.price ≠ 0 ∧ crosses taker.side taker.price target.price = true := by
    rw [side_]
    cases executionPrice with
    | none =>
      have same : taker.price = target.price := agrees.price
      rw [same]
      refine ⟨priced, ?_⟩
      cases side <;> simp [crosses, Side.opposite]
    | some price =>
      obtain ⟨nonzero, reach⟩ := through price rfl
      exact ⟨toUInt64_ne_zero nonzero, reach⟩
  have valid : validateNewOrder taker ledger.known = .none := by
    have new : taker.id ∉ ledger.known := unknown
    simp [validateNewOrder, positive, price.1, new]
  have fits : taker.quantity ≤ target.quantity := by
    rw [quantity]
    exact covered
  have heads : ledger.book.side taker.side.opposite = target :: rest := by
    rw [across]
    exact orders
  obtain ⟨trades, moves⟩ := Ledger.enter_head rfl rfl rfl heads price.2 positive fits
  rw [across, quantity] at moves
  refine ⟨?_, moves⟩
  simp only [callLedger, Ledger.matchOrder, valid, trades, quantity]
  rfl

/-- The synthetic order of an execution of a live reference is matched with the order it names,
and with that order alone. -/
theorem Names.matchOrder {book : SymbolBook} {ref : OrderRefNumber} {resting : RestingOrder}
    {listing : Listing} {target record : Order}
    (names : Names adapter market book ref resting listing target record) {rest : List Order}
    (orders : listing.ledger.book.side resting.side = target :: rest) {id : OrderId}
    (unknown : id ∉ listing.ledger.known) {executedShares : UInt32}
    {executionPrice : Option UInt32} (some_ : executedShares ≠ 0)
    (covered : executedShares.toUInt64 ≤ resting.remainingShares)
    (through : ∀ price ∈ executionPrice,
      price ≠ 0 ∧ crosses resting.side.opposite price.toUInt64 resting.price = true) :
    let taker := ItchEngineAdapter.syntheticOrder id record executedShares executionPrice
    callLedger listing.ledger (.matchOrder taker) =
        ({ trades := [tradeWith id target executedShares.toUInt64], accept := .ok },
          listing.ledger.enter taker) ∧
      Book.Moves listing.ledger.book (listing.ledger.enter taker).book resting.side [target.face]
        ((Ledger.leftOf target executedShares.toUInt64).map Order.face) :=
  matchOrder_synthetic names.consistent orders names.agrees names.fed.priced unknown some_
    (by rw [names.quantity]; exact covered) (by rw [names.price]; exact through)

/-- An execution of the first order of a side takes its shares off it in the engine too. -/
theorem applyExecuted (parity : InParity history builder adapter market) {locate : StockLocate}
    {ref : OrderRefNumber} {resting : RestingOrder}
    (live : builder.liveOrder locate ref = some resting) {executedShares : UInt32}
    {executionPrice : Option UInt32} (some_ : executedShares ≠ 0)
    (covered : executedShares.toUInt64 ≤ resting.remainingShares)
    (first : adapter.firstResting locate resting.side = some (adapter.engineIdFor ref))
    (through : ∀ price ∈ executionPrice,
      price ≠ 0 ∧ crosses resting.side.opposite price.toUInt64 resting.price = true) :
    ∃ market', InParity { history with executed := history.executed ++ [ref] }
      (builder.onBook locate (fun book => book.reduceOrder ref executedShares.toUInt64))
      (adapter.applyExecuted locate ref executedShares executionPrice).2 market' := by
  obtain ⟨book, found, entry⟩ := ItchBookBuilder.book_of_live live
  obtain ⟨listing, target, record, names⟩ := parity.names found entry
  obtain ⟨rest, orders⟩ := parity.head found names first
  let taker :=
    ItchEngineAdapter.syntheticOrder adapter.nextSyntheticId record executedShares executionPrice
  obtain ⟨called, moves⟩ := names.matchOrder orders (parity.synthetic_unknown names.listed) some_
    covered through
  have after := names.follows.reduceOrder names.consistent.sound entry names.fed names.named
    names.price names.quantity covered moves
  have wrap := parity.toNat_next
  let moved : ItchEngineAdapter := { adapter with
    registry := (adapter.registry.matchOrder book.symbol taker).2
    nextSyntheticId := adapter.nextSyntheticId + 1
    tradeVolume := (adapter.registry.matchOrder book.symbol taker).1.foldl
      (fun volume trade => volume + trade.quantity) adapter.tradeVolume }
  unfold ItchBookBuilder.onBook ItchEngineAdapter.applyExecuted
  rw [found, (parity.book found).1]
  simp only [names.found]
  refine ⟨_, parity.advance found names.listed moved (.matchOrder taker) rfl
    (parity.mirrors.matchOrder book.symbol taker).2 (SymbolBook.symbol_reduceOrder _ _ _)
    (by rw [called]; exact after) (fun _ _ => rfl) rfl ?_ ?_ ?_ ?_⟩
  · apply parity.budget.execute live (shrinks_reduceOrder found entry covered)
    · intro zero
      rw [zero] at covered
      exact toUInt64_ne_zero some_ (UInt64.le_zero_iff.mp covered)
    · intro left remains
      rw [ItchBookBuilder.liveOrder_insert, if_pos rfl] at remains
      obtain ⟨order, old, equal⟩ :=
        SymbolBook.orders_reduceOrder_le entry covered ref left remains
      rw [entry, Option.some.injEq] at old
      subst old
      have least := UInt64.le_iff_toNat_le.mp covered
      have share : executedShares.toUInt64.toNat ≠ 0 :=
        fun zero => toUInt64_ne_zero some_ (UInt64.toNat_inj.mp zero)
      rw [equal, if_pos rfl, UInt64.lt_iff_toNat_lt, UInt64.toNat_sub_of_le _ _ covered]
      omega
  · rintro id (introduced | ⟨above, handed⟩)
    · exact .inl introduced
    · refine .inr ⟨above, ?_⟩
      have before := UInt64.lt_iff_toNat_lt.mp handed
      show id < adapter.nextSyntheticId + 1
      rw [UInt64.lt_iff_toNat_lt, wrap]
      omega
  · intro id member
    rw [called, Ledger.enter, ExtTreeSet.mem_insert] at member
    rcases member with same | member
    · rw [← LawfulEqCmp.eq_of_compare same]
      refine .inr (.inr ⟨UInt64.le_iff_toNat_le.mpr parity.handedOut.1, ?_⟩)
      show adapter.nextSyntheticId < adapter.nextSyntheticId + 1
      rw [UInt64.lt_iff_toNat_lt, wrap]
      omega
    · exact .inl member
  · have bounds := parity.handedOut
    show firstSyntheticId.toNat ≤ (adapter.nextSyntheticId + 1).toNat ∧
      (adapter.nextSyntheticId + 1).toNat ≤
        firstSyntheticId.toNat + (history.executed ++ [ref]).length
    rw [wrap, List.length_append, List.length_singleton]
    omega

/-- The replacement of a live order is valid, and exchanges it for an order on its side. -/
theorem Names.cancelReplace {book : SymbolBook} {ref : OrderRefNumber} {resting : RestingOrder}
    {listing : Listing} {target record : Order}
    (names : Names adapter market book ref resting listing target record) {shares price : UInt32}
    (positive : shares ≠ 0) (priced : price ≠ 0)
    (clear : Ledger.crossesBest resting.side price.toUInt64
      (book.levels resting.side.opposite) = false) :
    let id := adapter.engineIdFor ref
    let replacement : Order :=
      { record with id := id, price := price.toUInt64, quantity := shares.toUInt64 }
    (listing.ledger.cancelReplace id replacement).1.accepted = true ∧
      Book.Moves listing.ledger.book (listing.ledger.cancelReplace id replacement).2.book
        resting.side [target.face] [replacement.face] ∧
      (listing.ledger.cancelReplace id replacement).2.known = listing.ledger.known ∧
      replacement.side = resting.side ∧ replacement.Fed := by
  intro id replacement
  have sound := names.consistent.sound
  have own : replacement.side = resting.side :=
    names.agrees.side.trans (sound.sided resting.side target names.member)
  have plain : replacement.isMarketOrIoc = false := by
    have same := congrArg Order.isMarketOrIoc names.agrees.face
    exact same.trans names.fed.plain
  have below : replacement.id.toNat < 1000000000 := by
    have small := names.fed.below
    rw [names.named] at small
    exact small
  have uncrossed : Ledger.wouldCross listing.ledger.book replacement = false := by
    rw [← names.follows.linked.crossesBest_eq sound replacement, own]
    exact clear
  have step := names.consistent.cancelReplace_resting names.member names.named.symm own plain
    (toUInt64_ne_zero positive) (toUInt64_ne_zero priced) uncrossed
  rw [names.named] at step
  obtain ⟨accepted, moves, known⟩ := step
  exact ⟨accepted, moves, known, own, below, toNat_toUInt64_lt shares, plain,
    toUInt64_ne_zero priced⟩

/-- A replaced order is exchanged in the engine too, which keeps its id. -/
theorem replaceOrder (parity : InParity history builder adapter market)
    {message : OrderReplaceMessage} {resting : RestingOrder}
    (live : builder.liveOrder message.stockLocate message.originalOrderReferenceNumber =
      some resting)
    (new : message.newOrderReferenceNumber ∉ history.introduced)
    (below : message.newOrderReferenceNumber < firstSyntheticId) (shares : message.shares ≠ 0)
    (price : message.price ≠ 0)
    (clear : builder.crosses message.stockLocate resting.side message.price.toUInt64 = false) :
    ∃ market', InParity
      { history with introduced := history.introduced ++ [message.newOrderReferenceNumber] }
      (builder.handleOrderReplace message) (adapter.handleOrderReplace message).2 market' := by
  obtain ⟨book, found, entry⟩ := ItchBookBuilder.book_of_live live
  obtain ⟨listing, target, record, names⟩ := parity.names found entry
  have uncrossed : Ledger.crossesBest resting.side message.price.toUInt64
      (book.levels resting.side.opposite) = false := by
    simpa [ItchBookBuilder.crosses, found] using clear
  obtain ⟨accepted, moves, known, own, fed⟩ := names.cancelReplace shares price uncrossed
  let id := adapter.engineIdFor message.originalOrderReferenceNumber
  let replacement : Order :=
    { record with
      id := id
      price := message.price.toUInt64
      quantity := message.shares.toUInt64 }
  let moved : ItchEngineAdapter := { adapter with
    registry := (adapter.registry.cancelReplace book.symbol id replacement).2
    engineIdForRef := adapter.engineIdForRef.insert message.newOrderReferenceNumber id }
  have introduced := parity.budget.introduced_of_mem found
  have unused : message.newOrderReferenceNumber ∉ book.orders :=
    fun member => new (introduced _ member)
  have ids : moved.engineIdFor =
      Function.update adapter.engineIdFor message.newOrderReferenceNumber id := by
    funext ref
    by_cases same : ref = message.newOrderReferenceNumber
    · rw [same, Function.update_self]
      exact ItchEngineAdapter.engineIdFor_insert_self adapter _ _ _
    · rw [Function.update_of_ne same]
      exact ItchEngineAdapter.engineIdFor_insert_of_ne adapter (Ne.symm same) _ _
  have after := names.follows.replaceOrder names.consistent.sound entry names.named names.price
    names.quantity fed names.named.symm own (toUInt64_ne_zero shares) unused moves
  have engine := parity.mirrors.cancelReplace book.symbol id replacement
  have answered :
      (adapter.registry.cancelReplace book.symbol id replacement).1.accepted = true := by
    rw [engine.1, (Market.call_listed names.listed _).1]
    exact accepted
  unfold ItchBookBuilder.handleOrderReplace ItchBookBuilder.onBook
    ItchEngineAdapter.handleOrderReplace
  rw [found, (parity.book found).1]
  simp only [names.found, entry]
  rw [if_pos answered]
  refine ⟨_, parity.advance found names.listed moved (.cancelReplace id replacement) rfl engine.2 ?_
    (by rw [ids]; exact after) ?_ rfl ?_ (fun _ knows => knows.introduce _) ?_ parity.handedOut⟩
  · rw [SymbolBook.symbol_addOrder, SymbolBook.deleteOrder_eq entry, SymbolBook.symbol_reduceOrder]
  · intro ref member
    rw [ids, Function.update_of_ne]
    exact fun same => new (same ▸ member)
  · apply parity.budget.introduce found new below
    intro name left remains
    rw [SymbolBook.orders_addOrder, ExtTreeMap.getElem?_insert] at remains
    by_cases same : message.newOrderReferenceNumber = name
    · rw [if_pos (by simpa using same), Option.some.injEq] at remains
      subst remains
      exact .inl ⟨same.symm, fed.light⟩
    · rw [if_neg (by simpa using same), SymbolBook.deleteOrder_eq entry,
        SymbolBook.orders_reduceOrder entry (UInt64.le_refl _), if_pos rfl,
        ExtTreeMap.getElem?_erase] at remains
      split at remains
      · nomatch remains
      · exact .inr remains
  · intro ref member
    exact .inl (known ▸ member)

/-- Storing what is stored changes nothing. -/
theorem insert_eq_self {β : Type} {entries : LocateMap β} {locate : StockLocate} {value : β}
    (found : entries[locate]? = some value) : entries.insert locate value = entries := by
  apply ExtTreeMap.ext_getElem?
  intro other
  rw [ExtTreeMap.getElem?_insert]
  split
  · rename_i same
    rw [← LawfulEqCmp.eq_of_compare same, found]
  · rfl

/-- Registering a locate again under its symbol changes nothing. -/
theorem registerAgain (parity : InParity history builder adapter market) {locate : StockLocate}
    {book : SymbolBook} (found : builder.books[locate]? = some book) :
    InParity
      { history with registrations := history.registrations ++ [(locate, book.symbol)] } builder
      { adapter with registry := adapter.registry.createInstrument book.symbol } market := by
  obtain ⟨_, listing, listed, _⟩ := parity.book found
  have created := parity.mirrors.createInstrument book.symbol
  rw [Market.list_listed listed] at created
  exact {
    mirrors := created
    books := parity.books
    owned := parity.owned
    single := parity.single
    registered := fun other symbol present =>
      List.mem_append_left _ (parity.registered other symbol present)
    budget := parity.budget
    known := parity.known
    handedOut := parity.handedOut }

/-- A new locate is registered under a new symbol. -/
theorem registerNew (parity : InParity history builder adapter market) {locate : StockLocate}
    {symbol : Symbol} (absent : builder.books[locate]? = none)
    (unlisted : market.listings symbol = none) :
    InParity { history with registrations := history.registrations ++ [(locate, symbol)] }
      { builder with
        books := builder.books.insert locate { SymbolBook.empty with symbol := symbol } }
      { adapter with
        registry := adapter.registry.createInstrument symbol
        symbols := adapter.symbols.insert locate symbol } (market.list symbol) := by
  have listings := Market.listings_list unlisted
  have other : ∀ name listing, market.listings name = some listing → name ≠ symbol := by
    intro name listing listed same
    rw [same, unlisted] at listed
    nomatch listed
  have kept : ∀ name listing, market.listings name = some listing →
      (market.list symbol).listings name = some listing := by
    intro name listing listed
    rw [listings, Function.update_of_ne (other name listing listed)]
    exact listed
  have symbols : ∀ (place : StockLocate) name,
      (adapter.symbols.insert locate symbol)[place]? = some name →
        (place = locate ∧ name = symbol) ∨ adapter.symbols[place]? = some name := by
    intro place name present
    rw [ExtTreeMap.getElem?_insert] at present
    split at present
    · rename_i same
      rw [Option.some.injEq] at present
      exact .inl ⟨(LawfulEqCmp.eq_of_compare same).symm, present.symm⟩
    · exact .inr present
  -- a registered symbol is listed, so it is not the new one
  have listed : ∀ (place : StockLocate) name, adapter.symbols[place]? = some name →
      name ≠ symbol := by
    intro place name present
    obtain ⟨book, found, rfl⟩ := parity.symbol present
    obtain ⟨_, listing, listed, _⟩ := parity.book found
    exact other book.symbol listing listed
  constructor
  · exact parity.mirrors.createInstrument symbol
  · intro place
    show Option.Rel _ (builder.books.insert locate _)[place]?
      (adapter.symbols.insert locate symbol)[place]?
    rw [ExtTreeMap.getElem?_insert, ExtTreeMap.getElem?_insert]
    by_cases same : locate = place
    · rw [if_pos (by simpa using same), if_pos (by simpa using same)]
      refine .some ⟨rfl, _, by rw [listings, Function.update_self], ?_⟩
      exact (SymbolBook.follows_empty _).rename symbol
    · rw [if_neg (by simpa using same), if_neg (by simpa using same)]
      cases entry : builder.books[place]? with
      | none =>
        rw [parity.unregistered entry]
        exact .none
      | some book =>
        obtain ⟨registered, listing, listed, _, follows⟩ := parity.book entry
        rw [registered]
        exact .some ⟨rfl, listing, kept _ _ listed, follows⟩
  · intro name listing present
    by_cases same : name = symbol
    · exact ⟨locate, by rw [same]; exact ExtTreeMap.getElem?_insert_self⟩
    · rw [listings, Function.update_of_ne same] at present
      obtain ⟨place, registered⟩ := parity.owned name listing present
      have apart : locate ≠ place := by
        intro equal
        rw [← equal, parity.unregistered absent] at registered
        nomatch registered
      refine ⟨place, ?_⟩
      rw [ExtTreeMap.getElem?_insert, if_neg (by simpa using apart)]
      exact registered
  · intro left right name onLeft onRight
    rcases symbols left name onLeft with ⟨rfl, rfl⟩ | oldLeft <;>
      rcases symbols right _ onRight with ⟨atRight, named⟩ | oldRight
    · exact atRight.symm
    · exact absurd rfl (listed right _ oldRight)
    · exact absurd named (listed left _ oldLeft)
    · exact parity.single left right _ oldLeft oldRight
  · intro place name present
    rcases symbols place name present with ⟨rfl, rfl⟩ | old
    · exact List.mem_append_right _ List.mem_cons_self
    · exact List.mem_append_left _ (parity.registered place name old)
  · apply parity.budget.shrink
    intro place ref left live
    rw [ItchBookBuilder.liveOrder_insert] at live
    split at live
    · simp [SymbolBook.empty] at live
    · exact ⟨left, live, UInt64.le_refl _⟩
  · intro name listing present id member
    by_cases same : name = symbol
    · rw [same, listings, Function.update_self, Option.some.injEq] at present
      subst present
      simp [Ledger.empty] at member
    · rw [listings, Function.update_of_ne same] at present
      exact parity.known name listing present id member
  · exact parity.handedOut

/-- A locate is registered with both. -/
theorem stockDirectory (parity : InParity history builder adapter market)
    {message : StockDirectoryMessage}
    (same : ∀ earlier ∈ history.registrations, earlier.1 = message.stockLocate ↔
      earlier.2 = trimTrailingSpaces message.stock) :
    ∃ market', InParity
      { history with
        registrations := history.registrations ++
          [(message.stockLocate, trimTrailingSpaces message.stock)] }
      (builder.handleStockDirectory message) (adapter.handleStockDirectory message).2 market' := by
  unfold ItchBookBuilder.handleStockDirectory ItchEngineAdapter.handleStockDirectory
  cases found : builder.books[message.stockLocate]? with
  | some book =>
    have registered := (parity.book found).1
    have symbol : book.symbol = trimTrailingSpaces message.stock :=
      (same _ (parity.registered _ _ registered)).mp rfl
    have entry : builder.books.getD message.stockLocate SymbolBook.empty = book := by
      rw [ExtTreeMap.getD_eq_getD_getElem?, found]
      rfl
    rw [← symbol]
    simp only [entry, insert_eq_self found, insert_eq_self registered]
    exact ⟨market, parity.registerAgain found⟩
  | none =>
    have entry : builder.books.getD message.stockLocate SymbolBook.empty = SymbolBook.empty := by
      rw [ExtTreeMap.getD_eq_getD_getElem?, found]
      rfl
    have unlisted : market.listings (trimTrailingSpaces message.stock) = none := by
      cases present : market.listings (trimTrailingSpaces message.stock) with
      | none => rfl
      | some listing =>
        obtain ⟨place, owns⟩ := parity.owned _ listing present
        have here : place = message.stockLocate :=
          (same _ (parity.registered _ _ owns)).mpr rfl
        rw [here, parity.unregistered found] at owns
        nomatch owns
    simp only [entry]
    exact ⟨_, parity.registerNew found unlisted⟩

end InParity

end Titan
