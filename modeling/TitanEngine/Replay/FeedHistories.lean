import TitanEngine.Feed.Aggregation
import TitanEngine.Replay.LocateIsolation

/-!
# What the feed's book remembers

The book of a locate is moved by the messages of that locate and by the end of messages, and by
nothing else, whatever the messages are. And a book in good order remembers of its past only which
orders are live: it shows the same levels whichever way these orders became what they are.
-/

namespace Titan

open Library Std

namespace ItchBookBuilder

/-- A change through a pointer to a book changes that book. -/
theorem books_onBook (builder : ItchBookBuilder) (locate other : StockLocate)
    (change : SymbolBook → SymbolBook) :
    (builder.onBook locate change).books[other]? =
      if locate = other then builder.books[other]?.map change else builder.books[other]? := by
  unfold onBook
  by_cases same : locate = other
  · subst same
    rw [if_pos rfl]
    cases found : builder.books[locate]? with
    | none => exact found
    | some book => exact ExtTreeMap.getElem?_insert_self
  · rw [if_neg same]
    cases found : builder.books[locate]? with
    | none => rfl
    | some book =>
      show (builder.books.insert locate (change book))[other]? = _
      rw [ExtTreeMap.getElem?_insert, if_neg (by simpa using same)]

/-- What a message does to the books that see it depends on the message alone. -/
theorem exists_change (message : ItchMessage) :
    ∃ change : Option SymbolBook → Option SymbolBook, ∀ (builder : ItchBookBuilder)
      (locate : StockLocate), (builder.apply message).books[locate]? =
        if message.seenBy locate then change builder.books[locate]? else builder.books[locate]? := by
  have one (own : StockLocate) (change : SymbolBook → SymbolBook) (builder : ItchBookBuilder)
      (locate : StockLocate) : (builder.onBook own change).books[locate]? =
        if some own == some locate then builder.books[locate]?.map change
        else builder.books[locate]? := by
    rw [books_onBook]
    by_cases same : own = locate <;> simp [same]
  cases message with
  | systemEvent message =>
    refine ⟨fun book => if message.eventCode = endOfMessages then none else book, ?_⟩
    intro builder locate
    show (builder.handleSystemEvent message).books[locate]? = _
    unfold handleSystemEvent
    simp only [ItchMessage.seenBy, ↓reduceIte]
    split
    · exact ExtTreeMap.getElem?_empty
    · rfl
  | stockDirectory message =>
    refine ⟨fun book => some { book.getD SymbolBook.empty with
      symbol := trimTrailingSpaces message.stock }, ?_⟩
    intro builder locate
    show (builder.books.insert message.stockLocate _)[locate]? =
      if some message.stockLocate == some locate then _ else _
    by_cases same : message.stockLocate = locate
    · subst same
      rw [ExtTreeMap.getElem?_insert_self, ExtTreeMap.getD_eq_getD_getElem?]
      simp
    · rw [ExtTreeMap.getElem?_insert, if_neg (by simpa using same)]
      simp [same]
  | addOrder message => exact ⟨_, one message.stockLocate _⟩
  | addOrderMpid message => exact ⟨_, one message.base.stockLocate _⟩
  | orderExecuted message => exact ⟨_, one message.stockLocate _⟩
  | orderExecutedWithPrice message => exact ⟨_, one message.base.stockLocate _⟩
  | orderCancel message => exact ⟨_, one message.stockLocate _⟩
  | orderDelete message => exact ⟨_, one message.stockLocate _⟩
  | orderReplace message => exact ⟨_, one message.stockLocate _⟩
  | timestampSeconds message => exact ⟨id, fun _ _ => rfl⟩

/-- The book of a locate after any messages is that after the messages it sees. -/
theorem books_run (messages : List ItchMessage) (locate : StockLocate) :
    (run step init messages).2.books[locate]? =
      (run step init (messages.filter (fun message => message.seenBy locate))).2.books[locate]? := by
  refine (run_filter (fun message : ItchMessage => message.seenBy locate)
    (fun left right : ItchBookBuilder => left.books[locate]? = right.books[locate]?) ?_ ?_ rfl
    (admissible_true step init messages)).2
  · intro left right message same _ seen
    obtain ⟨change, changed⟩ := exists_change message
    refine ⟨rfl, ?_⟩
    show (left.apply message).books[locate]? = (right.apply message).books[locate]?
    rw [changed, changed, if_pos seen, if_pos seen, same]
  · intro left right message same _ unseen
    obtain ⟨change, changed⟩ := exists_change message
    show (left.apply message).books[locate]? = right.books[locate]?
    rw [changed, if_neg (by rw [unseen]; exact Bool.false_ne_true), same]

/-- Whatever the messages, well formed or not, the feed's book of a locate is moved by those of
that locate and by system events alone: its symbol, its orders and its snapshots are those of a
builder that is given no others. -/
theorem locate_sees_own_messages (messages : List ItchMessage) (locate : StockLocate) :
    let whole := (run step init messages).2
    let own := (run step init (messages.filter (fun message => message.seenBy locate))).2
    whole.symbolForLocate locate = own.symbolForLocate locate ∧
      whole.orderCount locate = own.orderCount locate ∧
      (∀ ref, whole.liveOrder locate ref = own.liveOrder locate ref) ∧
      ∀ depth, (whole.snapshot locate depth).1 = (own.snapshot locate depth).1 := by
  intro whole own
  have same : whole.books[locate]? = own.books[locate]? := books_run messages locate
  refine ⟨?_, ?_, fun ref => ?_, fun depth => ?_⟩
  · rw [symbolForLocate, same, symbolForLocate]
  · rw [orderCount, same, orderCount]
  · rw [liveOrder, same, liveOrder]
  · unfold snapshot
    rw [same]
    cases own.books[locate]? <;> rfl

/-- The live orders of a locate, whatever their references. -/
def liveOrders (builder : ItchBookBuilder) (locate : StockLocate) : List RestingOrder :=
  ((builder.books[locate]?).map (fun book => book.orders.toList.map Prod.snd)).getD []

/-- Shares count orders, not their references. -/
theorem sharesOf_perm {left right : IdMap RestingOrder}
    (same : (left.toList.map Prod.snd).Perm (right.toList.map Prod.snd)) :
    sharesOf left = sharesOf right := by
  have counted (orders : IdMap RestingOrder) : sharesOf orders =
      tally (fun order : RestingOrder => (order.side, order.price))
        (fun order => order.remainingShares) (orders.toList.map Prod.snd) := by
    rw [← tally_comp]
    rfl
  rw [counted, counted, tally_perm same]

/-- Books that are occupied and have the same live orders show the same levels. -/
theorem depth_eq_of_perm {left right : SymbolBook} (occupied : left.Occupied)
    (otherOccupied : right.Occupied)
    (same : (left.orders.toList.map Prod.snd).Perm (right.orders.toList.map Prod.snd))
    (side : Side) (depth : Nat) : left.depth side depth = right.depth side depth := by
  have levels : left.levels side = right.levels side := by
    apply ExtTreeMap.ext_getElem?
    intro price
    rw [occupied.levels side price, otherOccupied.levels side price, SymbolBook.liveShares,
      SymbolBook.liveShares, sharesOf_perm same]
  rw [SymbolBook.depth, levels, SymbolBook.depth]

/-- The book that is shown does not depend on the way it arose: after any two histories that keep
their references apart, never leave 2^32 orders live on a locate, introduce no order without shares
and leave the same orders live, in any order and under any references, a locate shows the same
levels to any depth. -/
theorem same_orders_same_book {messages others : List ItchMessage}
    (admitted : Admissible Admits step init messages)
    (othersAdmitted : Admissible Admits step init others)
    (shares : ∀ message ∈ messages, message.Introduces (fun shares => shares ≠ 0))
    (othersShares : ∀ message ∈ others, message.Introduces (fun shares => shares ≠ 0))
    (locate : StockLocate)
    (same : ((run step init messages).2.liveOrders locate).Perm
      ((run step init others).2.liveOrders locate)) (depth : Nat) :
    ∀ taken ∈ ((run step init messages).2.snapshot locate depth).1,
      ∀ other ∈ ((run step init others).2.snapshot locate depth).1,
        taken.bids = other.bids ∧ taken.asks = other.asks := by
  intro taken shown other otherShown
  have every := everyBook_run SymbolBook.kept_occupied admitted shares
  have otherEvery := everyBook_run SymbolBook.kept_occupied othersAdmitted othersShares
  unfold liveOrders at same
  unfold snapshot at shown otherShown
  cases found : (run step init messages).2.books[locate]? with
  | none =>
    rw [found] at shown
    cases shown
  | some left =>
    cases otherFound : (run step init others).2.books[locate]? with
    | none =>
      rw [otherFound] at otherShown
      cases otherShown
    | some right =>
      rw [found] at shown same
      rw [otherFound] at otherShown same
      obtain rfl := Option.some.inj shown
      obtain rfl := Option.some.inj otherShown
      have occupied := (every locate left found).2
      have otherOccupied := (otherEvery locate right otherFound).2
      exact ⟨depth_eq_of_perm occupied otherOccupied same .buy depth,
        depth_eq_of_perm occupied otherOccupied same .sell depth⟩

/-- A bid of ten shares that is executed for four. -/
def executedHistory : List ItchMessage :=
  [.stockDirectory { (default : StockDirectoryMessage) with stockLocate := 1 },
    .addOrder { (default : AddOrderMessage) with
      stockLocate := 1, orderReferenceNumber := 5, buySellIndicator := 0x42, shares := 10,
      price := 100 },
    .orderExecuted { (default : OrderExecutedMessage) with
      stockLocate := 1, orderReferenceNumber := 5, executedShares := 4 }]

/-- A bid that is replaced by one of six shares at another price. -/
def replacedHistory : List ItchMessage :=
  [.stockDirectory { (default : StockDirectoryMessage) with stockLocate := 1 },
    .addOrder { (default : AddOrderMessage) with
      stockLocate := 1, orderReferenceNumber := 7, buySellIndicator := 0x42, shares := 1,
      price := 99 },
    .orderReplace { (default : OrderReplaceMessage) with
      stockLocate := 1, originalOrderReferenceNumber := 7, newOrderReferenceNumber := 8,
      shares := 6, price := 100 }]

/-- Both leave a bid for six shares at 100. -/
theorem same_orders_same_book_six_shares :
    ∃ taken other, ((run step init executedHistory).2.snapshot 1 5).1 = some taken ∧
      ((run step init replacedHistory).2.snapshot 1 5).1 = some other ∧
      taken.bids = other.bids ∧ taken.asks = other.asks := by
  have admitted : Admissible Admits step init executedHistory := by decide +kernel
  have othersAdmitted : Admissible Admits step init replacedHistory := by decide +kernel
  have shares : ∀ message ∈ executedHistory, message.Introduces (fun shares => shares ≠ 0) := by
    simp [executedHistory, ItchMessage.Introduces]
  have othersShares : ∀ message ∈ replacedHistory,
      message.Introduces (fun shares => shares ≠ 0) := by
    simp [replacedHistory, ItchMessage.Introduces]
  have same : ((run step init executedHistory).2.liveOrders 1).Perm
      ((run step init replacedHistory).2.liveOrders 1) := by decide +kernel
  obtain ⟨taken, shown⟩ :
      ∃ taken, ((run step init executedHistory).2.snapshot 1 5).1 = some taken :=
    Option.isSome_iff_exists.mp (by decide +kernel)
  obtain ⟨other, otherShown⟩ :
      ∃ other, ((run step init replacedHistory).2.snapshot 1 5).1 = some other :=
    Option.isSome_iff_exists.mp (by decide +kernel)
  exact ⟨taken, other, shown, otherShown, same_orders_same_book admitted othersAdmitted shares
    othersShares 1 same 5 taken shown other otherShown⟩

end ItchBookBuilder

end Titan
