import TitanEngine.Exchange.OrderManager
import TitanEngine.Spec.Refinement

/-!
# What an order manager keeps

A ledger is an order manager without its matcher and its indexes: the price-time book, the ids
that were ever accepted and the latest record of each. Matching is one greedy sweep of the other
side, stopped by the limit or by an order of the same account; a remainder rests unless an order
it crosses is left. An amendment that keeps the price and does not grow is made in place, and
its whole level is read back from the records; any other amendment moves to the back of its
level.
-/

namespace Titan

open Library

/-- A resting order that ends the sweep of an incoming one: it is out of reach, or it belongs
to the same account. -/
def Order.stoppedBy (order maker : Order) : Bool :=
  !crosses order.side order.matchPrice maker.price ||
    (decide (order.accountId ≠ 0) && decide (maker.accountId = order.accountId))

/-- The records after a trade: the resting order loses the traded quantity. -/
def settle (records : IdMap Order) (trade : Trade) : IdMap Order :=
  match records[trade.restingOrderId]? with
  | none => records
  | some snapshot =>
    let left := snapshot.quantity - trade.quantity
    records.insert trade.restingOrderId { snapshot with
      quantity := left
      status := if left = 0 then .filled else .partiallyFilled }

/-- A record agrees with a resting order but for the lifecycle status. -/
def Order.Agrees (record order : Order) : Prop := { record with status := order.status } = order

namespace Order.Agrees

variable {record order : Order}

/-- What agrees has one id. -/
theorem id (agrees : record.Agrees order) : record.id = order.id := by
  have same := congrArg Order.id agrees
  exact same

/-- What agrees is on one side. -/
theorem side (agrees : record.Agrees order) : record.side = order.side := by
  have same := congrArg Order.side agrees
  exact same

/-- What agrees has one price. -/
theorem price (agrees : record.Agrees order) : record.price = order.price := by
  have same := congrArg Order.price agrees
  exact same

/-- What agrees has one quantity. -/
theorem quantity (agrees : record.Agrees order) : record.quantity = order.quantity := by
  have same := congrArg Order.quantity agrees
  exact same

/-- What agrees has one owner. -/
theorem accountId (agrees : record.Agrees order) : record.accountId = order.accountId := by
  have same := congrArg Order.accountId agrees
  exact same

/-- Taking a quantity off both sides keeps them in agreement. -/
theorem reduce (agrees : record.Agrees order) (left : Quantity) (status : OrderStatus) :
    ({ record with quantity := left, status := status } : Order).Agrees
      { order with quantity := left } := by
  have same := congrArg (fun other : Order => { other with quantity := left }) agrees
  exact same

end Order.Agrees

/-- The book, the accepted ids and the records. -/
structure Ledger where
  /-- What rests. -/
  book : Book
  /-- Ids that were accepted once. -/
  known : IdSet
  /-- The latest record of each accepted id. -/
  records : IdMap Order

namespace Ledger

/-- Nothing was accepted yet. -/
def empty : Ledger := { book := Book.empty, known := ∅, records := ∅ }

/-- An order with this id rests. -/
def holds (ledger : Ledger) (id : OrderId) : Bool :=
  (ledger.book.bids ++ ledger.book.asks).any (fun order => order.id == id)

/-- The record of an id. -/
def recordOf (ledger : Ledger) (id : OrderId) : Order := ledger.records.getD id default

/-- The order would trade with an order that rests on the other side. -/
def wouldCross (book : Book) (order : Order) : Bool :=
  (book.side order.side.opposite).any (fun other => crosses order.side order.price other.price)

/-- Levels of the other side show whether a limit crosses anything: its best level decides. -/
def crossesBest {β : Type} (side : Side) (price : Price) (levels : PriceMap β) : Bool :=
  (bestLevel side.opposite levels).any (fun level => crosses side price level.1)

/-- Whatever levels show the other side, an order crosses the best of them exactly when it
crosses an order. -/
theorem crossesBest_eq {book : Book} (sound : book.Sound) (order : Order) {β : Type}
    {view : List Order → β} {levels : PriceMap β}
    (grouped : Groups (fun order : Order => order.price) view (book.side order.side.opposite)
      levels) : crossesBest order.side order.price levels = wouldCross book order := by
  unfold crossesBest wouldCross
  cases orders : book.side order.side.opposite with
  | nil =>
    rw [orders] at grouped
    rw [Book.bestLevel_of_nil grouped]
    rfl
  | cons maker rest =>
    rw [sound.bestLevel_of_cons orders grouped]
    show crosses order.side order.price maker.price = _
    cases reach : crosses order.side order.price maker.price with
    | true => simp [reach]
    | false =>
      rw [eq_comm, List.any_eq_false]
      intro other member crossed
      have head := sound.crosses_head orders (orders ▸ member) crossed
      rw [reach] at head
      exact Bool.false_ne_true head

/-- The sweep of an incoming order. -/
def fillOf (ledger : Ledger) (order : Order) : Fill :=
  sweep order.id order.stoppedBy order.quantity (ledger.book.side order.side.opposite)

/-- The book once the sweep of an order is done. -/
def swept (ledger : Ledger) (order : Order) : Book :=
  ledger.book.setSide order.side.opposite (ledger.fillOf order).rest

/-- Whether the remainder of an order rests. -/
def rests (ledger : Ledger) (order : Order) : Bool :=
  order.mayRest && decide ((ledger.fillOf order).left ≠ 0) &&
    !wouldCross (ledger.swept order) order

/-- What of an order rests, if anything does. -/
def remainder (ledger : Ledger) (order : Order) : Order :=
  let left := (ledger.fillOf order).left
  { order with
    quantity := left
    status := if order.quantity - left > 0 then .partiallyFilled else .new }

/-- An accepted order is matched. -/
def enter (ledger : Ledger) (order : Order) : Ledger :=
  let filled := ledger.fillOf order
  { book := if ledger.rests order then (ledger.swept order).rest (ledger.remainder order)
      else ledger.swept order
    known := ledger.known.insert order.id
    records := (filled.trades.foldl settle ledger.records).insert order.id { order with
      quantity := filled.left
      status := OrderManager.statusAfter filled.left (order.quantity - filled.left)
        (ledger.rests order) } }

/-- `matchOrder`. -/
def matchOrder (ledger : Ledger) (order : Order) : MatchResult × Ledger :=
  match validateNewOrder order ledger.known with
  | .none => ({ trades := (ledger.fillOf order).trades, accept := .ok }, ledger.enter order)
  | reason => ({ trades := [], accept := .reject reason }, ledger)

/-- `addOrder`. -/
def addOrder (ledger : Ledger) (order : Order) : AcceptResult × Ledger :=
  if order.isMarketOrIoc then (.reject .invalidOrderType, ledger)
  else
    match validateNewOrder order ledger.known with
    | .none => (.ok, ledger.enter order)
    | reason => (.reject reason, ledger)

/-- `cancelOrder`. -/
def cancelOrder (ledger : Ledger) (id : OrderId) : AcceptResult × Ledger :=
  if ledger.holds id then
    (.ok, { ledger with
      book := ledger.book.cancel id
      records := ledger.records.insert id { ledger.recordOf id with status := .cancelled } })
  else (.reject .unknownOrder, ledger)

/-- An order of one level is read back from the records. -/
def rereadOrder (records : IdMap Order) (price : Price) (order : Order) : Order :=
  if order.price = price then records.getD order.id default else order

/-- The book with one level read back from the records. -/
def reread (book : Book) (records : IdMap Order) (side : Side) (price : Price) : Book :=
  book.setSide side ((book.side side).map (rereadOrder records price))

/-- An accepted amendment. -/
def amend (ledger : Ledger) (newOrder : Order) : Ledger :=
  let existing := ledger.recordOf newOrder.id
  let records := ledger.records.insert newOrder.id newOrder
  { book :=
      if newOrder.price = existing.price ∧ newOrder.quantity ≤ existing.quantity then
        reread ledger.book records newOrder.side newOrder.price
      else (ledger.book.cancel newOrder.id).rest newOrder
    known := ledger.known
    records := records }

/-- `cancelReplace`. -/
def cancelReplace (ledger : Ledger) (oldId : OrderId) (newOrder : Order) :
    AcceptResult × Ledger :=
  if !ledger.holds oldId then (.reject .orderNotResting, ledger)
  else if newOrder.id ≠ oldId then (.reject .invalidReplace, ledger)
  else if newOrder.isMarketOrIoc then (.reject .invalidReplace, ledger)
  else
    match validateNewOrder newOrder (ledger.known.erase oldId) with
    | .none =>
      if wouldCross ledger.book newOrder then (.reject .replaceWouldCross, ledger)
      else (.ok, ledger.amend { newOrder with status := .new })
    | reason => (.reject reason, ledger)

/-- Whatever rests agrees with its record. -/
def Covers (records : IdMap Order) (book : Book) : Prop :=
  ∀ side, ∀ order ∈ book.side side, ∃ record, records[order.id]? = some record ∧
    record.Agrees order

/-- What holds of every ledger that arises. -/
structure Consistent (ledger : Ledger) : Prop where
  /-- The book is sound. -/
  sound : ledger.book.Sound
  /-- Whatever rests is recorded. -/
  covers : Covers ledger.records ledger.book
  /-- Whatever rests was accepted. -/
  known : ∀ side, ∀ order ∈ ledger.book.side side, order.id ∈ ledger.known

/-- The empty ledger is consistent. -/
theorem consistent_empty : empty.Consistent where
  sound := Book.sound_empty
  covers side order member := by cases side <;> simp [empty, Book.empty, Book.side] at member
  known side order member := by cases side <;> simp [empty, Book.empty, Book.side] at member

/-- An id rests exactly when it is not fresh. -/
theorem holds_iff (ledger : Ledger) (id : OrderId) :
    ledger.holds id = true ↔ ¬ ledger.book.Fresh id := by
  simp only [holds, List.any_append, Bool.or_eq_true, List.any_eq_true, beq_iff_eq, Book.Fresh,
    not_forall, not_not]
  constructor
  · rintro (⟨order, member, equal⟩ | ⟨order, member, equal⟩)
    · exact ⟨.buy, order, member, equal⟩
    · exact ⟨.sell, order, member, equal⟩
  · rintro ⟨side, order, member, equal⟩
    cases side with
    | buy => exact .inl ⟨order, member, equal⟩
    | sell => exact .inr ⟨order, member, equal⟩

/-- An id that is held is that of an order that rests. -/
theorem mem_of_holds {ledger : Ledger} {id : OrderId} (held : ledger.holds id = true) :
    ∃ side, ∃ order ∈ ledger.book.side side, order.id = id := by
  rw [holds_iff, Book.Fresh] at held
  push Not at held
  exact held

/-- Whatever rests after a sweep rested before, up to its quantity. -/
theorem mem_swept {ledger : Ledger} {order other : Order} {side : Side}
    (member : other ∈ (ledger.swept order).side side) :
    ∃ maker ∈ ledger.book.side side, { maker with quantity := other.quantity } = other := by
  have cases_ : ∀ side, ∀ other ∈ (ledger.swept order).side side,
      ∃ maker ∈ ledger.book.side side, { maker with quantity := other.quantity } = other := by
    refine Book.forall_side order.side.opposite ?_ ?_
    · intro other member
      rw [swept, Book.side_setSide_same] at member
      exact exists_mem_of_mem_sweep_rest member
    · intro other member
      rw [swept, Book.side_opposite_setSide] at member
      exact ⟨other, member, rfl⟩
  exact cases_ side other member

end Ledger

end Titan
