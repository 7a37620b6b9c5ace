import Mathlib.Data.List.Nodup
import Mathlib.Data.Nat.Basic
import TitanEngine.Core.Types
import TitanEngine.Library.Ranked
import TitanEngine.Library.Grouping

/-!
# The price-time book

What a matcher is for, without any of its indexes. A side of the book is one list of orders in
the order in which they trade: best price first, and orders of one price in order of arrival.
An incoming order is filled greedily from the front of the other side as far as it crosses; a
remainder arrives behind the orders of its own price. `Sound` collects what holds of the books
that arise: the ids are distinct, nothing rests with quantity zero, and the sides do not cross.
-/

namespace Titan

open Library

/-- Position of a price in the order in which a side trades: high bids first, low asks first. -/
def Side.rank : Side → Price → Nat
  | .buy, price => 2 ^ 64 - 1 - price.toNat
  | .sell, price => price.toNat

/-- An order crosses the prices that rank at or before its own limit on the other side. -/
theorem crosses_iff_rank (side : Side) (limit price : Price) :
    crosses side limit price = true ↔
      side.opposite.rank price ≤ side.opposite.rank limit := by
  have boundLimit := limit.toNat_lt
  have boundPrice := price.toNat_lt
  cases side with
  | buy =>
    simp only [crosses, Side.opposite, Side.rank, decide_eq_true_eq, ge_iff_le,
      UInt64.le_iff_toNat_le]
  | sell =>
    simp only [crosses, Side.opposite, Side.rank, decide_eq_true_eq, UInt64.le_iff_toNat_le]
    omega

/-- The book: the orders of each side in the order in which they trade. -/
structure Book where
  /-- Buy orders. -/
  bids : List Order
  /-- Sell orders. -/
  asks : List Order
  deriving DecidableEq, Repr

namespace Book

/-- A book without orders. -/
def empty : Book := { bids := [], asks := [] }

/-- The orders of one side. -/
def side (book : Book) : Side → List Order
  | .buy => book.bids
  | .sell => book.asks

/-- Replace the orders of one side. -/
def setSide (book : Book) (side : Side) (orders : List Order) : Book :=
  match side with
  | .buy => { book with bids := orders }
  | .sell => { book with asks := orders }

@[simp] theorem side_setSide_same (book : Book) (side : Side) (orders : List Order) :
    (book.setSide side orders).side side = orders := by
  cases side <;> rfl

@[simp] theorem side_setSide_opposite (book : Book) (side : Side) (orders : List Order) :
    (book.setSide side.opposite orders).side side = book.side side := by
  cases side <;> rfl

@[simp] theorem side_opposite_setSide (book : Book) (side : Side) (orders : List Order) :
    (book.setSide side orders).side side.opposite = book.side side.opposite := by
  cases side <;> rfl

/-- Two books with the same sides are the same. -/
theorem ext_side {left right : Book} (same : ∀ side, left.side side = right.side side) :
    left = right := by
  cases left
  cases right
  exact congrArg₂ Book.mk (same .buy) (same .sell)

/-- A statement about a side follows from one about a chosen side and its opposite. -/
theorem forall_side {P : Side → Prop} (chosen : Side) (own : P chosen)
    (other : P chosen.opposite) : ∀ side, P side := by
  intro side
  cases chosen <;> cases side <;> assumption

end Book

/-- An order without its quantity: what a fill never changes. -/
def Order.shape (order : Order) : Order := { order with quantity := 0 }

/-- Orders of one shape agree in id, side and price. -/
theorem Order.fields_of_shape_eq {left right : Order} (same : left.shape = right.shape) :
    left.id = right.id ∧ left.side = right.side ∧ left.price = right.price :=
  ⟨(congrArg Order.id same : left.shape.id = _), (congrArg Order.side same : left.shape.side = _),
    (congrArg Order.price same : left.shape.price = _)⟩

/-- Orders of one shape differ in their quantity only. -/
theorem Order.eq_of_shape_eq {left right : Order} (same : left.shape = right.shape) :
    { left with quantity := right.quantity } = right :=
  congrArg (fun shape : Order => { shape with quantity := right.quantity }) same

/-- The trade of an incoming order with a resting one. -/
def tradeWith (taker : OrderId) (maker : Order) (quantity : Quantity) : Trade :=
  { incomingOrderId := taker, restingOrderId := maker.id, price := maker.price,
    quantity := quantity }

/-- The outcome of filling a quantity from a list of resting orders. -/
structure Fill where
  /-- The trades, in order. -/
  trades : List Trade
  /-- What rests afterwards. -/
  rest : List Order
  /-- What is left of the incoming quantity. -/
  left : Quantity
  deriving DecidableEq, Repr

/-- Greedy fill: consume the orders from the front, the last one perhaps in part. -/
def fill (taker : OrderId) : Quantity → List Order → Fill
  | quantity, [] => { trades := [], rest := [], left := quantity }
  | quantity, maker :: rest =>
    if quantity = 0 then { trades := [], rest := maker :: rest, left := 0 }
    else if maker.quantity ≤ quantity then
      let later := fill taker (quantity - maker.quantity) rest
      { trades := tradeWith taker maker maker.quantity :: later.trades
        rest := later.rest, left := later.left }
    else
      { trades := [tradeWith taker maker quantity]
        rest := { maker with quantity := maker.quantity - quantity } :: rest
        left := 0 }

/-- Greedy fill of the orders in front of the first one that `stops` it. -/
def sweep (taker : OrderId) (stops : Order → Bool) (quantity : Quantity) (makers : List Order) :
    Fill :=
  let filled := fill taker quantity (makers.takeWhile (fun maker => !stops maker))
  { filled with rest := filled.rest ++ makers.dropWhile (fun maker => !stops maker) }

section Sweep

variable {taker : OrderId} {stops : Order → Bool}

/-- Nothing is filled from no orders. -/
@[simp] theorem sweep_nil (quantity : Quantity) :
    sweep taker stops quantity [] = { trades := [], rest := [], left := quantity } := by
  simp [sweep, fill]

/-- Nothing is filled by no quantity. -/
@[simp] theorem sweep_zero (makers : List Order) :
    sweep taker stops 0 makers = { trades := [], rest := makers, left := 0 } := by
  cases taken : makers.takeWhile (fun maker => !stops maker) with
  | nil =>
    have split := List.takeWhile_append_dropWhile
      (p := fun maker => !stops maker) (l := makers)
    rw [taken, List.nil_append] at split
    simp [sweep, taken, fill, split]
  | cons first rest =>
    have split := List.takeWhile_append_dropWhile
      (p := fun maker => !stops maker) (l := makers)
    rw [taken] at split
    simp only [sweep, taken, fill, ↓reduceIte, split]

/-- Nothing is filled past a stop. -/
theorem sweep_stop {maker : Order} (stop : stops maker = true) (quantity : Quantity)
    (rest : List Order) :
    sweep taker stops quantity (maker :: rest) =
      { trades := [], rest := maker :: rest, left := quantity } := by
  simp [sweep, stop, fill]

/-- An order that fits in the quantity is consumed. -/
theorem sweep_consume {maker : Order} (stop : stops maker = false) {quantity : Quantity}
    (positive : quantity ≠ 0) (fits : maker.quantity ≤ quantity) (rest : List Order) :
    sweep taker stops quantity (maker :: rest) =
      let later := sweep taker stops (quantity - maker.quantity) rest
      { trades := tradeWith taker maker maker.quantity :: later.trades
        rest := later.rest, left := later.left } := by
  simp [sweep, stop, fill, positive, fits]

/-- An order larger than the quantity is reduced. -/
theorem sweep_reduce {maker : Order} (stop : stops maker = false) {quantity : Quantity}
    (positive : quantity ≠ 0) (larger : ¬ maker.quantity ≤ quantity) (rest : List Order) :
    sweep taker stops quantity (maker :: rest) =
      { trades := [tradeWith taker maker quantity]
        rest := { maker with quantity := maker.quantity - quantity } :: rest, left := 0 } := by
  simp [sweep, stop, fill, positive, larger]

/-- A sweep that leaves quantity over has consumed every order up to the stop. -/
theorem sweep_rest_of_left {quantity : Quantity} {makers : List Order}
    (left : (sweep taker stops quantity makers).left ≠ 0) :
    (sweep taker stops quantity makers).rest =
      makers.dropWhile (fun maker => !stops maker) := by
  induction makers generalizing quantity with
  | nil => simp
  | cons maker rest ih =>
    by_cases zero : quantity = 0
    · simp [zero] at left
    cases stop : stops maker with
    | true => simp [sweep_stop stop, stop]
    | false =>
      by_cases fits : maker.quantity ≤ quantity
      · rw [sweep_consume stop zero fits] at left ⊢
        simpa [stop] using ih left
      · simp [sweep_reduce stop zero fits] at left

/-- What a sweep leaves resting is a tail of the orders, up to the quantity of its head. -/
theorem sweep_rest_suffix (quantity : Quantity) (makers : List Order) :
    (sweep taker stops quantity makers).rest.map Order.shape <:+ makers.map Order.shape := by
  induction makers generalizing quantity with
  | nil => simp
  | cons maker rest ih =>
    by_cases zero : quantity = 0
    · simp [zero]
    cases stop : stops maker with
    | true => simp [sweep_stop stop]
    | false =>
      by_cases fits : maker.quantity ≤ quantity
      · rw [sweep_consume stop zero fits]
        exact (ih _).trans (List.suffix_cons _ _)
      · rw [sweep_reduce stop zero fits]
        exact List.suffix_refl _

/-- Whatever rests after a sweep rested before, with the same id, side, price and account. -/
theorem exists_mem_of_mem_sweep_rest {quantity : Quantity} {makers : List Order} {order : Order}
    (member : order ∈ (sweep taker stops quantity makers).rest) :
    ∃ maker ∈ makers, { maker with quantity := order.quantity } = order := by
  have inside := (sweep_rest_suffix quantity makers).subset
    (List.mem_map.mpr ⟨order, member, rfl⟩)
  obtain ⟨maker, old, equal⟩ := List.mem_map.mp inside
  exact ⟨maker, old, Order.eq_of_shape_eq equal⟩

/-- A sweep of positive orders leaves positive orders. -/
theorem sweep_rest_positive (quantity : Quantity) {makers : List Order}
    (positive : ∀ maker ∈ makers, maker.quantity ≠ 0) :
    ∀ maker ∈ (sweep taker stops quantity makers).rest, maker.quantity ≠ 0 := by
  induction makers generalizing quantity with
  | nil => simp
  | cons maker rest ih =>
    have tail := fun other member => positive other (List.mem_cons_of_mem maker member)
    by_cases zero : quantity = 0
    · simpa [zero] using positive
    cases stop : stops maker with
    | true => rw [sweep_stop stop]; exact positive
    | false =>
      by_cases fits : maker.quantity ≤ quantity
      · rw [sweep_consume stop zero fits]
        exact ih _ tail
      · rw [sweep_reduce stop zero fits]
        intro other member
        rcases List.mem_cons.mp member with rfl | member
        · simp only
          grind
        · exact tail other member

end Sweep

namespace Book

/-- An order arrives behind the orders of its own price. -/
def rest (book : Book) (order : Order) : Book :=
  book.setSide order.side
    (arrive (fun other => order.side.rank other.price) order (book.side order.side))

/-- An incoming order trades as far as it crosses, and its remainder rests. -/
def submit (book : Book) (order : Order) : List Trade × Book :=
  let filled := sweep order.id (fun maker => !crosses order.side order.price maker.price)
    order.quantity (book.side order.side.opposite)
  let swept := book.setSide order.side.opposite filled.rest
  (filled.trades,
    if filled.left = 0 then swept else swept.rest { order with quantity := filled.left })

/-- An order leaves the book. -/
def cancel (book : Book) (id : OrderId) : Book where
  bids := book.bids.filter (fun order => order.id != id)
  asks := book.asks.filter (fun order => order.id != id)

@[simp] theorem side_cancel (book : Book) (id : OrderId) (side : Side) :
    (book.cancel id).side side = (book.side side).filter (fun order => order.id != id) := by
  cases side <;> rfl

/-- No order with this id rests. -/
def Fresh (book : Book) (id : OrderId) : Prop := ∀ side, ∀ order ∈ book.side side, order.id ≠ id

/-- What holds of every book that arises. -/
structure Sound (book : Book) : Prop where
  /-- Each side stands in the order in which it trades. -/
  ranked : ∀ side, Ranked (fun order : Order => side.rank order.price) (book.side side)
  /-- Orders rest on their own side. -/
  sided : ∀ side, ∀ order ∈ book.side side, order.side = side
  /-- Nothing rests with quantity zero. -/
  positive : ∀ side, ∀ order ∈ book.side side, order.quantity ≠ 0
  /-- The ids of one side are distinct. -/
  distinct : ∀ side, ((book.side side).map (fun order => order.id)).Nodup
  /-- No id rests on both sides. -/
  apart : ∀ bid ∈ book.bids, ∀ ask ∈ book.asks, bid.id ≠ ask.id
  /-- The best bid is below the best ask. -/
  uncrossed : ∀ bid ∈ book.bids, ∀ ask ∈ book.asks, bid.price < ask.price

/-- The empty book is sound. -/
theorem sound_empty : empty.Sound where
  ranked side := by cases side <;> exact List.Pairwise.nil
  sided side := by cases side <;> simp [empty, Book.side]
  positive side := by cases side <;> simp [empty, Book.side]
  distinct side := by cases side <;> simp [empty, Book.side]
  apart := by simp [empty]
  uncrossed := by simp [empty]

/-- No order crosses an order of the other side. -/
theorem Sound.not_crosses {book : Book} (sound : book.Sound) {side : Side} {order other : Order}
    (own : order ∈ book.side side) (opposite : other ∈ book.side side.opposite) :
    crosses side order.price other.price = false := by
  cases side with
  | buy =>
    have below := sound.uncrossed order own other opposite
    simp only [crosses, decide_eq_false_iff_not, ge_iff_le]
    exact UInt64.not_le.mpr below
  | sell =>
    have below := sound.uncrossed other opposite order own
    simp only [crosses, decide_eq_false_iff_not]
    exact UInt64.not_le.mpr below

/-- Orders with one id are one order. -/
theorem Sound.eq_of_id_eq {book : Book} (sound : book.Sound) {left right : Order}
    {sideLeft sideRight : Side} (memberLeft : left ∈ book.side sideLeft)
    (memberRight : right ∈ book.side sideRight) (same : left.id = right.id) : left = right := by
  cases sideLeft <;> cases sideRight
  · exact List.inj_on_of_nodup_map (sound.distinct .buy) memberLeft memberRight same
  · exact absurd same (sound.apart left memberLeft right memberRight)
  · exact absurd same.symm (sound.apart right memberRight left memberLeft)
  · exact List.inj_on_of_nodup_map (sound.distinct .sell) memberLeft memberRight same

/-- Orders of opposite sides have different ids. -/
theorem Sound.id_ne {book : Book} (sound : book.Sound) {side : Side} {order other : Order}
    (own : order ∈ book.side side) (opposite : other ∈ book.side side.opposite) :
    order.id ≠ other.id := by
  cases side with
  | buy => exact sound.apart order own other opposite
  | sell => exact (sound.apart other opposite order own).symm

/-- Cancelling an id changes a side only where it rests. -/
theorem filter_id_eq_self {orders : List Order} {id : OrderId}
    (fresh : ∀ order ∈ orders, order.id ≠ id) :
    orders.filter (fun order => order.id != id) = orders := by
  rw [List.filter_eq_self]
  intro order member
  simpa using fresh order member

/-- Cancelling the head of a side, whatever its quantity, leaves the rest of the side. -/
theorem Sound.cancel_head {book : Book} (sound : book.Sound) {side : Side} {maker head : Order}
    {rest : List Order} (orders : book.side side = maker :: rest) (same : head.id = maker.id) :
    (book.setSide side (head :: rest)).cancel maker.id = book.setSide side rest := by
  have inside : maker ∈ book.side side := orders ▸ List.mem_cons_self
  refine ext_side (forall_side side ?_ ?_)
  · have distinct := sound.distinct side
    rw [orders, List.map_cons, List.nodup_cons] at distinct
    rw [side_cancel, side_setSide_same, side_setSide_same, List.filter_cons_of_neg (by simp [same])]
    exact filter_id_eq_self (fun other member equal =>
      distinct.1 (List.mem_map.mpr ⟨other, member, equal⟩))
  · rw [side_cancel, side_opposite_setSide, side_opposite_setSide]
    exact filter_id_eq_self (fun other member => (sound.id_ne inside member).symm)

/-- Replacing a side by one that keeps its orders up to quantities keeps the book sound. -/
theorem Sound.shrink {book : Book} (sound : book.Sound) (side : Side) {orders : List Order}
    (sub : (orders.map Order.shape).Sublist ((book.side side).map Order.shape))
    (positive : ∀ order ∈ orders, order.quantity ≠ 0) : (book.setSide side orders).Sound := by
  have old : ∀ order ∈ orders, ∃ before ∈ book.side side,
      before.id = order.id ∧ before.side = order.side ∧ before.price = order.price := by
    intro order member
    obtain ⟨before, inside, equal⟩ :=
      List.mem_map.mp (sub.subset (List.mem_map.mpr ⟨order, member, rfl⟩))
    exact ⟨before, inside, Order.fields_of_shape_eq equal⟩
  constructor
  · refine forall_side side ?_ (by simpa using sound.ranked side.opposite)
    rw [side_setSide_same]
    have ranks : ((book.side side).map Order.shape).Pairwise
        (fun first later => side.rank first.price ≤ side.rank later.price) :=
      List.pairwise_map.mpr (sound.ranked side)
    have fewer := ranks.sublist sub
    rw [List.pairwise_map] at fewer
    exact fewer
  · refine forall_side side ?_ (by simpa using sound.sided side.opposite)
    rw [side_setSide_same]
    intro order member
    obtain ⟨before, inside, _, same, _⟩ := old order member
    exact same ▸ sound.sided side before inside
  · exact forall_side side (by simpa using positive) (by simpa using sound.positive side.opposite)
  · refine forall_side side ?_ (by simpa using sound.distinct side.opposite)
    rw [side_setSide_same]
    have ids : (((book.side side).map Order.shape).map Order.id).Nodup := by
      rw [List.map_map]
      exact sound.distinct side
    have fewer := (sub.map Order.id).nodup ids
    rw [List.map_map] at fewer
    exact fewer
  · cases side with
    | buy =>
      intro bid member ask other
      obtain ⟨before, inside, same, _⟩ := old bid member
      exact same ▸ sound.apart before inside ask other
    | sell =>
      intro bid other ask member
      obtain ⟨before, inside, same, _⟩ := old ask member
      exact same ▸ sound.apart bid other before inside
  · cases side with
    | buy =>
      intro bid member ask other
      obtain ⟨before, inside, _, _, same⟩ := old bid member
      exact same ▸ sound.uncrossed before inside ask other
    | sell =>
      intro bid other ask member
      obtain ⟨before, inside, _, _, same⟩ := old ask member
      exact same ▸ sound.uncrossed bid other before inside

/-- Cancelling keeps a book sound. -/
theorem Sound.cancel {book : Book} (sound : book.Sound) (id : OrderId) :
    (book.cancel id).Sound := by
  have subset : ∀ side, ((book.cancel id).side side).Sublist (book.side side) := by
    intro side
    rw [side_cancel]
    exact List.filter_sublist
  constructor
  · exact fun side => (sound.ranked side).sublist (subset side)
  · exact fun side order member => sound.sided side order ((subset side).subset member)
  · exact fun side order member => sound.positive side order ((subset side).subset member)
  · exact fun side => ((subset side).map _).nodup (sound.distinct side)
  · exact fun bid memberBid ask memberAsk =>
      sound.apart bid ((subset .buy).subset memberBid) ask ((subset .sell).subset memberAsk)
  · exact fun bid memberBid ask memberAsk =>
      sound.uncrossed bid ((subset .buy).subset memberBid) ask ((subset .sell).subset memberAsk)

/-- The orders on the side of an arrival are the old ones and the arrival. -/
theorem mem_side_rest {book : Book} {order other : Order} {side : Side}
    (own : order.side = side) :
    other ∈ (book.rest order).side side ↔ other = order ∨ other ∈ book.side side := by
  subst own
  rw [rest, side_setSide_same, mem_arrive]

/-- An arrival leaves the other side alone. -/
theorem side_opposite_rest (book : Book) (order : Order) :
    (book.rest order).side order.side.opposite = book.side order.side.opposite := by
  rw [rest, side_opposite_setSide]

/-- A fresh order that crosses nothing may rest. -/
theorem Sound.rest {book : Book} (sound : book.Sound) {order : Order}
    (fresh : book.Fresh order.id) (positive : order.quantity ≠ 0)
    (clear : ∀ other ∈ book.side order.side.opposite,
      crosses order.side order.price other.price = false) : (book.rest order).Sound := by
  have opposite := side_opposite_rest book order
  constructor
  · refine forall_side order.side ?_ (by rw [opposite]; exact sound.ranked _)
    rw [Book.rest, side_setSide_same]
    exact (sound.ranked order.side).arrive order
  · refine forall_side order.side ?_ (by rw [opposite]; exact sound.sided _)
    intro other member
    rcases (mem_side_rest rfl).mp member with rfl | member
    · rfl
    · exact sound.sided _ other member
  · refine forall_side order.side ?_ (by rw [opposite]; exact sound.positive _)
    intro other member
    rcases (mem_side_rest rfl).mp member with rfl | member
    · exact positive
    · exact sound.positive _ other member
  · refine forall_side order.side ?_ (by rw [opposite]; exact sound.distinct _)
    rw [Book.rest, side_setSide_same]
    refine (((arrive_perm order (book.side order.side)).map _).nodup_iff).mpr ?_
    refine List.nodup_cons.mpr ⟨?_, sound.distinct order.side⟩
    intro member
    obtain ⟨other, inside, equal⟩ := List.mem_map.mp member
    exact fresh order.side other inside equal
  · intro bid memberBid ask memberAsk
    cases own : order.side with
    | buy =>
      rw [own] at opposite
      have old : ask ∈ book.side .sell := opposite ▸ memberAsk
      rcases (mem_side_rest own).mp memberBid with rfl | memberBid
      · exact (fresh .sell ask old).symm
      · exact sound.apart bid memberBid ask old
    | sell =>
      rw [own] at opposite
      have old : bid ∈ book.side .buy := opposite ▸ memberBid
      rcases (mem_side_rest own).mp memberAsk with rfl | memberAsk
      · exact fresh .buy bid old
      · exact sound.apart bid old ask memberAsk
  · intro bid memberBid ask memberAsk
    cases own : order.side with
    | buy =>
      rw [own] at opposite clear
      have old : ask ∈ book.side .sell := opposite ▸ memberAsk
      rcases (mem_side_rest own).mp memberBid with rfl | memberBid
      · simpa [crosses] using clear ask old
      · exact sound.uncrossed bid memberBid ask old
    | sell =>
      rw [own] at opposite clear
      have old : bid ∈ book.side .buy := opposite ▸ memberBid
      rcases (mem_side_rest own).mp memberAsk with rfl | memberAsk
      · simpa [crosses] using clear bid old
      · exact sound.uncrossed bid old ask memberAsk

/-- On a sound side, whatever stands behind an order that is not crossed is not crossed. -/
theorem Sound.dropWhile_crosses {book : Book} (sound : book.Sound) (side : Side) (limit : Price)
    {order : Order} (member : order ∈ (book.side side.opposite).dropWhile
      (fun maker => !!crosses side limit maker.price)) :
    crosses side limit order.price = false := by
  have ranked := sound.ranked side.opposite
  generalize book.side side.opposite = makers at member ranked
  induction makers with
  | nil => simp at member
  | cons maker rest ih =>
    obtain ⟨front, tail⟩ := List.pairwise_cons.mp ranked
    cases cross : crosses side limit maker.price with
    | true =>
      simp only [List.dropWhile_cons, cross, Bool.not_true, Bool.not_false, ↓reduceIte] at member
      exact ih member tail
    | false =>
      simp only [List.dropWhile_cons, cross, Bool.not_false, Bool.not_true, Bool.false_eq_true,
        ↓reduceIte, List.mem_cons] at member
      rcases member with rfl | member
      · exact cross
      · have behind : side.opposite.rank maker.price ≤ side.opposite.rank order.price :=
          front order member
        have beyond : ¬ side.opposite.rank maker.price ≤ side.opposite.rank limit := by
          rw [← crosses_iff_rank, cross]
          simp
        rw [← Bool.not_eq_true, crosses_iff_rank]
        omega

/-- On a sound side, an order that crosses anything crosses the head. -/
theorem Sound.crosses_head {book : Book} (sound : book.Sound) {side : Side} {limit : Price}
    {maker other : Order} {rest : List Order} (orders : book.side side.opposite = maker :: rest)
    (member : other ∈ book.side side.opposite)
    (reach : crosses side limit other.price = true) : crosses side limit maker.price = true := by
  have ranked := sound.ranked side.opposite
  rw [orders] at ranked member
  rw [crosses_iff_rank] at reach ⊢
  rcases List.mem_cons.mp member with rfl | member
  · exact reach
  · exact le_trans ((List.pairwise_cons.mp ranked).1 other member) reach

/-- A sweep of the other side brings in no id. -/
theorem fresh_sweep {book : Book} {order : Order} (fresh : book.Fresh order.id)
    (stops : Order → Bool) (quantity : Quantity) :
    (book.setSide order.side.opposite (sweep order.id stops quantity
      (book.side order.side.opposite)).rest).Fresh order.id := by
  refine forall_side order.side ?_ ?_
  · simpa using fresh order.side
  · intro other member
    rw [side_setSide_same] at member
    obtain ⟨maker, inside, equal⟩ := exists_mem_of_mem_sweep_rest member
    rw [← equal]
    exact fresh _ maker inside

/-- Freshness depends on the ids of the sides only. -/
theorem fresh_congr {left right : Book}
    (same : ∀ side, (left.side side).map Order.id = (right.side side).map Order.id)
    (id : OrderId) : left.Fresh id ↔ right.Fresh id := by
  have absent : ∀ book : Book, book.Fresh id ↔
      ∀ side, id ∉ (book.side side).map Order.id := by
    intro book
    simp only [Fresh, List.mem_map, not_exists, not_and]
  rw [absent, absent]
  simp only [same]

/-- A cancelled id is fresh, and no other id becomes so. -/
theorem fresh_cancel {book : Book} {id other : OrderId} :
    (book.cancel id).Fresh other ↔ other = id ∨ book.Fresh other := by
  constructor
  · intro fresh
    by_cases same : other = id
    · exact .inl same
    · right
      intro side order member equal
      refine fresh side order ?_ equal
      rw [side_cancel, List.mem_filter]
      exact ⟨member, by simpa [equal] using same⟩
  · intro either side order member equal
    rw [side_cancel, List.mem_filter] at member
    rcases either with rfl | fresh
    · simp [equal] at member
    · exact fresh side order member.1 equal

/-- The id of an arrival is no longer fresh, and every other id is as before. -/
theorem fresh_rest {book : Book} {order : Order} {id : OrderId} :
    (book.rest order).Fresh id ↔ id ≠ order.id ∧ book.Fresh id := by
  constructor
  · intro fresh
    have own : order ∈ (book.rest order).side order.side := (mem_side_rest rfl).mpr (.inl rfl)
    refine ⟨(fresh order.side order own).symm, ?_⟩
    refine forall_side order.side ?_ ?_
    · exact fun other member => fresh order.side other ((mem_side_rest rfl).mpr (.inr member))
    · intro other member
      rw [← side_opposite_rest] at member
      exact fresh _ other member
  · rintro ⟨differs, fresh⟩
    refine forall_side order.side ?_ ?_
    · intro other member
      rcases (mem_side_rest rfl).mp member with rfl | member
      · exact differs.symm
      · exact fresh _ other member
    · intro other member
      rw [side_opposite_rest] at member
      exact fresh _ other member

/-- Putting a side back changes nothing. -/
@[simp] theorem setSide_side (book : Book) (side : Side) :
    book.setSide side (book.side side) = book := by
  cases side <;> rfl

/-- Matching a fresh order keeps a book sound. -/
theorem Sound.submit {book : Book} (sound : book.Sound) {order : Order}
    (fresh : book.Fresh order.id) : (book.submit order).2.Sound := by
  let stops : Order → Bool := fun maker => !crosses order.side order.price maker.price
  let filled := sweep order.id stops order.quantity (book.side order.side.opposite)
  have swept : (book.setSide order.side.opposite filled.rest).Sound :=
    sound.shrink _ (sweep_rest_suffix _ _).sublist
      (sweep_rest_positive _ (sound.positive order.side.opposite))
  change (if filled.left = 0 then book.setSide order.side.opposite filled.rest
    else (book.setSide order.side.opposite filled.rest).rest
      { order with quantity := filled.left }).Sound
  split
  · exact swept
  · rename_i left
    refine swept.rest (fresh_sweep fresh _ _) left ?_
    intro other member
    rw [side_setSide_same, sweep_rest_of_left left] at member
    exact sound.dropWhile_crosses order.side order.price member

end Book

end Titan
