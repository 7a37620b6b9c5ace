import TitanEngine.Feed.LiveOrders
import TitanEngine.Library.Machine

/-!
# Orders and levels of the feed's book

The feed's book keeps its orders and its levels in two maps that no code compares. As long as no
message introduces a reference that is live, each level is the sum of the orders behind it, for
fewer than 2^32 live orders of a locate and whatever the messages take off them. When nothing is
introduced without shares, a level is there exactly when an order is.
-/

namespace Titan

open Library Std

/-- The first of two prices of a side comes before the second when it is the better one. -/
def Side.Better (side : Side) (left right : Price) : Prop :=
  match side with
  | .buy => right < left
  | .sell => left < right

/-- The shares of live orders by side and price. -/
def sharesOf (orders : IdMap RestingOrder) : Side × Price → Nat :=
  tally (fun entry => (entry.2.side, entry.2.price)) (fun entry => entry.2.remainingShares)
    orders.toList

/-- A new order adds its shares. -/
theorem sharesOf_insert {orders : IdMap RestingOrder} {ref : OrderRefNumber} (new : ref ∉ orders)
    (order : RestingOrder) :
    sharesOf (orders.insert ref order) =
      Function.update (sharesOf orders) (order.side, order.price)
        (sharesOf orders (order.side, order.price) + order.remainingShares.toNat) := by
  unfold sharesOf
  rw [tally_perm (toList_insert_perm new), tally_cons]

/-- A live order stands beside the shares that are left without it. -/
theorem sharesOf_erase {orders : IdMap RestingOrder} {ref : OrderRefNumber}
    {order : RestingOrder} (live : orders[ref]? = some order) :
    sharesOf orders =
      Function.update (sharesOf (orders.erase ref)) (order.side, order.price)
        (sharesOf (orders.erase ref) (order.side, order.price) + order.remainingShares.toNat) := by
  unfold sharesOf
  rw [tally_perm (toList_perm_erase live), tally_cons]

/-- A live order covers no more shares than there are at its price. -/
theorem remainingShares_le {orders : IdMap RestingOrder} {ref : OrderRefNumber}
    {order : RestingOrder} (live : orders[ref]? = some order) :
    order.remainingShares.toNat ≤ sharesOf orders (order.side, order.price) := by
  rw [sharesOf_erase live, Function.update_self]
  exact Nat.le_add_left _ _

namespace SymbolBook

variable {book : SymbolBook}

/-- The shares of the live orders of a side and a price. -/
def liveShares (book : SymbolBook) (side : Side) (price : Price) : Nat :=
  sharesOf book.orders (side, price)

/-- The shares of one side once those of one side and price changed. -/
theorem update_side (shares : Side × Price → Nat) (side other : Side) (price : Price)
    (amount : Nat) :
    (fun at_ => Function.update shares (side, price) amount (other, at_)) =
      if other = side then Function.update (fun at_ => shares (side, at_)) price amount
      else fun at_ => shares (other, at_) := by
  funext at_
  by_cases own : other = side
  · subst own
    rw [if_pos rfl]
    by_cases here : at_ = price
    · subst here
      rw [Function.update_self, Function.update_self]
    · rw [Function.update_of_ne here, Function.update_of_ne (by simpa using here)]
  · rw [if_neg own, Function.update_of_ne (fun same => own (congrArg Prod.fst same))]

/-- A new order adds its shares at its price. -/
theorem liveShares_addOrder {ref : OrderRefNumber} (new : ref ∉ book.orders) (side other : Side)
    (shares : Quantity) (price : Price) :
    (book.addOrder ref side shares price).liveShares other =
      if other = side then
        Function.update (book.liveShares side) price (book.liveShares side price + shares.toNat)
      else book.liveShares other := by
  unfold liveShares
  rw [orders_addOrder, sharesOf_insert new]
  exact update_side _ side other price _

/-- What is taken off a live order is taken off its price. -/
theorem liveShares_reduceOrder {ref : OrderRefNumber} {resting : RestingOrder}
    (live : book.orders[ref]? = some resting) {taken : Quantity}
    (covered : taken ≤ resting.remainingShares) (other : Side) :
    (book.reduceOrder ref taken).liveShares other =
      if other = resting.side then
        Function.update (book.liveShares resting.side) resting.price
          (book.liveShares resting.side resting.price - taken.toNat)
      else book.liveShares other := by
  have left : sharesOf (book.reduceOrder ref taken).orders =
      Function.update (sharesOf book.orders) (resting.side, resting.price)
        (sharesOf book.orders (resting.side, resting.price) - taken.toNat) := by
    have gone : ref ∉ book.orders.erase ref := by simp
    rw [orders_reduceOrder live covered, sharesOf_erase live, Function.update_self,
      Function.update_idem]
    by_cases all : taken = resting.remainingShares
    · rw [if_pos all, all, Nat.add_sub_cancel, Function.update_eq_self]
    · rw [if_neg all, ← insert_erase, sharesOf_insert gone]
      dsimp only
      rw [UInt64.toNat_sub_of_le _ _ covered,
        Nat.add_sub_assoc (UInt64.le_iff_toNat_le.mp covered)]
  unfold liveShares
  rw [left]
  exact update_side _ resting.side other resting.price _

/-- The property of every live order. -/
def EveryOrder (book : SymbolBook) (P : RestingOrder → Prop) : Prop :=
  ∀ (ref : OrderRefNumber) (order : RestingOrder), book.orders[ref]? = some order → P order

/-- Every level reads as the shares of its live orders, and no order has more shares than a
message can carry. -/
structure Aggregates (book : SymbolBook) : Prop where
  /-- Levels read as the shares behind them. -/
  reads : ∀ side, Reads (book.liveShares side) (book.levels side)
  /-- Each order has fewer than 2^32 shares. -/
  light : book.EveryOrder (fun order => order.remainingShares.toNat < 2 ^ 32)

/-- Moreover every live order has shares, and only levels with shares are stored. -/
structure Occupied (book : SymbolBook) : Prop where
  /-- Levels are stored exactly where there are shares. -/
  levels : ∀ side, Tallies (book.liveShares side) (book.levels side)
  /-- Each order has shares. -/
  positive : book.EveryOrder (fun order => order.remainingShares ≠ 0)

/-- The shares of fewer than 2^32 live orders fit a word. -/
theorem liveShares_lt (light : book.EveryOrder (fun order => order.remainingShares.toNat < 2 ^ 32))
    (few : book.orders.size < 2 ^ 32) (side : Side) (price : Price) :
    book.liveShares side price < 2 ^ 64 := by
  have bound : book.liveShares side price ≤ book.orders.toList.length * (2 ^ 32 - 1) := by
    apply tally_le_length
    rintro ⟨ref, order⟩ member
    have small := light ref order (ExtTreeMap.mem_toList_iff_getElem?_eq_some.mp member)
    show order.remainingShares.toNat ≤ _
    omega
  rw [ExtTreeMap.length_toList] at bound
  calc
    book.liveShares side price ≤ book.orders.size * (2 ^ 32 - 1) := bound
    _ ≤ (2 ^ 32 - 1) * (2 ^ 32 - 1) := Nat.mul_le_mul_right _ (by omega)
    _ < 2 ^ 64 := by decide

/-- Nothing is live in a new book. -/
theorem aggregates_empty : empty.Aggregates where
  reads side := by
    have nothing : empty.levels side = ∅ := by cases side <;> rfl
    rw [nothing]
    exact reads_empty
  light ref order found := by simp [empty] at found

/-- Nothing is stored in a new book. -/
theorem occupied_empty : empty.Occupied where
  levels side := by
    have nothing : empty.levels side = ∅ := by cases side <;> rfl
    rw [nothing]
    exact tallies_empty
  positive ref order found := by simp [empty] at found

/-- The levels once an order was added. -/
theorem levels_addOrder (book : SymbolBook) (ref : OrderRefNumber) (side other : Side)
    (shares : Quantity) (price : Price) :
    (book.addOrder ref side shares price).levels other =
      if other = side then
        (book.levels side).insert price ((book.levels side).getD price 0 + shares)
      else book.levels other := by
  cases side <;> cases other <;> rfl

/-- The levels once shares were taken off a live order. -/
theorem levels_lowered {ref : OrderRefNumber} {resting : RestingOrder}
    (live : book.orders[ref]? = some resting) {taken : Quantity}
    (covered : taken ≤ resting.remainingShares) (other : Side) :
    (book.reduceOrder ref taken).levels other =
      if other = resting.side then lowered (book.levels resting.side) resting.price taken
      else book.levels other := by
  rw [levels_reduceOrder live covered]
  cases resting.side <;> cases other <;> rfl

/-- What holds of every order and of a new one holds of every order once it was added. -/
theorem EveryOrder.addOrder {P : RestingOrder → Prop} (every : book.EveryOrder P)
    {ref : OrderRefNumber} {side : Side} {shares : Quantity} {price : Price}
    (new : P { side := side, price := price, remainingShares := shares }) :
    (book.addOrder ref side shares price).EveryOrder P := by
  intro other order found
  rw [orders_addOrder, ExtTreeMap.getElem?_insert] at found
  by_cases same : ref = other
  · rw [if_pos (by simpa using same), Option.some.injEq] at found
    exact found ▸ new
  · rw [if_neg (by simpa using same)] at found
    exact every other order found

/-- What holds of every order, and of one that is left with fewer shares, holds of every order
once shares were taken off. -/
theorem EveryOrder.reduceOrder {P : RestingOrder → Prop} (every : book.EveryOrder P)
    {ref : OrderRefNumber} {resting : RestingOrder} (live : book.orders[ref]? = some resting)
    {taken : Quantity} (covered : taken ≤ resting.remainingShares)
    (less : taken ≠ resting.remainingShares →
      P { resting with remainingShares := resting.remainingShares - taken }) :
    (book.reduceOrder ref taken).EveryOrder P := by
  intro other order found
  rw [orders_reduceOrder live covered] at found
  by_cases all : taken = resting.remainingShares
  · rw [if_pos all, ExtTreeMap.getElem?_erase] at found
    by_cases same : ref = other
    · rw [if_pos (by simpa using same)] at found
      nomatch found
    · rw [if_neg (by simpa using same)] at found
      exact every other order found
  · rw [if_neg all, ExtTreeMap.getElem?_insert] at found
    by_cases same : ref = other
    · rw [if_pos (by simpa using same), Option.some.injEq] at found
      exact found ▸ less all
    · rw [if_neg (by simpa using same)] at found
      exact every other order found

/-- A new order keeps the levels in line, when the orders that are live then are few. -/
theorem Aggregates.addOrder (aggregates : book.Aggregates) {ref : OrderRefNumber}
    (new : ref ∉ book.orders) (side : Side) (shares : UInt32) (price : Price)
    (few : (book.addOrder ref side shares.toUInt64 price).orders.size < 2 ^ 32) :
    (book.addOrder ref side shares.toUInt64 price).Aggregates := by
  have small : shares.toUInt64.toNat < 2 ^ 32 := by
    rw [UInt32.toNat_toUInt64]
    exact shares.toNat_lt
  have light : (book.addOrder ref side shares.toUInt64 price).EveryOrder
      (fun order => order.remainingShares.toNat < 2 ^ 32) := aggregates.light.addOrder small
  refine ⟨fun other => ?_, light⟩
  have room := liveShares_lt light few side price
  rw [liveShares_addOrder new, if_pos rfl, Function.update_self] at room
  rw [liveShares_addOrder new, levels_addOrder]
  by_cases own : other = side
  · rw [if_pos own, if_pos own]
    exact (aggregates.reads side).raise price room
  · rw [if_neg own, if_neg own]
    exact aggregates.reads other

/-- Shares that are taken off a live order keep the levels in line. -/
theorem Aggregates.reduceOrder (aggregates : book.Aggregates) {ref : OrderRefNumber}
    {resting : RestingOrder} (live : book.orders[ref]? = some resting) {taken : Quantity}
    (covered : taken ≤ resting.remainingShares) : (book.reduceOrder ref taken).Aggregates := by
  have below := UInt64.le_iff_toNat_le.mp covered
  constructor
  · intro other
    rw [liveShares_reduceOrder live covered, levels_lowered live covered]
    by_cases own : other = resting.side
    · rw [if_pos own, if_pos own]
      exact (aggregates.reads resting.side).lower resting.price
        (below.trans (remainingShares_le live))
    · rw [if_neg own, if_neg own]
      exact aggregates.reads other
  · apply aggregates.light.reduceOrder live covered
    intro _
    have small := aggregates.light ref resting live
    show (resting.remainingShares - taken).toNat < _
    rw [UInt64.toNat_sub_of_le _ _ covered]
    omega

/-- A new order with shares keeps every stored level occupied. -/
theorem Occupied.addOrder (occupied : book.Occupied) {ref : OrderRefNumber}
    (new : ref ∉ book.orders) (side : Side) {shares : Quantity} (price : Price)
    (positive : shares ≠ 0) : (book.addOrder ref side shares price).Occupied := by
  refine ⟨fun other => ?_, occupied.positive.addOrder positive⟩
  rw [liveShares_addOrder new, levels_addOrder]
  by_cases own : other = side
  · rw [if_pos own, if_pos own]
    exact (occupied.levels side).raise price positive
  · rw [if_neg own, if_neg own]
    exact occupied.levels other

/-- Shares that are taken off a live order keep every stored level occupied. -/
theorem Occupied.reduceOrder (occupied : book.Occupied) {ref : OrderRefNumber}
    {resting : RestingOrder} (live : book.orders[ref]? = some resting) {taken : Quantity}
    (covered : taken ≤ resting.remainingShares)
    (bounded : ∀ side price, book.liveShares side price < 2 ^ 64) :
    (book.reduceOrder ref taken).Occupied := by
  have below := UInt64.le_iff_toNat_le.mp covered
  constructor
  · intro other
    rw [liveShares_reduceOrder live covered, levels_lowered live covered]
    by_cases own : other = resting.side
    · rw [if_pos own, if_pos own]
      exact (occupied.levels resting.side).lower resting.price
        (below.trans (remainingShares_le live)) (bounded resting.side resting.price)
    · rw [if_neg own, if_neg own]
      exact occupied.levels other
  · apply occupied.positive.reduceOrder live covered
    intro short zero
    refine short (UInt64.toNat_inj.mp ?_)
    have left := congrArg UInt64.toNat zero
    simp only [UInt64.toNat_sub_of_le _ _ covered] at left
    have nothing : resting.remainingShares.toNat - taken.toNat = 0 := left
    omega

/-- A property of books that the changes of a book keep: an order with valid shares comes in under
a new reference while fewer than 2^32 are live, or shares are taken off a live order. -/
structure Kept (valid : UInt32 → Prop) (P : SymbolBook → Prop) : Prop where
  /-- New books have it. -/
  start : P empty
  /-- It does not depend on the symbol. -/
  rename : ∀ {book : SymbolBook} (symbol : Symbol), P book → P { book with symbol := symbol }
  /-- Adding keeps it. -/
  addOrder : ∀ {book : SymbolBook} {ref : OrderRefNumber} (side : Side) {shares : UInt32}
    (price : Price), P book → ref ∉ book.orders → valid shares →
      (book.addOrder ref side shares.toUInt64 price).orders.size < 2 ^ 32 →
        P (book.addOrder ref side shares.toUInt64 price)
  /-- Reducing keeps it. -/
  reduceOrder : ∀ {book : SymbolBook} {ref : OrderRefNumber} {resting : RestingOrder}
    {taken : Quantity}, P book → book.orders[ref]? = some resting →
      taken ≤ resting.remainingShares → P (book.reduceOrder ref taken)

/-- A reduction leaves no more orders than there were. -/
theorem size_reduceOrder_le {ref : OrderRefNumber} {resting : RestingOrder}
    (live : book.orders[ref]? = some resting) {taken : Quantity}
    (covered : taken ≤ resting.remainingShares) :
    (book.reduceOrder ref taken).orders.size ≤ book.orders.size := by
  rw [orders_reduceOrder live covered]
  split
  · exact ExtTreeMap.size_erase_le
  · rw [ExtTreeMap.size_insert, if_pos (ExtTreeMap.mem_iff_contains.mp (mem_of_live live))]

/-- Few orders, whose shares the levels read. -/
def InLine (book : SymbolBook) : Prop := book.Aggregates ∧ book.orders.size < 2 ^ 32

/-- Every change keeps the levels in line. -/
theorem kept_inLine : Kept (fun _ => True) InLine where
  start := ⟨aggregates_empty, by decide⟩
  rename symbol inLine := by
    refine ⟨⟨fun side => ?_, inLine.1.light⟩, inLine.2⟩
    cases side
    · exact inLine.1.reads .buy
    · exact inLine.1.reads .sell
  addOrder side _ price inLine new _ few := ⟨inLine.1.addOrder new side _ price few, few⟩
  reduceOrder inLine live covered :=
    ⟨inLine.1.reduceOrder live covered,
      Nat.lt_of_le_of_lt (size_reduceOrder_le live covered) inLine.2⟩

/-- Every change keeps the stored levels occupied while nothing is introduced without shares. -/
theorem kept_occupied :
    Kept (fun shares => shares ≠ 0) (fun book => book.InLine ∧ book.Occupied) where
  start := ⟨kept_inLine.start, occupied_empty⟩
  rename symbol both := by
    refine ⟨kept_inLine.rename symbol both.1, ⟨fun side => ?_, both.2.positive⟩⟩
    cases side
    · exact both.2.levels .buy
    · exact both.2.levels .sell
  addOrder side _ price both new positive few := by
    refine ⟨kept_inLine.addOrder side price both.1 new trivial few,
      both.2.addOrder new side price ?_⟩
    exact fun zero => positive (UInt32.toUInt64_inj.mp zero)
  reduceOrder both live covered :=
    ⟨kept_inLine.reduceOrder both.1 live covered,
      both.2.reduceOrder live covered (liveShares_lt both.1.1.light both.1.2)⟩

/-- The levels of a side, best first, however many are asked for. -/
def fullDepth (book : SymbolBook) (side : Side) : List PriceLevel :=
  (bestFirst side (book.levels side)).map (fun entry => { price := entry.1, quantity := entry.2 })

/-- A snapshot takes the first levels. -/
theorem depth_eq_take (book : SymbolBook) (side : Side) (maxLevels : Nat) :
    book.depth side maxLevels = (book.fullDepth side).take maxLevels := by
  rw [depth, fullDepth, List.map_take]

/-- What stands among the levels of a side. -/
theorem mem_fullDepth {side : Side} {price : Price} {quantity : Quantity} :
    ({ price := price, quantity := quantity } : PriceLevel) ∈ book.fullDepth side ↔
      (book.levels side)[price]? = some quantity := by
  have member : (price, quantity) ∈ bestFirst side (book.levels side) ↔
      (book.levels side)[price]? = some quantity := by
    rw [← ExtTreeMap.mem_toList_iff_getElem?_eq_some]
    cases side with
    | buy => exact List.mem_reverse
    | sell => exact Iff.rfl
  rw [← member, fullDepth, List.mem_map]
  constructor
  · rintro ⟨⟨at_, held⟩, inside, same⟩
    obtain ⟨rfl, rfl⟩ := PriceLevel.mk.inj same
    exact inside
  · exact fun inside => ⟨(price, quantity), inside, rfl⟩

/-- The levels of a side stand in strict order, best first. -/
theorem pairwise_fullDepth (book : SymbolBook) (side : Side) :
    (book.fullDepth side).Pairwise (fun left right => side.Better left.price right.price) := by
  have ordered := (book.levels side).ordered_keys_toList
  rw [fullDepth, List.pairwise_map]
  cases side with
  | buy =>
    refine List.pairwise_reverse.mpr (ordered.imp ?_)
    exact fun before => Std.compare_eq_lt.mp before
  | sell => exact ordered.imp (fun before => Std.compare_eq_lt.mp before)

/-- A price has live shares exactly when an order is live there. -/
theorem Occupied.liveShares_ne_zero_iff (occupied : book.Occupied) (side : Side) (price : Price) :
    book.liveShares side price ≠ 0 ↔ ∃ ref : OrderRefNumber, ∃ order ∈ book.orders[ref]?,
      order.side = side ∧ order.price = price := by
  have positive : ∀ entry ∈ book.orders.toList, entry.2.remainingShares ≠ 0 := by
    rintro ⟨ref, order⟩ member
    exact occupied.positive ref order (ExtTreeMap.mem_toList_iff_getElem?_eq_some.mp member)
  rw [liveShares, sharesOf, tally_ne_zero_iff positive]
  constructor
  · rintro ⟨⟨ref, order⟩, member, own⟩
    exact ⟨ref, order, ExtTreeMap.mem_toList_iff_getElem?_eq_some.mp member,
      congrArg Prod.fst own, congrArg Prod.snd own⟩
  · rintro ⟨ref, order, live, rfl, rfl⟩
    exact ⟨(ref, order), ExtTreeMap.mem_toList_iff_getElem?_eq_some.mpr live, rfl⟩

end SymbolBook

namespace ItchMessage

/-- The shares of the order a message introduces are valid. -/
def Introduces (valid : UInt32 → Prop) : ItchMessage → Prop
  | addOrder message => valid message.shares
  | addOrderMpid message => valid message.base.shares
  | orderReplace message => valid message.shares
  | _ => True

end ItchMessage

namespace ItchBookBuilder

/-- The property of the book of every locate. -/
def EveryBook (builder : ItchBookBuilder) (P : SymbolBook → Prop) : Prop :=
  ∀ (locate : StockLocate) (book : SymbolBook), builder.books[locate]? = some book → P book

/-- A reference that a message introduces is not live on its locate; that of a replacement may be
the one it removes. A replacement of a reference that is not live introduces nothing. -/
def FreshReference (builder : ItchBookBuilder) : ItchMessage → Prop
  | .addOrder message =>
    builder.liveOrder message.stockLocate message.orderReferenceNumber = none
  | .addOrderMpid message =>
    builder.liveOrder message.base.stockLocate message.base.orderReferenceNumber = none
  | .orderReplace message =>
    builder.liveOrder message.stockLocate message.originalOrderReferenceNumber = none ∨
      message.newOrderReferenceNumber = message.originalOrderReferenceNumber ∨
      builder.liveOrder message.stockLocate message.newOrderReferenceNumber = none
  | _ => True

instance decidableFreshReference (builder : ItchBookBuilder) :
    (message : ItchMessage) → Decidable (builder.FreshReference message)
  | .addOrder message =>
    inferInstanceAs (Decidable
      (builder.liveOrder message.stockLocate message.orderReferenceNumber = none))
  | .addOrderMpid message =>
    inferInstanceAs (Decidable
      (builder.liveOrder message.base.stockLocate message.base.orderReferenceNumber = none))
  | .orderReplace message =>
    inferInstanceAs (Decidable
      (builder.liveOrder message.stockLocate message.originalOrderReferenceNumber = none ∨ _ ∨ _))
  | .systemEvent _ => .isTrue trivial
  | .stockDirectory _ => .isTrue trivial
  | .orderExecuted _ => .isTrue trivial
  | .orderExecutedWithPrice _ => .isTrue trivial
  | .orderCancel _ => .isTrue trivial
  | .orderDelete _ => .isTrue trivial
  | .timestampSeconds _ => .isTrue trivial

/-- Every locate has few orders when every book has. -/
theorem orderCount_lt_iff (builder : ItchBookBuilder) {bound : Nat} (positive : 0 < bound) :
    (∀ entry ∈ builder.books.toList, entry.2.orders.size < bound) ↔
      ∀ locate, builder.orderCount locate < bound := by
  constructor
  · intro few locate
    unfold orderCount
    cases found : builder.books[locate]? with
    | none => exact positive
    | some book =>
      exact few (locate, book) (ExtTreeMap.mem_toList_iff_getElem?_eq_some.mpr found)
  · rintro few ⟨locate, book⟩ member
    have counted := few locate
    rw [orderCount, ExtTreeMap.mem_toList_iff_getElem?_eq_some.mp member] at counted
    exact counted

/-- The message introduces a reference that is not live, and fewer than 2^32 orders are live on
each locate once it was applied. -/
def Admits (builder : ItchBookBuilder) (message : ItchMessage) : Prop :=
  builder.FreshReference message ∧
    ∀ locate, (builder.apply message).orderCount locate < 2 ^ 32

instance (builder : ItchBookBuilder) (message : ItchMessage) :
    Decidable (builder.Admits message) :=
  have : Decidable (∀ locate, (builder.apply message).orderCount locate < 2 ^ 32) :=
    decidable_of_iff _ (orderCount_lt_iff (builder.apply message) (Nat.two_pow_pos 32))
  inferInstanceAs (Decidable (_ ∧ _))

/-- Apply a message; nothing is returned. -/
def step (builder : ItchBookBuilder) (message : ItchMessage) : Unit × ItchBookBuilder :=
  ((), builder.apply message)

/-- What holds of every book, and of one book once it was changed, holds of every book after the
change. -/
theorem EveryBook.onBook {builder : ItchBookBuilder} {P : SymbolBook → Prop}
    (every : builder.EveryBook P) {locate : StockLocate} {change : SymbolBook → SymbolBook}
    (changed : ∀ book, builder.books[locate]? = some book → P (change book)) :
    (builder.onBook locate change).EveryBook P := by
  intro other book found
  unfold ItchBookBuilder.onBook at found
  cases own : builder.books[locate]? with
  | none =>
    rw [own] at found
    exact every other book found
  | some held =>
    rw [own] at found
    simp only at found
    rw [ExtTreeMap.getElem?_insert] at found
    by_cases same : locate = other
    · rw [if_pos (by simpa using same), Option.some.injEq] at found
      exact found ▸ changed held own
    · rw [if_neg (by simpa using same)] at found
      exact every other book found

/-- A reference that is live on no book is no key of one. -/
theorem not_mem_of_liveOrder {builder : ItchBookBuilder} {locate : StockLocate}
    {ref : OrderRefNumber} (fresh : builder.liveOrder locate ref = none) {book : SymbolBook}
    (found : builder.books[locate]? = some book) : ref ∉ book.orders := by
  rw [liveOrder, found] at fresh
  have absent : book.orders[ref]? = none := fresh
  rw [ExtTreeMap.mem_iff_isSome_getElem?, absent]
  exact Bool.noConfusion

/-- The orders of a changed book are counted once it was changed. -/
theorem size_of_orderCount {builder : ItchBookBuilder} {locate : StockLocate} {book : SymbolBook}
    (found : builder.books[locate]? = some book) {change : SymbolBook → SymbolBook}
    (few : (builder.onBook locate change).orderCount locate < 2 ^ 32) :
    (change book).orders.size < 2 ^ 32 := by
  unfold orderCount onBook at few
  rw [found] at few
  simpa using few

section Steps

variable {valid : UInt32 → Prop} {P : SymbolBook → Prop} (kept : SymbolBook.Kept valid P)
  {builder : ItchBookBuilder} (every : builder.EveryBook P)

include kept every

/-- Taking shares off a reference, live or not, keeps what every change keeps. -/
theorem EveryBook.reduceOrder (locate : StockLocate) (ref : OrderRefNumber) (shares : Quantity) :
    (builder.onBook locate (fun book => book.reduceOrder ref shares)).EveryBook P := by
  apply every.onBook
  intro book found
  cases live : book.orders[ref]? with
  | none =>
    simp only [SymbolBook.reduceOrder, live]
    exact every locate book found
  | some resting =>
    rw [SymbolBook.reduceOrder_min live]
    exact kept.reduceOrder (every locate book found) live Std.min_le_right

/-- Adding an order under a new reference keeps what every change keeps. -/
theorem EveryBook.addOrder {message : AddOrderMessage} (shares : valid message.shares)
    (fresh : builder.liveOrder message.stockLocate message.orderReferenceNumber = none)
    (few : (builder.handleAddOrder message).orderCount message.stockLocate < 2 ^ 32) :
    (builder.handleAddOrder message).EveryBook P := by
  apply every.onBook
  intro book found
  exact kept.addOrder message.side _ (every _ book found) (not_mem_of_liveOrder fresh found)
    shares (size_of_orderCount found few)

/-- Removing a reference, live or not, keeps what every change keeps. -/
theorem EveryBook.deleteOrder (message : OrderDeleteMessage) :
    (builder.handleOrderDelete message).EveryBook P := by
  apply every.onBook
  intro book found
  cases live : book.orders[message.orderReferenceNumber]? with
  | none =>
    simp only [SymbolBook.deleteOrder, live]
    exact every _ book found
  | some resting =>
    rw [SymbolBook.deleteOrder_eq live]
    exact kept.reduceOrder (every _ book found) live (UInt64.le_refl _)

/-- Replacing an order by one under a new reference keeps what every change keeps. -/
theorem EveryBook.replaceOrder {message : OrderReplaceMessage} (shares : valid message.shares)
    (fresh : builder.FreshReference (.orderReplace message))
    (few : (builder.handleOrderReplace message).orderCount message.stockLocate < 2 ^ 32) :
    (builder.handleOrderReplace message).EveryBook P := by
  apply every.onBook
  intro book found
  have counted := size_of_orderCount found few
  cases live : book.orders[message.originalOrderReferenceNumber]? with
  | none => exact every _ book found
  | some resting =>
    simp only [live] at counted ⊢
    rw [SymbolBook.deleteOrder_eq live] at counted ⊢
    have reduced := kept.reduceOrder (every _ book found) live (UInt64.le_refl _)
    refine kept.addOrder resting.side _ reduced ?_ shares counted
    rw [SymbolBook.orders_reduceOrder live (UInt64.le_refl _), if_pos rfl, ExtTreeMap.mem_erase]
    rintro ⟨apart, member⟩
    rcases fresh with dead | same | unused
    · rw [liveOrder, found] at dead
      have absent : book.orders[message.originalOrderReferenceNumber]? = none := dead
      rw [live] at absent
      nomatch absent
    · exact apart (by simpa using same.symm)
    · exact not_mem_of_liveOrder unused found member

/-- Every admitted message keeps what every change keeps. -/
theorem EveryBook.apply {message : ItchMessage} (admitted : builder.Admits message)
    (shares : message.Introduces valid) : (builder.apply message).EveryBook P := by
  obtain ⟨fresh, few⟩ := admitted
  cases message with
  | systemEvent message =>
    unfold ItchBookBuilder.apply handleSystemEvent
    simp only
    split
    · intro locate book found
      simp [reset] at found
    · exact every
  | stockDirectory message =>
    intro locate book found
    simp only [ItchBookBuilder.apply, handleStockDirectory] at found
    rw [ExtTreeMap.getElem?_insert] at found
    by_cases same : message.stockLocate = locate
    · rw [if_pos (by simpa using same), Option.some.injEq] at found
      rw [← found]
      apply kept.rename
      rw [ExtTreeMap.getD_eq_getD_getElem?]
      cases own : builder.books[message.stockLocate]? with
      | none => exact kept.start
      | some held => exact every _ held own
    · rw [if_neg (by simpa using same)] at found
      exact every locate book found
  | addOrder message => exact every.addOrder kept shares fresh (few _)
  | addOrderMpid message => exact every.addOrder kept shares fresh (few _)
  | orderExecuted message => exact every.reduceOrder kept _ _ _
  | orderExecutedWithPrice message => exact every.reduceOrder kept _ _ _
  | orderCancel message => exact every.reduceOrder kept _ _ _
  | orderDelete message => exact every.deleteOrder kept message
  | orderReplace message => exact every.replaceOrder kept shares fresh (few _)
  | timestampSeconds message => exact every

end Steps

/-- The quantity of a level, zero when it is absent. -/
def levelQuantity (builder : ItchBookBuilder) (locate : StockLocate) (side : Side)
    (price : Price) : Quantity :=
  ((builder.books[locate]?).map (fun book => (book.levels side).getD price 0)).getD 0

/-- The shares of the live orders of a locate with this side and price. -/
def liveShares (builder : ItchBookBuilder) (locate : StockLocate) (side : Side)
    (price : Price) : Nat :=
  ((builder.books[locate]?).map (fun book => book.liveShares side price)).getD 0

/-- A level is present. -/
def HasLevel (builder : ItchBookBuilder) (locate : StockLocate) (side : Side) (price : Price) :
    Prop :=
  ∃ book ∈ builder.books[locate]?, price ∈ book.levels side

/-- An order with this side and price is live. -/
def HasOrder (builder : ItchBookBuilder) (locate : StockLocate) (side : Side) (price : Price) :
    Prop :=
  ∃ ref, ∃ order ∈ builder.liveOrder locate ref, order.side = side ∧ order.price = price

/-- The list has exactly the levels at which orders are live, each with their shares, and they
stand in strict order, best first. -/
def Lists (builder : ItchBookBuilder) (locate : StockLocate) (side : Side)
    (levels : List PriceLevel) : Prop :=
  (∀ level, level ∈ levels ↔ builder.HasOrder locate side level.price ∧
    level.quantity.toNat = builder.liveShares locate side level.price) ∧
  levels.Pairwise (fun left right => side.Better left.price right.price)

/-- Levels, orders and snapshots show one book. -/
structure ShowsOneBook (builder : ItchBookBuilder) : Prop where
  /-- A level is present exactly when an order is live at its price. -/
  present : ∀ locate side price,
    builder.HasLevel locate side price ↔ builder.HasOrder locate side price
  /-- Every live order has shares left. -/
  positive : ∀ locate ref, ∀ order ∈ builder.liveOrder locate ref, order.remainingShares ≠ 0
  /-- Without a book nothing is live. -/
  missing : ∀ locate depth, (builder.snapshot locate depth).1 = none →
    ∀ ref, builder.liveOrder locate ref = none
  /-- A snapshot lists the levels up to its depth. -/
  listed : ∀ locate depth, ∀ taken ∈ (builder.snapshot locate depth).1,
    ∃ bids asks, builder.Lists locate .buy bids ∧ builder.Lists locate .sell asks ∧
      taken.bids = bids.take depth ∧ taken.asks = asks.take depth

/-- Books that are in line and occupied list their levels. -/
theorem lists_fullDepth {builder : ItchBookBuilder} {locate : StockLocate} {book : SymbolBook}
    (found : builder.books[locate]? = some book) (inLine : book.InLine)
    (occupied : book.Occupied) (side : Side) :
    builder.Lists locate side (book.fullDepth side) := by
  refine ⟨?_, book.pairwise_fullDepth side⟩
  rintro ⟨price, quantity⟩
  have orders : builder.HasOrder locate side price ↔ book.liveShares side price ≠ 0 := by
    unfold HasOrder liveOrder
    rw [occupied.liveShares_ne_zero_iff, found]
    rfl
  have shares : builder.liveShares locate side price = book.liveShares side price := by
    rw [liveShares, found]
    rfl
  have bounded := SymbolBook.liveShares_lt inLine.1.light inLine.2 side price
  rw [SymbolBook.mem_fullDepth, occupied.levels side price]
  show _ ↔ builder.HasOrder locate side price ∧
    quantity.toNat = builder.liveShares locate side price
  rw [orders, shares]
  by_cases zero : book.liveShares side price = 0
  · rw [if_pos zero]
    exact iff_of_false (fun held => nomatch held) (fun both => both.1 zero)
  · have held : (UInt64.ofNat (book.liveShares side price)).toNat = book.liveShares side price :=
      UInt64.toNat_ofNat_of_lt' bounded
    rw [if_neg zero, Option.some.injEq]
    constructor
    · rintro rfl
      exact ⟨zero, held⟩
    · rintro ⟨_, same⟩
      exact UInt64.toNat_inj.mp (held.trans same.symm)

/-- Books that are in line and occupied show one book. -/
theorem EveryBook.showsOneBook {builder : ItchBookBuilder}
    (every : builder.EveryBook (fun book => book.InLine ∧ book.Occupied)) :
    builder.ShowsOneBook where
  present locate side price := by
    unfold HasLevel HasOrder liveOrder
    cases found : builder.books[locate]? with
    | none => simp
    | some book =>
      have occupied := (every locate book found).2
      have stored : price ∈ book.levels side ↔ book.liveShares side price ≠ 0 := by
        rw [ExtTreeMap.mem_iff_isSome_getElem?, occupied.levels side price]
        split <;> simp_all
      have shares := stored.trans (occupied.liveShares_ne_zero_iff side price)
      simpa using shares
  positive locate ref order live := by
    obtain ⟨book, found, inside⟩ := Option.bind_eq_some_iff.mp live
    exact (every locate book found).2.positive ref order inside
  missing locate depth nothing ref := by
    unfold snapshot at nothing
    unfold liveOrder
    cases found : builder.books[locate]? with
    | none => rfl
    | some book =>
      rw [found] at nothing
      nomatch nothing
  listed locate depth taken shown := by
    unfold snapshot at shown
    cases found : builder.books[locate]? with
    | none =>
      rw [found] at shown
      nomatch shown
    | some book =>
      obtain ⟨inLine, occupied⟩ := every locate book found
      rw [found] at shown
      obtain rfl := Option.some.inj shown
      exact ⟨book.fullDepth .buy, book.fullDepth .sell,
        lists_fullDepth found inLine occupied .buy, lists_fullDepth found inLine occupied .sell,
        book.depth_eq_take .buy depth, book.depth_eq_take .sell depth⟩

/-- What every change of a book keeps holds of every book after admitted messages. -/
theorem everyBook_run {valid : UInt32 → Prop} {P : SymbolBook → Prop}
    (kept : SymbolBook.Kept valid P) {messages : List ItchMessage}
    (admitted : Admissible Admits step init messages)
    (shares : ∀ message ∈ messages, message.Introduces valid) :
    (run step init messages).2.EveryBook P := by
  have start : init.EveryBook P := by
    intro locate book found
    simp [init] at found
  have general : ∀ builder : ItchBookBuilder, builder.EveryBook P →
      Admissible Admits step builder messages → (run step builder messages).2.EveryBook P := by
    clear admitted
    induction messages with
    | nil => exact fun _ every _ => every
    | cons message rest ih =>
      intro builder every admitted
      have next : (step builder message).2.EveryBook P :=
        every.apply kept admitted.1 (shares message List.mem_cons_self)
      exact ih (fun other member => shares other (List.mem_cons_of_mem _ member)) _ next
        admitted.2
  exact general init start admitted

/-- After every message of a run in which no introduced reference is live and fewer than 2^32
orders are live on each locate, every level is the sum of its live orders. When moreover every
order is introduced with shares, levels, orders and snapshots show one book. -/
theorem book_builder_aggregates (messages : List ItchMessage)
    (admitted : Admissible Admits step init messages) (count : Nat) :
    let builder := (run step init (messages.take count)).2
    (∀ locate side price, (builder.levelQuantity locate side price).toNat =
      builder.liveShares locate side price) ∧
    ((∀ message ∈ messages, message.Introduces (fun shares => shares ≠ 0)) →
      builder.ShowsOneBook) := by
  intro builder
  have before := admitted.take count
  constructor
  · intro locate side price
    have every : builder.EveryBook SymbolBook.InLine := by
      apply everyBook_run SymbolBook.kept_inLine before
      intro message _
      cases message <;> trivial
    unfold levelQuantity liveShares
    cases found : builder.books[locate]? with
    | none => rfl
    | some book => exact (every locate book found).1.reads side price
  · intro shares
    have every : builder.EveryBook (fun book => book.InLine ∧ book.Occupied) := by
      apply everyBook_run SymbolBook.kept_occupied before
      exact fun message member => shares message (List.mem_of_mem_take member)
    exact every.showsOneBook

/-- One of two bids of a level is executed for more than it has, and the other is replaced at its
price by a larger one. -/
theorem book_builder_aggregates_replaced :
    let messages : List ItchMessage :=
      [.stockDirectory { (default : StockDirectoryMessage) with stockLocate := 1 },
        .addOrder { (default : AddOrderMessage) with
          stockLocate := 1, orderReferenceNumber := 5, buySellIndicator := 0x42, shares := 10,
          price := 100 },
        .addOrder { (default : AddOrderMessage) with
          stockLocate := 1, orderReferenceNumber := 6, buySellIndicator := 0x42, shares := 5,
          price := 100 },
        .orderExecuted { (default : OrderExecutedMessage) with
          stockLocate := 1, orderReferenceNumber := 5, executedShares := 20 },
        .orderReplace { (default : OrderReplaceMessage) with
          stockLocate := 1, originalOrderReferenceNumber := 6, newOrderReferenceNumber := 6,
          shares := 7, price := 100 }]
    Admissible Admits step init messages ∧
      (run step init messages).2.levelQuantity 1 .buy 100 = 7 ∧
      (run step init messages).2.liveShares 1 .buy 100 = 7 ∧
      (run step init (messages.take 5)).2.ShowsOneBook := by
  intro messages
  have admitted : Admissible Admits step init messages := by decide +kernel
  refine ⟨admitted, by decide +kernel, by decide +kernel, ?_⟩
  apply (book_builder_aggregates messages admitted 5).2
  simp [messages, ItchMessage.Introduces]

end ItchBookBuilder

end Titan
