import Mathlib.Algebra.BigOperators.Group.List.Basic
import Mathlib.Data.List.TakeWhile
import TitanEngine.Spec.Ledger

/-!
# What a sweep does to each order

A sweep trades at most once with each resting order. It leaves the order alone, or it consumes
it, or it reduces it, and the records follow once its trades are settled. What is left of the
incoming quantity and what was traded make up the whole of it, as numbers: nothing wraps.
-/

namespace Titan

open Library Std

/-- The traded quantities of a list of trades, summed as numbers. -/
def totalTraded (trades : List Trade) : Nat := (trades.map (fun trade => trade.quantity.toNat)).sum

section Sweep

variable {taker : OrderId} {stops : Order → Bool}

/-- Every trade of a sweep is with an order that does not stop it, for a positive quantity that
the order has. -/
theorem sweep_trade {quantity : Quantity} {makers : List Order}
    (positive : ∀ maker ∈ makers, maker.quantity ≠ 0) {trade : Trade}
    (member : trade ∈ (sweep taker stops quantity makers).trades) :
    ∃ maker ∈ makers, stops maker = false ∧ trade = tradeWith taker maker trade.quantity ∧
      trade.quantity ≠ 0 ∧ trade.quantity ≤ maker.quantity := by
  induction makers generalizing quantity with
  | nil => simp at member
  | cons maker rest ih =>
    have tail := fun other inside => positive other (List.mem_cons_of_mem maker inside)
    by_cases zero : quantity = 0
    · simp [zero] at member
    cases stop : stops maker with
    | true => simp [sweep_stop stop] at member
    | false =>
      by_cases fits : maker.quantity ≤ quantity
      · rw [sweep_consume stop zero fits] at member
        rcases List.mem_cons.mp member with rfl | later
        · exact ⟨maker, List.mem_cons_self, stop, rfl, positive maker List.mem_cons_self,
            UInt64.le_refl _⟩
        · obtain ⟨other, inside, facts⟩ := ih tail later
          exact ⟨other, List.mem_cons_of_mem maker inside, facts⟩
      · rw [sweep_reduce stop zero fits, List.mem_singleton] at member
        subst member
        exact ⟨maker, List.mem_cons_self, stop, rfl, zero,
          UInt64.le_of_lt (UInt64.not_le.mp fits)⟩

/-- A sweep trades with the orders in their order, at most once with each. -/
theorem sweep_trades_in_order (quantity : Quantity) (makers : List Order) :
    (sweep taker stops quantity makers).trades.map Trade.restingOrderId <+:
      makers.map Order.id := by
  induction makers generalizing quantity with
  | nil => simp
  | cons maker rest ih =>
    by_cases zero : quantity = 0
    · simp [zero]
    cases stop : stops maker with
    | true => simp [sweep_stop stop]
    | false =>
      by_cases fits : maker.quantity ≤ quantity
      · rw [sweep_consume stop zero fits]
        exact (List.prefix_cons_inj maker.id).mpr (ih _)
      · rw [sweep_reduce stop zero fits]
        exact (List.prefix_cons_inj maker.id).mpr List.nil_prefix

/-- What is left and what was traded are the incoming quantity. -/
theorem sweep_total (quantity : Quantity) (makers : List Order) :
    quantity.toNat = (sweep taker stops quantity makers).left.toNat +
      totalTraded (sweep taker stops quantity makers).trades := by
  induction makers generalizing quantity with
  | nil => simp [totalTraded]
  | cons maker rest ih =>
    by_cases zero : quantity = 0
    · simp [zero, totalTraded]
    cases stop : stops maker with
    | true => simp [sweep_stop stop, totalTraded]
    | false =>
      by_cases fits : maker.quantity ≤ quantity
      · have later := ih (quantity - maker.quantity)
        have less : maker.quantity.toNat ≤ quantity.toNat := UInt64.le_iff_toNat_le.mp fits
        rw [UInt64.toNat_sub_of_le _ _ fits] at later
        rw [sweep_consume stop zero fits]
        simp only [totalTraded, List.map_cons, List.sum_cons, tradeWith] at later ⊢
        omega
      · rw [sweep_reduce stop zero fits]
        simp [totalTraded, tradeWith]

/-- What becomes of an order in a sweep. -/
inductive Swept (taker : OrderId) (filled : Fill) (maker : Order) : Prop
  /-- It is left alone. -/
  | untouched (alone : ∀ trade ∈ filled.trades, trade.restingOrderId ≠ maker.id)
      (rests : maker ∈ filled.rest)
  /-- It is consumed. -/
  | consumed (traded : tradeWith taker maker maker.quantity ∈ filled.trades)
      (gone : ∀ other ∈ filled.rest, other.id ≠ maker.id)
  /-- It is reduced. -/
  | reduced (quantity : Quantity) (part : quantity < maker.quantity)
      (traded : tradeWith taker maker quantity ∈ filled.trades)
      (rests : { maker with quantity := maker.quantity - quantity } ∈ filled.rest)

/-- One of the three becomes of every order. -/
theorem swept_of_mem {quantity : Quantity} {makers : List Order}
    (distinct : (makers.map Order.id).Nodup) {maker : Order} (member : maker ∈ makers) :
    Swept taker (sweep taker stops quantity makers) maker := by
  induction makers generalizing quantity with
  | nil => simp at member
  | cons head rest ih =>
    obtain ⟨different, distinctRest⟩ := List.nodup_cons.mp distinct
    have apart : ∀ other ∈ rest, other.id ≠ head.id :=
      fun other inside same => different (List.mem_map.mpr ⟨other, inside, same⟩)
    by_cases zero : quantity = 0
    · rw [zero, sweep_zero]
      exact .untouched (by simp) member
    cases stop : stops head with
    | true =>
      rw [sweep_stop stop]
      exact .untouched (by simp) member
    | false =>
      by_cases fits : head.quantity ≤ quantity
      · rw [sweep_consume stop zero fits]
        rcases List.mem_cons.mp member with rfl | inside
        · refine .consumed List.mem_cons_self ?_
          intro other resting
          obtain ⟨old, listed, equal⟩ := exists_mem_of_mem_sweep_rest resting
          rw [← equal]
          exact apart old listed
        · have fate : Swept taker (sweep taker stops (quantity - head.quantity) rest) maker :=
            ih distinctRest inside
          cases fate with
          | untouched alone rests =>
            refine .untouched ?_ rests
            intro trade traded
            rcases List.mem_cons.mp traded with rfl | later
            · exact (apart maker inside).symm
            · exact alone trade later
          | consumed traded gone => exact .consumed (List.mem_cons_of_mem _ traded) gone
          | reduced part less traded rests =>
            exact .reduced part less (List.mem_cons_of_mem _ traded) rests
      · rw [sweep_reduce stop zero fits]
        rcases List.mem_cons.mp member with rfl | inside
        · exact .reduced quantity (UInt64.not_le.mp fits) List.mem_cons_self List.mem_cons_self
        · refine .untouched ?_ (List.mem_cons_of_mem _ inside)
          intro trade traded
          rw [List.mem_singleton.mp traded]
          exact (apart maker inside).symm

end Sweep

section Fill

variable {taker : OrderId}

/-- A sweep that nothing stops is a greedy fill of the whole list. -/
theorem sweep_never (quantity : Quantity) (makers : List Order) :
    sweep taker (fun _ => false) quantity makers = fill taker quantity makers := by
  have taken : makers.takeWhile (fun _ => !false) = makers :=
    List.takeWhile_eq_self_iff.mpr (fun _ _ => rfl)
  have dropped : makers.dropWhile (fun _ => !false) = [] :=
    List.dropWhile_eq_nil_iff.mpr (fun _ _ => rfl)
  simp only [sweep, taken, dropped, List.append_nil]

/-- What a greedy fill leaves of the quantity is what was not traded. -/
theorem fill_left (quantity : Quantity) (makers : List Order) :
    (fill taker quantity makers).left =
      quantity - ((fill taker quantity makers).trades.map Trade.quantity).sum := by
  induction makers generalizing quantity with
  | nil => simp [fill]
  | cons maker rest ih =>
    unfold fill
    by_cases zero : quantity = 0
    · simp [zero]
    by_cases fits : maker.quantity ≤ quantity
    · simp only [zero, fits, ↓reduceIte, List.map_cons, List.sum_cons, tradeWith]
      rw [ih]
      grind
    · simp only [zero, fits, ↓reduceIte, List.map_cons, List.map_nil, List.sum_cons, List.sum_nil,
        tradeWith]
      grind

/-- Dropping what a prefix condition takes. -/
theorem drop_takeWhile_length {α : Type} (keep : α → Bool) (entries : List α) :
    entries.drop (entries.takeWhile keep).length = entries.dropWhile keep := by
  have split := List.takeWhile_append_dropWhile (p := keep) (l := entries)
  calc entries.drop (entries.takeWhile keep).length
    _ = (entries.takeWhile keep ++ entries.dropWhile keep).drop
        (entries.takeWhile keep).length := by rw [split]
    _ = entries.dropWhile keep := List.drop_left

/-- A greedy fill trades as much as is asked for and there is. -/
theorem fill_total (quantity : Quantity) (makers : List Order) :
    totalTraded (fill taker quantity makers).trades =
      min quantity.toNat (makers.map (fun maker => maker.quantity.toNat)).sum := by
  induction makers generalizing quantity with
  | nil => simp [fill, totalTraded]
  | cons maker rest ih =>
    unfold fill
    by_cases zero : quantity = 0
    · simp [zero, totalTraded]
    by_cases fits : maker.quantity ≤ quantity
    · have later := ih (quantity - maker.quantity)
      have less : maker.quantity.toNat ≤ quantity.toNat := UInt64.le_iff_toNat_le.mp fits
      rw [UInt64.toNat_sub_of_le _ _ fits] at later
      simp only [zero, fits, ↓reduceIte, totalTraded, List.map_cons, List.sum_cons,
        tradeWith] at later ⊢
      omega
    · have more : quantity.toNat < maker.quantity.toNat :=
        UInt64.lt_iff_toNat_lt.mp (UInt64.not_le.mp fits)
      simp only [zero, fits, ↓reduceIte, totalTraded, List.map_cons, List.map_nil, List.sum_cons,
        List.sum_nil, tradeWith]
      omega

/-- The trades of a greedy fill pair with the orders of the list from its front: each is at the
price of its order and for the lesser of what is still asked for and what the order has, and
all but the last take the whole of it. -/
theorem fill_trade_at {quantity : Quantity} {makers : List Order} {i : Nat} {trade : Trade}
    (at_ : (fill taker quantity makers).trades[i]? = some trade) :
    ∃ maker, makers[i]? = some maker ∧ trade = tradeWith taker maker trade.quantity ∧
      trade.quantity.toNat =
        min (quantity.toNat - totalTraded ((fill taker quantity makers).trades.take i))
          maker.quantity.toNat ∧
      (i + 1 < (fill taker quantity makers).trades.length → trade.quantity = maker.quantity) := by
  induction makers generalizing quantity i with
  | nil => simp [fill] at at_
  | cons maker rest ih =>
    unfold fill at at_ ⊢
    by_cases zero : quantity = 0
    · simp [zero] at at_
    by_cases fits : maker.quantity ≤ quantity
    · have less : maker.quantity.toNat ≤ quantity.toNat := UInt64.le_iff_toNat_le.mp fits
      simp only [zero, fits, ↓reduceIte] at at_ ⊢
      cases i with
      | zero =>
        obtain rfl : tradeWith taker maker maker.quantity = trade := by simpa using at_
        refine ⟨maker, rfl, rfl, ?_, fun _ => rfl⟩
        simp only [totalTraded, List.take_zero, List.map_nil, List.sum_nil, tradeWith]
        omega
      | succ i =>
        obtain ⟨other, listed, shape, least, whole⟩ := ih (i := i) (by simpa using at_)
        refine ⟨other, listed, shape, ?_, fun more => whole (by simpa using more)⟩
        rw [UInt64.toNat_sub_of_le _ _ fits] at least
        simp only [totalTraded, List.take_succ_cons, List.map_cons, List.sum_cons,
          tradeWith] at least ⊢
        rw [least, Nat.sub_sub]
    · have more : quantity.toNat < maker.quantity.toNat :=
        UInt64.lt_iff_toNat_lt.mp (UInt64.not_le.mp fits)
      simp only [zero, fits, ↓reduceIte] at at_ ⊢
      cases i with
      | zero =>
        obtain rfl : tradeWith taker maker quantity = trade := by simpa using at_
        refine ⟨maker, rfl, rfl, ?_, fun longer => by simp at longer⟩
        simp only [totalTraded, List.take_zero, List.map_nil, List.sum_nil, tradeWith]
        omega
      | succ i => simp at at_

/-- What trades leave of a resting order: nothing, or the order with a smaller quantity. -/
def Order.unfilled (trades : List Trade) (maker : Order) : Option Order :=
  let filled := totalTraded (trades.filter (fun trade => trade.restingOrderId == maker.id))
  if maker.quantity.toNat ≤ filled then none
  else some { maker with quantity := UInt64.ofNat (maker.quantity.toNat - filled) }

/-- Trades with other orders leave an order alone. -/
theorem Order.unfilled_cons_of_ne {trade : Trade} {maker : Order}
    (other : trade.restingOrderId ≠ maker.id) (trades : List Trade) :
    Order.unfilled (trade :: trades) maker = Order.unfilled trades maker := by
  simp [unfilled, other]

/-- No trades leave an order with something to trade alone. -/
theorem Order.unfilled_nil {maker : Order} (positive : maker.quantity ≠ 0) :
    Order.unfilled [] maker = some maker := by
  have some_ : ¬ maker.quantity.toNat ≤ 0 := by
    intro none
    exact positive (UInt64.toNat_inj.mp (by simpa using none))
  simp [unfilled, totalTraded]
  omega

/-- No trades leave orders with something to trade alone. -/
theorem filterMap_unfilled_nil {makers : List Order}
    (positive : ∀ maker ∈ makers, maker.quantity ≠ 0) :
    makers.filterMap (Order.unfilled []) = makers := by
  calc makers.filterMap (Order.unfilled [])
    _ = makers.filterMap some :=
      List.filterMap_congr (fun maker member => Order.unfilled_nil (positive maker member))
    _ = makers := List.filterMap_some

/-- A trade with an order for the whole of it leaves nothing. -/
theorem Order.unfilled_cons_whole (maker : Order) (trades : List Trade) :
    Order.unfilled (tradeWith taker maker maker.quantity :: trades) maker = none := by
  simp [unfilled, totalTraded, tradeWith]

/-- A trade with an order for a part of it leaves the rest. -/
theorem Order.unfilled_part {maker : Order} {quantity : Quantity}
    (part : quantity < maker.quantity) :
    Order.unfilled [tradeWith taker maker quantity] maker =
      some { maker with quantity := maker.quantity - quantity } := by
  have less : quantity.toNat < maker.quantity.toNat := UInt64.lt_iff_toNat_lt.mp part
  have left : UInt64.ofNat (maker.quantity.toNat - quantity.toNat) = maker.quantity - quantity := by
    rw [← UInt64.toNat_sub_of_le _ _ (UInt64.le_of_lt part), UInt64.ofNat_toNat]
  simp [unfilled, totalTraded, tradeWith, Nat.not_le.mpr less, left]

/-- What a sweep leaves is what its trades leave of each order, in the same order. -/
theorem sweep_rest_eq_filterMap {stops : Order → Bool} {quantity : Quantity}
    {makers : List Order} (positive : ∀ maker ∈ makers, maker.quantity ≠ 0)
    (distinct : (makers.map Order.id).Nodup) :
    (sweep taker stops quantity makers).rest =
      makers.filterMap (Order.unfilled (sweep taker stops quantity makers).trades) := by
  induction makers generalizing quantity with
  | nil => simp
  | cons maker rest ih =>
    obtain ⟨different, distinctRest⟩ := List.nodup_cons.mp distinct
    have tail := fun other member => positive other (List.mem_cons_of_mem maker member)
    -- a trade with the head is no trade with an order behind it
    have behind (traded : Quantity) (trades : List Trade) :
        rest.filterMap (Order.unfilled (tradeWith taker maker traded :: trades)) =
          rest.filterMap (Order.unfilled trades) := by
      apply List.filterMap_congr
      intro other member
      apply Order.unfilled_cons_of_ne
      exact fun same => different (List.mem_map.mpr ⟨other, member, same.symm⟩)
    by_cases zero : quantity = 0
    · rw [zero, sweep_zero]
      exact (filterMap_unfilled_nil positive).symm
    cases stop : stops maker with
    | true =>
      rw [sweep_stop stop]
      exact (filterMap_unfilled_nil positive).symm
    | false =>
      by_cases fits : maker.quantity ≤ quantity
      · rw [sweep_consume stop zero fits]
        simp only
        rw [List.filterMap_cons_none (Order.unfilled_cons_whole maker _), behind]
        exact ih tail distinctRest
      · rw [sweep_reduce stop zero fits]
        simp only
        rw [List.filterMap_cons_some (Order.unfilled_part (UInt64.not_le.mp fits)), behind,
          filterMap_unfilled_nil tail]

end Fill

/-- An order crosses a prefix of the other side. -/
theorem Book.Sound.filter_crosses {book : Book} (sound : book.Sound) (side : Side) (limit : Price) :
    (book.side side.opposite).filter (fun maker => crosses side limit maker.price) =
      (book.side side.opposite).takeWhile (fun maker => crosses side limit maker.price) := by
  have ranked := sound.ranked side.opposite
  have prefix_ := ranked.filter_le_eq_takeWhile (side.opposite.rank limit)
  have same : (fun maker : Order => crosses side limit maker.price) =
      fun maker => decide (side.opposite.rank maker.price ≤ side.opposite.rank limit) := by
    funext maker
    apply Bool.eq_iff_iff.mpr
    rw [crosses_iff_rank, decide_eq_true_eq]
  rw [same]
  exact prefix_

/-- A record once a quantity of it was traded. -/
def Order.settled (record : Order) (traded : Quantity) : Order :=
  { record with
    quantity := record.quantity - traded
    status := if record.quantity - traded = 0 then .filled else .partiallyFilled }

/-- Settling a trade touches the record of its resting order only. -/
theorem getElem?_settle (records : IdMap Order) (trade : Trade) (id : OrderId) :
    (settle records trade)[id]? =
      if trade.restingOrderId = id then records[id]?.map (fun record => record.settled trade.quantity)
      else records[id]? := by
  unfold settle
  by_cases same : trade.restingOrderId = id
  · subst same
    cases found : records[trade.restingOrderId]? with
    | none => simp [found]
    | some record => simp [Order.settled]
  · rw [if_neg same]
    cases found : records[trade.restingOrderId]? with
    | none => rfl
    | some record =>
      show (records.insert trade.restingOrderId _)[id]? = _
      rw [ExtTreeMap.getElem?_insert, if_neg (by simpa using same)]

/-- Trades with other orders leave a record alone. -/
theorem getElem?_settleAll_of_ne {trades : List Trade} {id : OrderId}
    (alone : ∀ trade ∈ trades, trade.restingOrderId ≠ id) (records : IdMap Order) :
    (trades.foldl settle records)[id]? = records[id]? := by
  induction trades generalizing records with
  | nil => rfl
  | cons trade trades ih =>
    rw [List.foldl_cons, ih (fun other member => alone other (List.mem_cons_of_mem _ member)),
      getElem?_settle, if_neg (alone trade List.mem_cons_self)]

/-- The only trade with an order settles its record. -/
theorem getElem?_settleAll_of_mem {trades : List Trade}
    (distinct : (trades.map Trade.restingOrderId).Nodup) {trade : Trade} (member : trade ∈ trades)
    (records : IdMap Order) :
    (trades.foldl settle records)[trade.restingOrderId]? =
      records[trade.restingOrderId]?.map (fun record => record.settled trade.quantity) := by
  induction trades generalizing records with
  | nil => simp at member
  | cons head trades ih =>
    obtain ⟨different, distinctRest⟩ := List.nodup_cons.mp distinct
    rw [List.foldl_cons]
    rcases List.mem_cons.mp member with rfl | inside
    · have alone : ∀ other ∈ trades, other.restingOrderId ≠ trade.restingOrderId :=
        fun other inside same => different (List.mem_map.mpr ⟨other, inside, same⟩)
      rw [getElem?_settleAll_of_ne alone, getElem?_settle, if_pos rfl]
    · have apart : head.restingOrderId ≠ trade.restingOrderId :=
        fun same => different (List.mem_map.mpr ⟨trade, inside, same.symm⟩)
      rw [ih distinctRest inside, getElem?_settle, if_neg apart]

namespace Ledger

variable {ledger : Ledger} {order : Order}

/-- What is left of an order and what it traded are the whole order. -/
theorem fillOf_total (ledger : Ledger) (order : Order) :
    order.quantity.toNat =
      (ledger.fillOf order).left.toNat + totalTraded (ledger.fillOf order).trades :=
  sweep_total order.quantity (ledger.book.side order.side.opposite)

/-- The resting orders an accepted order trades with are distinct. -/
theorem Consistent.distinct_trades (consistent : ledger.Consistent) (order : Order) :
    ((ledger.fillOf order).trades.map Trade.restingOrderId).Nodup :=
  (consistent.sound.distinct order.side.opposite).sublist
    (sweep_trades_in_order order.quantity (ledger.book.side order.side.opposite)).sublist

/-- Every trade of an entered order is with an order that rested on the other side. -/
theorem Consistent.trade_maker (consistent : ledger.Consistent) {trade : Trade}
    (member : trade ∈ (ledger.fillOf order).trades) :
    ∃ maker ∈ ledger.book.side order.side.opposite,
      trade = tradeWith order.id maker trade.quantity ∧ trade.quantity ≠ 0 ∧
        trade.quantity ≤ maker.quantity := by
  obtain ⟨maker, inside, _, facts⟩ :=
    sweep_trade (consistent.sound.positive order.side.opposite) member
  exact ⟨maker, inside, facts⟩

/-- The records after an entry, but for the order's own: those of trades are settled. -/
theorem getElem?_enter_of_ne {id : OrderId} (other : id ≠ order.id) :
    (ledger.enter order).records[id]? =
      ((ledger.fillOf order).trades.foldl settle ledger.records)[id]? := by
  show (((ledger.fillOf order).trades.foldl settle ledger.records).insert order.id _)[id]? = _
  rw [ExtTreeMap.getElem?_insert, if_neg (by simpa using other.symm)]

/-- The record of an entered order. -/
theorem getElem?_enter_self :
    (ledger.enter order).records[order.id]? = some { order with
      quantity := (ledger.fillOf order).left
      status := OrderManager.statusAfter (ledger.fillOf order).left
        (order.quantity - (ledger.fillOf order).left) (ledger.rests order) } := by
  show (((ledger.fillOf order).trades.foldl settle ledger.records).insert order.id _)[order.id]? = _
  rw [ExtTreeMap.getElem?_insert_self]

end Ledger

end Titan
