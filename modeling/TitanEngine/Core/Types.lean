import Std.Data.ExtTreeMap
import Std.Data.ExtTreeSet
import Mathlib.Data.List.Basic
import Mathlib.Data.UInt

/-!
# Orders, trades and the containers of the engine

The value types of `titan/core` and of `titan/market_data/book_snapshot.hpp`. Ids, prices and
quantities are 64-bit words, so every sum and difference below wraps as the source's does.
`std::map` and the unordered containers are Std's extensional ordered maps and sets: a walk in
key order is their `toList`, and no modelled function depends on the order in which an
unordered container is visited.
-/

namespace Titan

/-- `Side`. -/
inductive Side where
  | buy
  | sell
  deriving DecidableEq, Repr, Inhabited

/-- The side an order trades against. -/
def Side.opposite : Side → Side
  | buy => sell
  | sell => buy

@[simp] theorem Side.opposite_opposite (side : Side) : side.opposite.opposite = side := by
  cases side <;> rfl

/-- `OrderId`. -/
abbrev OrderId := UInt64

/-- `Price`. -/
abbrev Price := UInt64

/-- `Quantity`. -/
abbrev Quantity := UInt64

/-- `AccountId`. -/
abbrev AccountId := UInt64

/-- `Symbol`: an opaque string, kept as its bytes. -/
abbrev Symbol := List UInt8

/-- `OrderType`. -/
inductive OrderType where
  | limit
  | market
  deriving DecidableEq, Repr, Inhabited

/-- `TimeInForce`. -/
inductive TimeInForce where
  | gtc
  | ioc
  deriving DecidableEq, Repr, Inhabited

/-- `OrderStatus`. -/
inductive OrderStatus where
  | new
  | partiallyFilled
  | filled
  | cancelled
  | rejected
  deriving DecidableEq, Repr, Inhabited

/-- `RejectReason`. -/
inductive RejectReason where
  | none
  | zeroQuantity
  | zeroPrice
  | duplicateOrderId
  | unknownOrder
  | orderNotResting
  | invalidReplace
  | invalidOrderType
  | replaceWouldCross
  | unknownSymbol
  deriving DecidableEq, Repr, Inhabited

/-- `Order`, with the defaults of its last four fields. -/
structure Order where
  /-- Order id. -/
  id : OrderId
  /-- Buy or sell. -/
  side : Side
  /-- Limit price. -/
  price : Price
  /-- Quantity still open. -/
  quantity : Quantity
  /-- Owner; zero is no account. -/
  accountId : AccountId := 0
  /-- Limit or market. -/
  type : OrderType := .limit
  /-- Good till cancelled, or immediate or cancel. -/
  tif : TimeInForce := .gtc
  /-- Lifecycle status. -/
  status : OrderStatus := .new
  deriving DecidableEq, Repr, Inhabited

/-- `Trade`. -/
structure Trade where
  /-- The order that arrived. -/
  incomingOrderId : OrderId
  /-- The order that was resting. -/
  restingOrderId : OrderId
  /-- The resting order's price. -/
  price : Price
  /-- Traded quantity. -/
  quantity : Quantity
  deriving DecidableEq, Repr, Inhabited

/-- `PriceLevel`: aggregated resting quantity at one price. -/
structure PriceLevel where
  /-- The level's price. -/
  price : Price
  /-- Sum of the resting quantities, modulo 2^64. -/
  quantity : Quantity
  deriving DecidableEq, Repr, Inhabited

/-- `BookSnapshot`: bids best first descending, asks best first ascending. -/
structure BookSnapshot where
  /-- The instrument's symbol. -/
  symbol : Symbol
  /-- Number of the snapshot within its instrument. -/
  sequenceNumber : UInt64
  /-- Bid levels, best first. -/
  bids : List PriceLevel
  /-- Ask levels, best first. -/
  asks : List PriceLevel
  deriving DecidableEq, Repr, Inhabited

/-- `std::map<Price, β>`. -/
abbrev PriceMap (β : Type) := Std.ExtTreeMap Price β

/-- `std::unordered_map<OrderId, β>`. -/
abbrev IdMap (β : Type) := Std.ExtTreeMap OrderId β

/-- `std::unordered_set<OrderId>`. -/
abbrev IdSet := Std.ExtTreeSet OrderId

/-- `std::numeric_limits<Price>::max()`. -/
def maxPrice : Price := 0xFFFFFFFFFFFFFFFF

/-- Whether an order limited to `limit` on `side` trades with an order resting at `price` on
the other side. -/
def crosses (side : Side) (limit price : Price) : Bool :=
  match side with
  | .buy => decide (limit ≥ price)
  | .sell => decide (limit ≤ price)

/-- The best entry of the levels of one side: the last for bids, the first for asks. -/
def bestLevel {β : Type} (side : Side) (levels : PriceMap β) : Option (Price × β) :=
  match side with
  | .buy => levels.toList.getLast?
  | .sell => levels.toList.head?

/-- The levels of one side, best first: walked downwards for bids, upwards for asks. -/
def bestFirst {β : Type} (side : Side) (levels : PriceMap β) : List (Price × β) :=
  match side with
  | .buy => levels.toList.reverse
  | .sell => levels.toList

/-- `depthFrom`: the first `maxLevels` levels in walking order, each with the wrapping sum of
the quantities resting there. -/
def depthFrom {β : Type} (quantities : β → List Quantity) (side : Side) (levels : PriceMap β)
    (maxLevels : Nat) : List PriceLevel :=
  ((bestFirst side levels).take maxLevels).map
    (fun entry => { price := entry.1, quantity := (quantities entry.2).sum })

/-- Depth depends on the levels only through their quantities. -/
theorem depthFrom_map {β γ : Type} (view : β → γ) (quantities : γ → List Quantity) (side : Side)
    (levels : PriceMap β) (maxLevels : Nat) :
    depthFrom quantities side (levels.map (fun _ level => view level)) maxLevels =
      depthFrom (quantities ∘ view) side levels maxLevels := by
  cases side <;>
    simp only [depthFrom, bestFirst, Std.ExtTreeMap.toList_map, ← List.map_reverse,
      ← List.map_take, List.map_map] <;> rfl

/-- A view of the levels is a view of the best one. -/
theorem bestLevel_map {β γ : Type} (view : β → γ) (side : Side) (levels : PriceMap β) :
    bestLevel side (levels.map (fun _ level => view level)) =
      (bestLevel side levels).map (fun entry => (entry.1, view entry.2)) := by
  cases side <;> simp [bestLevel, Std.ExtTreeMap.toList_map]

/-- The best level is stored under its price. -/
theorem getElem?_of_bestLevel {β : Type} {side : Side} {levels : PriceMap β} {price : Price}
    {level : β} (best : bestLevel side levels = some (price, level)) :
    levels[price]? = some level := by
  rw [← Std.ExtTreeMap.mem_toList_iff_getElem?_eq_some]
  cases side with
  | buy => exact List.mem_of_getLast? best
  | sell => exact List.mem_of_head? best

/-- Only a side without levels has no best level. -/
theorem isEmpty_iff_bestLevel {β : Type} (side : Side) (levels : PriceMap β) :
    levels.isEmpty = true ↔ bestLevel side levels = none := by
  rw [Std.ExtTreeMap.isEmpty_iff, ← Std.ExtTreeMap.toList_eq_nil_iff]
  cases side with
  | buy => exact List.getLast?_eq_none_iff.symm
  | sell => exact List.head?_eq_none_iff.symm

end Titan
