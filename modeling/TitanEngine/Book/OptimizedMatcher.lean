import TitanEngine.Book.Matcher
import TitanEngine.Core.MemoryPool
import TitanEngine.Library.Loop

/-!
# The optimized matcher

`OptimizedMatcher` of `src/book/optimized_matcher.cpp`. A level is an append-only vector of
pointers into the order pool; a removed order leaves a null pointer behind, so an index into a
level stays valid, and `frontIndex` skips the nulls at the front once they have been seen.

The crossing loop runs on fuel, one pass more than there are entries in `orderTable_`.
-/

namespace Titan

open Library

/-- `OptimizedMatcher::Level`. -/
structure Level where
  /-- `orders`: addresses in the pool, `none` for a null pointer. -/
  orders : List (Option Nat) := []
  /-- `frontIndex`. -/
  frontIndex : Nat := 0
  /-- `liveCount`. -/
  liveCount : Nat := 0
  deriving DecidableEq, Repr

/-- `OptimizedMatcher::OrderRef`. -/
structure OrderRef where
  /-- Side of the book. -/
  side : Side
  /-- Price of the level. -/
  price : Price
  /-- Index into the level's vector. -/
  index : Nat
  deriving DecidableEq, Repr

/-- `OptimizedMatcher::Levels`. -/
abbrev Levels := PriceMap Level

/-- `OptimizedMatcher`. -/
structure OptimizedMatcher where
  /-- `bids_`. -/
  bids : Levels
  /-- `asks_`. -/
  asks : Levels
  /-- `orderTable_`. -/
  orderTable : IdMap OrderRef
  /-- `orderPool_`. -/
  orderPool : FixedObjectPool Order

namespace OptimizedMatcher

/-- An empty book over a pool that allocates from the given ranges. -/
def init (allocator : SlabAllocator) : OptimizedMatcher where
  bids := ∅
  asks := ∅
  orderTable := ∅
  orderPool := FixedObjectPool.init allocator

/-- The levels of one side. -/
def levels (matcher : OptimizedMatcher) : Side → Levels
  | .buy => matcher.bids
  | .sell => matcher.asks

/-- Replace the levels of one side. -/
def setLevels (matcher : OptimizedMatcher) (side : Side) (levels : Levels) : OptimizedMatcher :=
  match side with
  | .buy => { matcher with bids := levels }
  | .sell => { matcher with asks := levels }

/-- `restOrder`. -/
def restOrder (matcher : OptimizedMatcher) (order : Order) : OptimizedMatcher :=
  let levels := matcher.levels order.side
  let level := levels.getD order.price {}
  let index := level.orders.length
  let (slot, acquired) := matcher.orderPool.acquire
  let level := { level with
    orders := level.orders ++ [some slot]
    liveCount := level.liveCount + 1 }
  let reference : OrderRef := { side := order.side, price := order.price, index := index }
  { matcher.setLevels order.side (levels.insert order.price level) with
    orderTable := matcher.orderTable.insert order.id reference
    orderPool := acquired.write slot (some order) }

/-- `removeOrder`. -/
def removeOrder (matcher : OptimizedMatcher) (id : OrderId) : OptimizedMatcher :=
  match matcher.orderTable[id]? with
  | none => matcher
  | some reference =>
    let levels := matcher.levels reference.side
    let level := levels.getD reference.price {}
    let released := matcher.orderPool.release (level.orders[reference.index]?).join
    let level := { level with
      orders := level.orders.set reference.index none
      liveCount := level.liveCount - 1 }
    let levels := if level.liveCount = 0 then levels.erase reference.price
      else levels.insert reference.price level
    { matcher.setLevels reference.side levels with
      orderTable := matcher.orderTable.erase id
      orderPool := released }

/-- The loop of `frontLive`: the index of the first pointer from `index` on that is not null, or
the size of the vector, when `rest` is the vector from `index` on. -/
def skipTombstones : List (Option Nat) → Nat → Nat
  | none :: rest, index => skipTombstones rest (index + 1)
  | some _ :: _, index => index
  | [], index => index

/-- `frontLive`: the level with its `frontIndex` advanced, and the pointer found there. -/
def frontLive (level : Level) : Option Nat × Level :=
  let frontIndex := skipTombstones (level.orders.drop level.frontIndex) level.frontIndex
  ((level.orders[frontIndex]?).join, { level with frontIndex := frontIndex })

/-- One pass of the loop of `cross`. -/
def crossPass (state : CrossState OptimizedMatcher) : ForInStep (CrossState OptimizedMatcher) :=
  let side := state.incoming.side.opposite
  let opposite := state.matcher.levels side
  if state.incoming.quantity > 0 then
    match bestLevel side opposite with
    | none => .done state
    | some (levelPrice, level) =>
      if crosses state.incoming.side state.incoming.price levelPrice then
        let (pointer, level) := frontLive level
        let advanced := state.matcher.setLevels side (opposite.insert levelPrice level)
        match pointer with
        | none =>
          .yield { state with matcher := advanced.setLevels side (opposite.erase levelPrice) }
        | some address =>
          let resting := (advanced.orderPool.read address).getD default
          let traded := min state.incoming.quantity resting.quantity
          let trade : Trade :=
            { incomingOrderId := state.incoming.id, restingOrderId := resting.id,
              price := resting.price, quantity := traded }
          let left := resting.quantity - traded
          let reduced := { advanced with
            orderPool := advanced.orderPool.write address
              (some { resting with quantity := left }) }
          .yield
            { matcher := if left = 0 then reduced.removeOrder resting.id else reduced
              incoming := { state.incoming with quantity := state.incoming.quantity - traded }
              trades := state.trades ++ [trade] }
      else .done state
  else .done state

/-- `cross`. -/
def cross (matcher : OptimizedMatcher) (incoming : Order) : CrossState OptimizedMatcher :=
  loop crossPass (matcher.orderTable.size + 1)
    { matcher := matcher, incoming := incoming, trades := [] }

/-- `addOrder`. -/
def addOrder (matcher : OptimizedMatcher) (order : Order) : OptimizedMatcher :=
  let crossed := cross matcher order
  if crossed.incoming.quantity > 0 then crossed.matcher.restOrder crossed.incoming
  else crossed.matcher

/-- `matchOrder`. -/
def matchOrder (matcher : OptimizedMatcher) (incomingOrder : Order) :
    List Trade × OptimizedMatcher :=
  let crossed := cross matcher incomingOrder
  (crossed.trades,
    if crossed.incoming.quantity > 0 then crossed.matcher.restOrder crossed.incoming
    else crossed.matcher)

/-- `cancelOrder`. -/
def cancelOrder (matcher : OptimizedMatcher) (id : OrderId) : OptimizedMatcher :=
  matcher.removeOrder id

/-- `bestBid`: the largest price for an empty side. -/
def bestBid (matcher : OptimizedMatcher) : Price :=
  match bestLevel .buy matcher.bids with
  | some (price, _) => price
  | none => maxPrice

/-- `bestAsk`: zero for an empty side. -/
def bestAsk (matcher : OptimizedMatcher) : Price :=
  match bestLevel .sell matcher.asks with
  | some (price, _) => price
  | none => 0

/-- The orders a level points to, tombstones skipped, front first. -/
def liveOrders (pool : FixedObjectPool Order) (level : Level) : List Order :=
  (level.orders.filterMap id).filterMap pool.read

/-- The quantities of a level, front first. -/
def quantities (pool : FixedObjectPool Order) (level : Level) : List Quantity :=
  (liveOrders pool level).map (fun order => order.quantity)

/-- `bidDepth`. -/
def bidDepth (matcher : OptimizedMatcher) (maxLevels : Nat) : List PriceLevel :=
  depthFrom (quantities matcher.orderPool) .buy matcher.bids maxLevels

/-- `askDepth`. -/
def askDepth (matcher : OptimizedMatcher) (maxLevels : Nat) : List PriceLevel :=
  depthFrom (quantities matcher.orderPool) .sell matcher.asks maxLevels

instance : IMatcher OptimizedMatcher where
  addOrder := addOrder
  cancelOrder := cancelOrder
  matchOrder := matchOrder
  bestBid := bestBid
  bestAsk := bestAsk
  bidDepth := bidDepth
  askDepth := askDepth

instance : RestingLevels OptimizedMatcher where
  restingLevels matcher side :=
    (matcher.levels side).map (fun _ level => liveOrders matcher.orderPool level)

end OptimizedMatcher

end Titan
