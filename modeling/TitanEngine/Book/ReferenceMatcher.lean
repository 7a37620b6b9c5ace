import TitanEngine.Book.Matcher
import TitanEngine.Library.Loop

/-!
# The reference matcher

`ReferenceMatcher` of `reference/order_book.cpp`. A level is a `std::list<Order>`: each of its
nodes has an address of its own, which is what the iterators in `orderTable` hold, and erasing
through an iterator removes the node with that address. A node address is taken from a counter,
as `push_back` allocates a new node.

The crossing loop runs on fuel, one pass more than there are entries in `orderTable`.
-/

namespace Titan

open Library

/-- One node of a `std::list<Order>`. -/
structure OrderNode where
  /-- Address of the node. -/
  address : Nat
  /-- The order stored in it. -/
  order : Order
  deriving DecidableEq, Repr

/-- `OrderLocation`. -/
structure OrderLocation where
  /-- Side of the book. -/
  side : Side
  /-- Price of the level. -/
  price : Price
  /-- Iterator: the address of the node. -/
  it : Nat
  deriving DecidableEq, Repr

/-- `PriceLevels`. -/
abbrev PriceLevels := PriceMap (List OrderNode)

/-- `ReferenceMatcher`. -/
structure ReferenceMatcher where
  /-- `bids`. -/
  bids : PriceLevels
  /-- `asks`. -/
  asks : PriceLevels
  /-- `orderTable`. -/
  orderTable : IdMap OrderLocation
  /-- Address of the next list node. -/
  nextNode : Nat

namespace ReferenceMatcher

/-- An empty book. -/
def init : ReferenceMatcher where
  bids := ∅
  asks := ∅
  orderTable := ∅
  nextNode := 0

/-- The levels of one side. -/
def levels (matcher : ReferenceMatcher) : Side → PriceLevels
  | .buy => matcher.bids
  | .sell => matcher.asks

/-- Replace the levels of one side. -/
def setLevels (matcher : ReferenceMatcher) (side : Side) (levels : PriceLevels) :
    ReferenceMatcher :=
  match side with
  | .buy => { matcher with bids := levels }
  | .sell => { matcher with asks := levels }

/-- `bestBid`: the largest price for an empty side. -/
def bestBid (matcher : ReferenceMatcher) : Price :=
  match bestLevel .buy matcher.bids with
  | some (price, _) => price
  | none => maxPrice

/-- `bestAsk`: zero for an empty side. -/
def bestAsk (matcher : ReferenceMatcher) : Price :=
  match bestLevel .sell matcher.asks with
  | some (price, _) => price
  | none => 0

/-- `restOrder`. -/
def restOrder (matcher : ReferenceMatcher) (order : Order) : ReferenceMatcher :=
  let levels := matcher.levels order.side
  let node : OrderNode := { address := matcher.nextNode, order := order }
  let level := levels.getD order.price [] ++ [node]
  let location : OrderLocation := { side := order.side, price := order.price, it := node.address }
  { matcher.setLevels order.side (levels.insert order.price level) with
    orderTable := matcher.orderTable.insert order.id location
    nextNode := matcher.nextNode + 1 }

/-- `removeOrder`. -/
def removeOrder (matcher : ReferenceMatcher) (id : OrderId) : ReferenceMatcher :=
  match matcher.orderTable[id]? with
  | none => matcher
  | some location =>
    let levels := matcher.levels location.side
    let level := (levels.getD location.price []).filter (fun node => node.address != location.it)
    let levels := if level.isEmpty then levels.erase location.price
      else levels.insert location.price level
    { matcher.setLevels location.side levels with
      orderTable := matcher.orderTable.erase id }

/-- `resting.quantity = quantity`, through the reference to the front of a level. -/
def setFrontQuantity (matcher : ReferenceMatcher) (side : Side) (price : Price)
    (quantity : Quantity) : ReferenceMatcher :=
  match (matcher.levels side).getD price [] with
  | [] => matcher
  | front :: rest =>
    let changed := { front with order := { front.order with quantity := quantity } }
    matcher.setLevels side ((matcher.levels side).insert price (changed :: rest))

/-- The guard of the loop of `cross`. -/
def crossGuard (matcher : ReferenceMatcher) (incoming : Order) : Bool :=
  match incoming.side with
  | .buy => decide (incoming.quantity > 0) && decide (incoming.price ≥ matcher.bestAsk) &&
      !matcher.asks.isEmpty
  | .sell => decide (incoming.quantity > 0) && decide (incoming.price ≤ matcher.bestBid) &&
      !matcher.bids.isEmpty

/-- The best price of the side the incoming order trades against. -/
def oppositeBest (matcher : ReferenceMatcher) : Side → Price
  | .buy => matcher.bestAsk
  | .sell => matcher.bestBid

/-- One pass of the loop of `cross`: trade with the front of the best level. A nonempty side has
no empty level in any reachable book, so the source's `front()` is always defined. -/
def crossPass (state : CrossState ReferenceMatcher) : ForInStep (CrossState ReferenceMatcher) :=
  if crossGuard state.matcher state.incoming then
    let side := state.incoming.side.opposite
    let price := state.matcher.oppositeBest state.incoming.side
    match (state.matcher.levels side).getD price [] with
    | [] => .done state
    | front :: _ =>
      let resting := front.order
      let traded := min state.incoming.quantity resting.quantity
      let trade : Trade :=
        { incomingOrderId := state.incoming.id, restingOrderId := resting.id,
          price := resting.price, quantity := traded }
      let left := resting.quantity - traded
      let reduced := state.matcher.setFrontQuantity side price left
      .yield
        { matcher := if left = 0 then reduced.removeOrder resting.id else reduced
          incoming := { state.incoming with quantity := state.incoming.quantity - traded }
          trades := state.trades ++ [trade] }
  else .done state

/-- `cross`. -/
def cross (matcher : ReferenceMatcher) (incoming : Order) : CrossState ReferenceMatcher :=
  loop crossPass (matcher.orderTable.size + 1)
    { matcher := matcher, incoming := incoming, trades := [] }

/-- `matchOrder`. -/
def matchOrder (matcher : ReferenceMatcher) (incomingOrder : Order) :
    List Trade × ReferenceMatcher :=
  let crossed := cross matcher incomingOrder
  (crossed.trades,
    if crossed.incoming.quantity > 0 then crossed.matcher.restOrder crossed.incoming
    else crossed.matcher)

/-- `addOrder`. -/
def addOrder (matcher : ReferenceMatcher) (order : Order) : ReferenceMatcher :=
  let crossed := cross matcher order
  if crossed.incoming.quantity > 0 then crossed.matcher.restOrder crossed.incoming
  else crossed.matcher

/-- `cancelOrder`. -/
def cancelOrder (matcher : ReferenceMatcher) (id : OrderId) : ReferenceMatcher :=
  matcher.removeOrder id

/-- The quantities of a level, front first. -/
def quantities (level : List OrderNode) : List Quantity :=
  level.map (fun node => node.order.quantity)

/-- `bidDepth`. -/
def bidDepth (matcher : ReferenceMatcher) (maxLevels : Nat) : List PriceLevel :=
  depthFrom quantities .buy matcher.bids maxLevels

/-- `askDepth`. -/
def askDepth (matcher : ReferenceMatcher) (maxLevels : Nat) : List PriceLevel :=
  depthFrom quantities .sell matcher.asks maxLevels

instance : IMatcher ReferenceMatcher where
  addOrder := addOrder
  cancelOrder := cancelOrder
  matchOrder := matchOrder
  bestBid := bestBid
  bestAsk := bestAsk
  bidDepth := bidDepth
  askDepth := askDepth

instance : RestingLevels ReferenceMatcher where
  restingLevels matcher side :=
    (matcher.levels side).map (fun _ level => level.map (fun node => node.order))

end ReferenceMatcher

end Titan
