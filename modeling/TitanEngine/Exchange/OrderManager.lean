import TitanEngine.Book.Matcher
import TitanEngine.Library.Grouping
import TitanEngine.Library.Loop

/-!
# The order manager

`OrderManager` of `src/exchange/order_manager.cpp`, with the checks of
`src/exchange/validator.cpp`: validation, lifecycle and self-trade prevention on top of a
matcher. The manager keeps a shadow of the book, for each side and price the ids of the queue,
and decides crossing, priority and self-trades on it. `stpMode_` is read by no function and is
left out.

`orders_.at` throws for an unknown id; here it gives the default order, and no reachable state
asks for one. The loop of `matchWithStp` runs on fuel, one pass more than there are active ids.
-/

namespace Titan

open Library

/-- `AcceptResult`. -/
structure AcceptResult where
  /-- Whether the request was accepted. -/
  accepted : Bool
  /-- Why it was not. -/
  reason : RejectReason
  deriving DecidableEq, Repr, Inhabited

/-- `MatchResult`. -/
structure MatchResult where
  /-- The trades, in order. -/
  trades : List Trade
  /-- Whether the order was accepted. -/
  accept : AcceptResult
  deriving DecidableEq, Repr, Inhabited

/-- `AcceptResult{true, RejectReason::None}`. -/
def AcceptResult.ok : AcceptResult := { accepted := true, reason := .none }

/-- `AcceptResult{false, reason}`. -/
def AcceptResult.reject (reason : RejectReason) : AcceptResult :=
  { accepted := false, reason := reason }

/-- `validateNewOrder`. -/
def validateNewOrder (order : Order) (existingIds : IdSet) : RejectReason :=
  if order.quantity = 0 then .zeroQuantity
  else if order.type = .limit ∧ order.price = 0 then .zeroPrice
  else if existingIds.contains order.id then .duplicateOrderId
  else .none

/-- `validateCancel`. -/
def validateCancel (id : OrderId) (existingIds : IdSet) : RejectReason :=
  if existingIds.contains id then .none else .unknownOrder

/-- Market orders and immediate-or-cancel limits: what `addOrder` and `cancelReplace` refuse. -/
def Order.isMarketOrIoc (order : Order) : Bool :=
  decide (order.type = .market) || (decide (order.type = .limit) && decide (order.tif = .ioc))

/-- The limit an order is matched at: a market order sweeps at an extreme price. -/
def Order.matchPrice (order : Order) : Price :=
  if order.type = .market then
    match order.side with
    | .buy => maxPrice
    | .sell => 0
  else order.price

/-- `mayRest` of `matchOrder`. -/
def Order.mayRest (order : Order) : Bool :=
  !decide (order.type = .market) && !decide (order.tif = .ioc)

/-- The ids of the orders resting at each price of a side. -/
abbrev Shadow := PriceMap (List OrderId)

/-- `OrderManager`, with the matcher it is constructed over. -/
structure OrderManager (M : Type) where
  /-- `matcher_`. -/
  matcher : M
  /-- `restingBidsAt_`. -/
  restingBidsAt : Shadow
  /-- `restingAsksAt_`. -/
  restingAsksAt : Shadow
  /-- `allKnownOrderIds_`. -/
  allKnownOrderIds : IdSet
  /-- `activeOrderIds_`. -/
  activeOrderIds : IdSet
  /-- `orders_`. -/
  orders : IdMap Order

namespace OrderManager

variable {M : Type}

/-- The constructor. -/
def init (matcher : M) : OrderManager M where
  matcher := matcher
  restingBidsAt := ∅
  restingAsksAt := ∅
  allKnownOrderIds := ∅
  activeOrderIds := ∅
  orders := ∅

/-- The shadow queues of one side. -/
def shadow (manager : OrderManager M) : Side → Shadow
  | .buy => manager.restingBidsAt
  | .sell => manager.restingAsksAt

/-- Replace the shadow queues of one side. -/
def setShadow (manager : OrderManager M) (side : Side) (levels : Shadow) : OrderManager M :=
  match side with
  | .buy => { manager with restingBidsAt := levels }
  | .sell => { manager with restingAsksAt := levels }

/-- `trackResting`. -/
def trackResting (manager : OrderManager M) (order : Order) : OrderManager M :=
  let levels := manager.shadow order.side
  manager.setShadow order.side
    (levels.insert order.price (levels.getD order.price [] ++ [order.id]))

/-- `eraseFrom` in `untrackResting`: remove the id from the first level that holds it, and the
level with it when it was the last one. -/
def eraseFrom (id : OrderId) (levels : Shadow) : Bool × Shadow :=
  match levels.toList.find? (fun entry => entry.2.contains id) with
  | some (price, ids) => (true, store levels price (ids.erase id))
  | none => (false, levels)

/-- `untrackResting`. -/
def untrackResting (manager : OrderManager M) (id : OrderId) : OrderManager M :=
  let (erased, bids) := eraseFrom id manager.restingBidsAt
  if erased then { manager with restingBidsAt := bids }
  else { manager with restingAsksAt := (eraseFrom id manager.restingAsksAt).2 }

/-- `wouldCross`. -/
def wouldCross (manager : OrderManager M) (order : Order) : Bool :=
  match bestLevel order.side.opposite (manager.shadow order.side.opposite) with
  | none => false
  | some (price, _) => crosses order.side order.price price

/-- `orders_.at(id)`. -/
def orderAt (manager : OrderManager M) (id : OrderId) : Order := manager.orders.getD id default

/-- `cancelOrder`. -/
def cancelOrder [IMatcher M] (manager : OrderManager M) (id : OrderId) :
    AcceptResult × OrderManager M :=
  match validateCancel id manager.activeOrderIds with
  | .none =>
    let cancelled := { manager with
      matcher := IMatcher.cancelOrder manager.matcher id
      activeOrderIds := manager.activeOrderIds.erase id }
    let untracked := cancelled.untrackResting id
    (.ok, { untracked with
      orders := untracked.orders.insert id { untracked.orderAt id with status := .cancelled } })
  | reason => (.reject reason, manager)

/-- The branch of `cancelReplace` that keeps the queue position: the level is cancelled and
entered again, in its recorded order. -/
def rebuildLevel [IMatcher M] (manager : OrderManager M) (oldId : OrderId) (newOrder : Order) :
    OrderManager M :=
  let levels := manager.shadow newOrder.side
  let ids := levels.getD newOrder.price []
  let recorded := { manager.setShadow newOrder.side (levels.insert newOrder.price ids) with
    orders := manager.orders.insert oldId newOrder }
  let emptied := ids.foldl IMatcher.cancelOrder recorded.matcher
  { recorded with
    matcher := ids.foldl (fun matcher id => IMatcher.addOrder matcher (recorded.orderAt id))
      emptied }

/-- The branch of `cancelReplace` that goes to the back of the level of the new price. -/
def moveOrder [IMatcher M] (manager : OrderManager M) (oldId : OrderId) (newOrder : Order) :
    OrderManager M :=
  let cancelled := { manager with matcher := IMatcher.cancelOrder manager.matcher oldId }
  let untracked := cancelled.untrackResting oldId
  { untracked with
    matcher := IMatcher.addOrder untracked.matcher newOrder
    orders := untracked.orders.insert oldId newOrder
    activeOrderIds := untracked.activeOrderIds.insert oldId }.trackResting newOrder

/-- `cancelReplace`. -/
def cancelReplace [IMatcher M] (manager : OrderManager M) (oldId : OrderId) (newOrder : Order) :
    AcceptResult × OrderManager M :=
  if !manager.activeOrderIds.contains oldId then (.reject .orderNotResting, manager)
  else if newOrder.id ≠ oldId then (.reject .invalidReplace, manager)
  else if newOrder.isMarketOrIoc then (.reject .invalidReplace, manager)
  else
    match validateNewOrder newOrder (manager.allKnownOrderIds.erase oldId) with
    | .none =>
      if manager.wouldCross newOrder then (.reject .replaceWouldCross, manager)
      else
        let existing := manager.orderAt oldId
        let renewed := { newOrder with status := .new }
        if newOrder.price = existing.price ∧ newOrder.quantity ≤ existing.quantity then
          (.ok, manager.rebuildLevel oldId renewed)
        else (.ok, manager.moveOrder oldId renewed)
    | reason => (.reject reason, manager)

/-- What the loop of `matchWithStp` changes. -/
structure StpState (M : Type) where
  /-- The manager. -/
  manager : OrderManager M
  /-- `allTrades`. -/
  allTrades : List Trade
  /-- `filled`. -/
  filled : Quantity
  /-- `remaining`. -/
  remaining : Quantity

/-- The body of the loop over the trades of a probe: the recorded order loses the traded
quantity, and leaves the bookkeeping when nothing of it is left. -/
def settleTrade (manager : OrderManager M) (trade : Trade) : OrderManager M :=
  match manager.orders[trade.restingOrderId]? with
  | none => manager
  | some snapshot =>
    let left := snapshot.quantity - trade.quantity
    if left = 0 then
      { manager with
        orders := manager.orders.insert trade.restingOrderId
          { snapshot with quantity := left, status := .filled }
        activeOrderIds := manager.activeOrderIds.erase trade.restingOrderId }.untrackResting
          trade.restingOrderId
    else
      { manager with
        orders := manager.orders.insert trade.restingOrderId
          { snapshot with quantity := left, status := .partiallyFilled } }

/-- One trade of a probe is collected, counted and settled. -/
def recordTrade (state : StpState M) (trade : Trade) : StpState M where
  manager := state.manager.settleTrade trade
  allTrades := state.allTrades ++ [trade]
  filled := state.filled + trade.quantity
  remaining := state.remaining - trade.quantity

/-- One pass of the loop of `matchWithStp`. -/
def stpPass [IMatcher M] (incoming : Order) (state : StpState M) : ForInStep (StpState M) :=
  let manager := state.manager
  let side := incoming.side.opposite
  if state.remaining > 0 then
    match bestLevel side (manager.shadow side) with
    | none => .done state
    | some (levelPrice, ids) =>
      if crosses incoming.side incoming.price levelPrice then
        match ids with
        | [] =>
          .yield { state with
            manager := manager.setShadow side ((manager.shadow side).erase levelPrice) }
        | frontId :: _ =>
          let resting := manager.orderAt frontId
          if incoming.accountId ≠ 0 ∧ resting.accountId = incoming.accountId then .done state
          else
            let chunk := min state.remaining resting.quantity
            let (trades, matcher) :=
              IMatcher.matchOrder manager.matcher { incoming with quantity := chunk }
            let probed := { state with manager := { manager with matcher := matcher } }
            if trades.isEmpty then .done probed else .yield (trades.foldl recordTrade probed)
      else .done state
  else .done state

/-- `matchWithStp`. -/
def matchWithStp [IMatcher M] (manager : OrderManager M) (incoming : Order) : StpState M :=
  loop (stpPass incoming) (manager.activeOrderIds.size + 1)
    { manager := manager, allTrades := [], filled := 0, remaining := incoming.quantity }

/-- `snapshot.status` at the end of `matchOrder`. -/
def statusAfter (remaining filled : Quantity) (rests : Bool) : OrderStatus :=
  if remaining = 0 then .filled
  else if !rests then if filled > 0 then .filled else .cancelled
  else if filled > 0 then .partiallyFilled else .new

/-- The end of `matchOrder`, after `matchWithStp`: a remainder that may rest and would not cross
is entered, and the order is recorded. -/
def finishMatch [IMatcher M] (order : Order) (matched : StpState M) : OrderManager M :=
  let remaining := order.quantity - matched.filled
  let rests := order.mayRest && decide (remaining > 0) && !matched.manager.wouldCross order
  let rested :=
    if rests then
      let resting := { order with
        quantity := remaining
        status := if matched.filled > 0 then .partiallyFilled else .new }
      { matched.manager with
        matcher := IMatcher.addOrder matched.manager.matcher resting
        activeOrderIds := matched.manager.activeOrderIds.insert order.id }.trackResting resting
    else matched.manager
  let snapshot := { order with
    quantity := remaining
    status := statusAfter remaining matched.filled rests }
  { rested with orders := rested.orders.insert order.id snapshot }

/-- `matchOrder`. -/
def matchOrder [IMatcher M] (manager : OrderManager M) (order : Order) :
    MatchResult × OrderManager M :=
  match validateNewOrder order manager.allKnownOrderIds with
  | .none =>
    let toMatch := { order with price := order.matchPrice }
    let entered := { manager with
      allKnownOrderIds := manager.allKnownOrderIds.insert order.id }
    let matched := entered.matchWithStp toMatch
    ({ trades := matched.allTrades, accept := .ok }, finishMatch order matched)
  | reason => ({ trades := [], accept := .reject reason }, manager)

/-- `addOrder`. -/
def addOrder [IMatcher M] (manager : OrderManager M) (order : Order) :
    AcceptResult × OrderManager M :=
  if order.isMarketOrIoc then (.reject .invalidOrderType, manager)
  else
    match validateNewOrder order manager.allKnownOrderIds with
    | .none => (.ok, (manager.matchOrder order).2)
    | reason => (.reject reason, manager)

/-- `find`. -/
def find (manager : OrderManager M) (id : OrderId) : Option Order := manager.orders[id]?

/-- `statusOf`. -/
def statusOf (manager : OrderManager M) (id : OrderId) : Option OrderStatus :=
  (manager.orders[id]?).map (fun order => order.status)

end OrderManager

/-- A call of the manager. -/
inductive ManagerCall where
  | addOrder (order : Order)
  | matchOrder (order : Order)
  | cancelOrder (id : OrderId)
  | cancelReplace (oldId : OrderId) (newOrder : Order)
  deriving DecidableEq, Repr

/-- The id a call is about. -/
def ManagerCall.id : ManagerCall → OrderId
  | addOrder order => order.id
  | matchOrder order => order.id
  | cancelOrder id => id
  | cancelReplace oldId _ => oldId

/-- Issue one call; only `matchOrder` returns trades. -/
def callManager {M : Type} [IMatcher M] (manager : OrderManager M) (call : ManagerCall) :
    MatchResult × OrderManager M :=
  match call with
  | .addOrder order =>
    let (accept, next) := manager.addOrder order
    ({ trades := [], accept := accept }, next)
  | .matchOrder order => manager.matchOrder order
  | .cancelOrder id =>
    let (accept, next) := manager.cancelOrder id
    ({ trades := [], accept := accept }, next)
  | .cancelReplace oldId newOrder =>
    let (accept, next) := manager.cancelReplace oldId newOrder
    ({ trades := [], accept := accept }, next)

end Titan
