import TitanEngine.Exchange.QuantityLedger
import TitanEngine.Exchange.RegistryRuns

/-!
# What a log says of an order

Read on its own, a log tells of every order how much of it is open, how much it traded and
whether it was cancelled. It is well formed when it speaks of orders that were submitted before,
submits each of them once and never trades an order with itself. In such a log the trades of an
order are those in which it is named, and the quantity it traded is their sum.
-/

namespace Titan

open Library

/-- What a log says of one order. -/
structure OrderView where
  /-- What is open. -/
  leaves : Quantity
  /-- What was traded. -/
  traded : Nat
  /-- Whether it was cancelled. -/
  cancelled : Bool
  deriving DecidableEq, Repr

namespace OrderView

/-- A trade. -/
def fill (view : OrderView) (quantity : Quantity) : OrderView where
  leaves := view.leaves - quantity
  traded := view.traded + quantity.toNat
  cancelled := false

/-- A replacement. -/
def replace (view : OrderView) (quantity : Quantity) : OrderView :=
  { view with leaves := quantity, cancelled := false }

/-- A cancel. -/
def cancel (view : OrderView) : OrderView := { view with cancelled := true }

/-- What is open, once a cancel closes it. -/
def reported (view : OrderView) : Quantity := if view.cancelled then 0 else view.leaves

end OrderView

/-- What a log says of each order that it submits. -/
abbrev Views := Symbol → OrderId → Option OrderView

namespace Views

/-- Nothing is submitted. -/
def empty : Views := fun _ _ => none

/-- Say something else of one order. -/
def put (views : Views) (symbol : Symbol) (id : OrderId) (view : Option OrderView) : Views :=
  fun other name => if other = symbol ∧ name = id then view else views other name

/-- Change what is said of one order. -/
def change (views : Views) (symbol : Symbol) (id : OrderId) (next : OrderView → OrderView) :
    Views :=
  views.put symbol id ((views symbol id).map next)

/-- One more event. -/
def step (views : Views) : EventPayload → Views
  | .orderSubmitted symbol id _ _ quantity =>
    views.put symbol id (some { leaves := quantity, traded := 0, cancelled := false })
  | .orderCancelled symbol id => views.change symbol id OrderView.cancel
  | .orderReplaced symbol id _ quantity =>
    views.change symbol id (fun view => view.replace quantity)
  | .tradeExecuted symbol incoming resting _ quantity =>
    (views.change symbol incoming (fun view => view.fill quantity)).change symbol resting
      (fun view => view.fill quantity)
  | .orderRejected _ _ _ => views

/-- The event may come next. -/
def Follows (views : Views) : EventPayload → Prop
  | .orderSubmitted symbol id _ _ _ => views symbol id = none
  | .orderCancelled symbol id => (views symbol id).isSome = true
  | .orderReplaced symbol id _ _ => (views symbol id).isSome = true
  | .tradeExecuted symbol incoming resting _ _ =>
    incoming ≠ resting ∧ (views symbol incoming).isSome = true ∧
      (views symbol resting).isSome = true
  | .orderRejected _ _ _ => True

/-- What is said of the order itself. -/
@[simp] theorem put_same (views : Views) (symbol : Symbol) (id : OrderId)
    (view : Option OrderView) : views.put symbol id view symbol id = view := by
  simp [put]

/-- What is said of another order of the symbol. -/
theorem put_of_id_ne (views : Views) (symbol : Symbol) {id other : OrderId}
    (view : Option OrderView) (apart : other ≠ id) :
    views.put symbol id view symbol other = views symbol other := by
  simp [put, apart]

/-- What is said of an order of another symbol. -/
theorem put_of_symbol_ne (views : Views) {symbol other : Symbol} (id name : OrderId)
    (view : Option OrderView) (apart : other ≠ symbol) :
    views.put symbol id view other name = views other name := by
  simp [put, apart]

/-- Changing an order that is known says what it is changed to. -/
theorem change_known {views : Views} {symbol : Symbol} {id : OrderId} {view : OrderView}
    (known : views symbol id = some view) (next : OrderView → OrderView) :
    views.change symbol id next = views.put symbol id (some (next view)) := by
  rw [change, known]
  rfl

/-- What a change says of an order of the symbol. -/
theorem change_at (views : Views) (symbol : Symbol) (id : OrderId)
    (next : OrderView → OrderView) (name : OrderId) :
    views.change symbol id next symbol name =
      (views symbol name).map (fun view => if name = id then next view else view) := by
  by_cases same : name = id
  · subst same
    simp [change]
  · rw [change, put_of_id_ne _ _ _ same]
    simp [same]

/-- A change makes no order known. -/
theorem isSome_change (views : Views) (symbol : Symbol) (id : OrderId)
    (next : OrderView → OrderView) (other : Symbol) (name : OrderId) :
    (views.change symbol id next other name).isSome = (views other name).isSome := by
  unfold change put
  split
  · rename_i same
    rw [same.1, same.2, Option.isSome_map]
  · rfl

/-- A change that is no trade leaves what was traded. -/
theorem traded_change (views : Views) {symbol : Symbol} {id : OrderId}
    (next : OrderView → OrderView) (keeps : ∀ view, (next view).traded = view.traded)
    {other : Symbol} {name : OrderId} :
    (views.change symbol id next other name).map OrderView.traded =
      (views other name).map OrderView.traded := by
  unfold change put
  split
  · rename_i same
    rw [same.1, same.2, Option.map_map]
    exact congrArg (fun read => (views symbol id).map read) (funext keeps)
  · rfl

/-- A trade between two orders that are known changes both. -/
theorem step_trade {views : Views} {symbol : Symbol} {incoming resting : OrderId}
    {first second : OrderView} (apart : incoming ≠ resting)
    (entered : views symbol incoming = some first) (rested : views symbol resting = some second)
    (price : Price) (quantity : Quantity) :
    views.step (.tradeExecuted symbol incoming resting price quantity) =
      (views.put symbol incoming (some (first.fill quantity))).put symbol resting
        (some (second.fill quantity)) := by
  have still : (views.put symbol incoming (some (first.fill quantity))) symbol resting =
      some second := by
    rw [put_of_id_ne _ _ _ apart.symm, rested]
  rw [step, change_known entered, change_known still]

/-- An event of another symbol says nothing of an order. -/
theorem step_other (views : Views) {symbol : Symbol} {payload : EventPayload}
    (apart : payload.symbol ≠ symbol) (id : OrderId) :
    views.step payload symbol id = views symbol id := by
  have away : symbol ≠ payload.symbol := apart.symm
  cases payload with
  | orderSubmitted other name side price quantity => exact put_of_symbol_ne _ _ _ _ away
  | orderCancelled other name => exact put_of_symbol_ne _ _ _ _ away
  | orderReplaced other name price quantity => exact put_of_symbol_ne _ _ _ _ away
  | tradeExecuted other incoming resting price quantity =>
    exact (put_of_symbol_ne _ _ _ _ away).trans (put_of_symbol_ne _ _ _ _ away)
  | orderRejected other name reason => rfl

/-- Events of another symbol say nothing of an order. -/
theorem foldl_step_other (views : Views) {symbol : Symbol} {events : List EventPayload}
    (apart : ∀ event ∈ events, event.symbol ≠ symbol) (id : OrderId) :
    events.foldl step views symbol id = views symbol id := by
  induction events generalizing views with
  | nil => rfl
  | cons event rest ih =>
    rw [List.foldl_cons, ih _ (fun other member => apart other (List.mem_cons_of_mem _ member)),
      step_other views (apart event List.mem_cons_self)]

end Views

/-- What a log says of its orders. -/
def viewsOf (payloads : List EventPayload) : Views := payloads.foldl Views.step Views.empty

/-- One more event changes what the log says. -/
theorem viewsOf_concat (payloads : List EventPayload) (payload : EventPayload) :
    viewsOf (payloads ++ [payload]) = (viewsOf payloads).step payload := by
  simp [viewsOf]

/-- More events change what the log says. -/
theorem viewsOf_append (payloads events : List EventPayload) :
    viewsOf (payloads ++ events) = events.foldl Views.step (viewsOf payloads) := by
  simp [viewsOf]

/-- Every event may come after those before it. -/
def WellFormed (payloads : List EventPayload) : Prop :=
  Grows (fun earlier payload => (viewsOf earlier).Follows payload) payloads

/-- The trade that an event reports, if it is one of the symbol. -/
def EventPayload.tradeOn (symbol : Symbol) : EventPayload → Option Trade
  | tradeExecuted other incoming resting price quantity =>
    if other = symbol then
      some
        { incomingOrderId := incoming
          restingOrderId := resting
          price := price
          quantity := quantity }
    else none
  | _ => none

/-- The trades of a symbol that a log reports. -/
def tradesOn (symbol : Symbol) (payloads : List EventPayload) : List Trade :=
  payloads.filterMap (EventPayload.tradeOn symbol)

/-- Two parts of a log. -/
theorem tradesOn_append (symbol : Symbol) (first second : List EventPayload) :
    tradesOn symbol (first ++ second) = tradesOn symbol first ++ tradesOn symbol second :=
  List.filterMap_append

/-- Events of other symbols report no trade. -/
theorem tradesOn_of_ne {symbol : Symbol} {events : List EventPayload}
    (apart : ∀ event ∈ events, event.symbol ≠ symbol) : tradesOn symbol events = [] := by
  rw [tradesOn, List.filterMap_eq_nil_iff]
  intro event member
  cases event with
  | tradeExecuted other incoming resting price quantity =>
    have away : other ≠ symbol := apart _ member
    simp [EventPayload.tradeOn, away]
  | _ => rfl

/-- The events of trades report them. -/
theorem tradesOn_trades (symbol : Symbol) (trades : List Trade) :
    tradesOn symbol (trades.map (Trade.event symbol)) = trades := by
  induction trades with
  | nil => rfl
  | cons trade rest ih =>
    simp only [tradesOn] at ih
    simp [tradesOn, Trade.event, EventPayload.tradeOn, ih]

/-- The events of a request report the trades that it returned. -/
theorem tradesOn_eventsOf (symbol : Symbol) (request : ManagerCall) (result : MatchResult) :
    tradesOn symbol (eventsOf symbol request result) = result.trades := by
  have head : EventPayload.tradeOn symbol (if result.accept.accepted then
      request.acceptedEvent symbol
      else .orderRejected symbol request.id result.accept.reason) = none := by
    split
    · cases request <;> rfl
    · rfl
  rw [eventsOf, tradesOn, List.filterMap_cons_none head]
  exact tradesOn_trades symbol result.trades

/-- What an event adds to what an order traded is its trade. -/
theorem Views.Follows.traded {views : Views} {payload : EventPayload}
    (follows : views.Follows payload) (symbol : Symbol) (id : OrderId) :
    ((views.step payload symbol id).map OrderView.traded).getD 0 =
      ((views symbol id).map OrderView.traded).getD 0 +
        tradedBy id (tradesOn symbol [payload]) := by
  by_cases here : payload.symbol = symbol
  · subst here
    cases payload with
    | orderSubmitted symbol name side price quantity =>
      have new : views symbol name = none := follows
      by_cases same : id = name
      · subst same
        show ((views.put symbol id _ symbol id).map OrderView.traded).getD 0 = _
        rw [Views.put_same, EventPayload.symbol, new]
        rfl
      · show ((views.put symbol name _ symbol id).map OrderView.traded).getD 0 = _
        rw [Views.put_of_id_ne _ _ _ same]
        rfl
    | orderCancelled symbol name =>
      exact congrArg (fun read => read.getD 0)
        (Views.traded_change views OrderView.cancel (fun _ => rfl))
    | orderReplaced symbol name price quantity =>
      exact congrArg (fun read => read.getD 0)
        (Views.traded_change views (fun view => view.replace quantity) (fun _ => rfl))
    | tradeExecuted symbol incoming resting price quantity =>
      obtain ⟨apart, entered, rested⟩ := follows
      obtain ⟨first, entered⟩ := Option.isSome_iff_exists.mp entered
      obtain ⟨second, rested⟩ := Option.isSome_iff_exists.mp rested
      rw [Views.step_trade apart entered rested, EventPayload.symbol]
      by_cases own : id = resting
      · subst own
        simp [rested, OrderView.fill, tradesOn, EventPayload.tradeOn, tradedBy, totalTraded]
      · rw [Views.put_of_id_ne _ _ _ own]
        by_cases took : id = incoming
        · subst took
          simp [entered, OrderView.fill, tradesOn, EventPayload.tradeOn, tradedBy, totalTraded]
        · rw [Views.put_of_id_ne _ _ _ took]
          simp [Ne.symm own, Ne.symm took, tradesOn, EventPayload.tradeOn, tradedBy, totalTraded]
    | orderRejected symbol name reason => rfl
  · rw [views.step_other here, tradesOn_of_ne (by simpa using here)]
    rfl

/-- What an order traded is what its trades sum up to. -/
theorem WellFormed.traded {payloads : List EventPayload} (formed : WellFormed payloads)
    (symbol : Symbol) (id : OrderId) :
    ((viewsOf payloads symbol id).map OrderView.traded).getD 0 =
      tradedBy id (tradesOn symbol payloads) := by
  induction payloads using List.reverseRecOn with
  | nil => rfl
  | append_singleton payloads payload ih =>
    obtain ⟨before, follows⟩ := grows_concat.mp formed
    rw [viewsOf_concat, follows.traded, ih before, tradesOn_append, tradedBy_append]

/-- An order that is known stays known. -/
theorem Views.isSome_step {views : Views} {symbol : Symbol} {id : OrderId}
    (known : (views symbol id).isSome = true) (payload : EventPayload) :
    (views.step payload symbol id).isSome = true := by
  cases payload with
  | orderSubmitted other name side price quantity =>
    simp only [Views.step, Views.put]
    split
    · rfl
    · exact known
  | orderCancelled other name => exact (Views.isSome_change ..).trans known
  | orderReplaced other name price quantity => exact (Views.isSome_change ..).trans known
  | tradeExecuted other incoming resting price quantity =>
    exact (Views.isSome_change ..).trans ((Views.isSome_change ..).trans known)
  | orderRejected other name reason => exact known

/-- A log stays well formed when trades between known orders are added. -/
theorem WellFormed.trades {payloads : List EventPayload} (formed : WellFormed payloads)
    (symbol : Symbol) {trades : List Trade}
    (known : ∀ trade ∈ trades, trade.incomingOrderId ≠ trade.restingOrderId ∧
      (viewsOf payloads symbol trade.incomingOrderId).isSome = true ∧
      (viewsOf payloads symbol trade.restingOrderId).isSome = true) :
    WellFormed (payloads ++ trades.map (Trade.event symbol)) := by
  induction trades generalizing payloads with
  | nil => simpa using formed
  | cons trade rest ih =>
    have split : payloads ++ (trade :: rest).map (Trade.event symbol) =
        (payloads ++ [trade.event symbol]) ++ rest.map (Trade.event symbol) := by simp
    rw [split]
    refine ih (grows_concat.mpr ⟨formed, known trade List.mem_cons_self⟩) ?_
    intro other member
    obtain ⟨apart, entered, rested⟩ := known other (List.mem_cons_of_mem _ member)
    rw [viewsOf_concat]
    exact ⟨apart, Views.isSome_step entered _, Views.isSome_step rested _⟩

/-- An order after the trades that name it. -/
def OrderView.settle (view : OrderView) (id : OrderId) (trades : List Trade) : OrderView :=
  trades.foldl (fun view trade =>
    if trade.incomingOrderId = id ∨ trade.restingOrderId = id then view.fill trade.quantity
    else view) view

namespace OrderView

/-- The first trade settles first. -/
theorem settle_cons (view : OrderView) (id : OrderId) (trade : Trade) (rest : List Trade) :
    view.settle id (trade :: rest) =
      (if trade.incomingOrderId = id ∨ trade.restingOrderId = id then view.fill trade.quantity
        else view).settle id rest := rfl

/-- Trades of other orders change nothing. -/
theorem settle_of_ne (view : OrderView) {id : OrderId} {trades : List Trade}
    (alone : ∀ trade ∈ trades, trade.incomingOrderId ≠ id ∧ trade.restingOrderId ≠ id) :
    view.settle id trades = view := by
  induction trades generalizing view with
  | nil => rfl
  | cons trade rest ih =>
    obtain ⟨notIncoming, notResting⟩ := alone trade List.mem_cons_self
    rw [settle_cons, if_neg (by simp [notIncoming, notResting])]
    exact ih view (fun other member => alone other (List.mem_cons_of_mem trade member))

/-- Trades cancel nothing. -/
theorem cancelled_settle {view : OrderView} (id : OrderId) (trades : List Trade)
    (live : view.cancelled = false) : (view.settle id trades).cancelled = false := by
  induction trades generalizing view with
  | nil => exact live
  | cons trade rest ih =>
    rw [settle_cons]
    split
    · exact ih rfl
    · exact ih live

/-- Trades take what they trade off what is open. -/
theorem leaves_settle {view : OrderView} {id : OrderId} {trades : List Trade}
    (covered : tradedBy id trades ≤ view.leaves.toNat) :
    (view.settle id trades).leaves.toNat + tradedBy id trades = view.leaves.toNat := by
  induction trades generalizing view with
  | nil => rfl
  | cons trade rest ih =>
    have split : trade :: rest = [trade] ++ rest := rfl
    rw [split, tradedBy_append] at covered ⊢
    rw [← split, settle_cons]
    by_cases named : trade.incomingOrderId = id ∨ trade.restingOrderId = id
    · have own : tradedBy id [trade] = trade.quantity.toNat := by
        simp [tradedBy, totalTraded, named]
      have fits : trade.quantity ≤ view.leaves := UInt64.le_iff_toNat_le.mpr (by omega)
      have left : (view.fill trade.quantity).leaves.toNat =
          view.leaves.toNat - trade.quantity.toNat := UInt64.toNat_sub_of_le _ _ fits
      have later := @ih (view.fill trade.quantity) (by omega)
      rw [if_pos named]
      omega
    · have other : tradedBy id [trade] = 0 := by simp [tradedBy, totalTraded, named]
      have later := @ih view (by omega)
      rw [if_neg named]
      omega

end OrderView

/-- Trades of a symbol change an order as those that name it do. -/
theorem Views.settle_trades {views : Views} {symbol : Symbol} {trades : List Trade}
    (apart : ∀ trade ∈ trades, trade.incomingOrderId ≠ trade.restingOrderId) (id : OrderId) :
    (trades.map (Trade.event symbol)).foldl Views.step views symbol id =
      (views symbol id).map (fun view => view.settle id trades) := by
  induction trades generalizing views with
  | nil => simp [OrderView.settle]
  | cons trade rest ih =>
    have tail := fun other member => apart other (List.mem_cons_of_mem trade member)
    have head := apart trade List.mem_cons_self
    rw [List.map_cons, List.foldl_cons, ih tail]
    have first : views.step (trade.event symbol) symbol id = (views symbol id).map (fun view =>
        if trade.incomingOrderId = id ∨ trade.restingOrderId = id then view.fill trade.quantity
        else view) := by
      show ((views.change symbol trade.incomingOrderId _).change symbol trade.restingOrderId _)
        symbol id = _
      rw [change_at, change_at, Option.map_map]
      refine congrArg (fun next => (views symbol id).map next) (funext fun view => ?_)
      by_cases own : id = trade.restingOrderId
      · have other : id ≠ trade.incomingOrderId := fun same => head (same.symm.trans own)
        simp [own ▸ other, own]
      · simp [own, Ne.symm own, eq_comm]
    rw [first, Option.map_map]
    rfl

end Titan
