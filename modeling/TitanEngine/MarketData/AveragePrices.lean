import Mathlib.Algebra.BigOperators.Ring.List
import Mathlib.Algebra.Order.BigOperators.Group.List
import Mathlib.Algebra.Order.Ring.Nat
import TitanEngine.MarketData.PublisherViews
import TitanEngine.MarketData.RegistryLog

/-!
# Average prices

A publisher adds up the quantities and the notional values of the fills of an order in two 64-bit
words and reports their quotient. Whatever calls a registry received, its log speaks of orders it
submitted and its fills are not empty, so the quotient is the average price of the fills as long
as neither sum reaches 2^64.
-/

namespace Titan

open Library OrderManager

/-- The submission of an event. -/
def EventPayload.submission : EventPayload → Option (Symbol × OrderId)
  | orderSubmitted symbol id _ _ _ => some (symbol, id)
  | _ => none

/-- A trade of an event is not empty. -/
def EventPayload.Positive : EventPayload → Prop
  | tradeExecuted _ _ _ _ quantity => quantity ≠ 0
  | _ => True

/-- An order is known after an event when it was, or when the event submits it. -/
theorem Views.isSome_step_iff (views : Views) (payload : EventPayload) (symbol : Symbol)
    (id : OrderId) :
    (views.step payload symbol id).isSome = true ↔
      (views symbol id).isSome = true ∨ payload.submission = some (symbol, id) := by
  cases payload with
  | orderSubmitted other name side price quantity =>
    simp only [Views.step, Views.put, EventPayload.submission, Option.some.injEq, Prod.mk.injEq]
    split
    · rename_i same
      exact iff_of_true rfl (.inr ⟨same.1.symm, same.2.symm⟩)
    · rename_i apart
      refine ⟨.inl, ?_⟩
      rintro (known | ⟨rfl, rfl⟩)
      · exact known
      · exact absurd ⟨rfl, rfl⟩ apart
  | orderCancelled other name => simp [Views.step, Views.isSome_change, EventPayload.submission]
  | orderReplaced other name price quantity =>
    simp [Views.step, Views.isSome_change, EventPayload.submission]
  | tradeExecuted other incoming resting price quantity =>
    simp [Views.step, Views.isSome_change, EventPayload.submission]
  | orderRejected other name reason => simp [Views.step, EventPayload.submission]

/-- The orders that a log knows after more events. -/
theorem isSome_viewsOf_append (payloads events : List EventPayload) (symbol : Symbol)
    (id : OrderId) :
    (viewsOf (payloads ++ events) symbol id).isSome = true ↔
      (viewsOf payloads symbol id).isSome = true ∨
        ∃ event ∈ events, event.submission = some (symbol, id) := by
  induction events using List.reverseRecOn with
  | nil => simp
  | append_singleton events event ih =>
    rw [← List.append_assoc, viewsOf_concat, Views.isSome_step_iff, ih, or_assoc]
    simp [or_and_right, exists_or]

/-- The events of a request submit the order it enters. -/
theorem submission_eventsOf (symbol : Symbol) (request : ManagerCall) (result : MatchResult)
    (id : OrderId) :
    (∃ event ∈ eventsOf symbol request result, event.submission = some (symbol, id)) ↔
      request.entry = some id ∧ result.accept.accepted = true := by
  have traded : ¬ ∃ event ∈ result.trades.map (Trade.event symbol),
      event.submission = some (symbol, id) := by
    simp [Trade.event, EventPayload.submission]
  rw [eventsOf, List.exists_mem_cons_iff, or_iff_left traded]
  cases accepted : result.accept.accepted with
  | false => simp [EventPayload.submission]
  | true =>
    cases request <;>
      simp [ManagerCall.acceptedEvent, EventPayload.submission, ManagerCall.entry]

/-- A call of a ledger logs its events in good order, submits the ids that become known and trades
something with every trade. -/
theorem Ledger.Step.in_order {ledger next : Ledger} {request : ManagerCall} {result : MatchResult}
    (step : ledger.Step request result next) (consistent : ledger.Consistent)
    {payloads : List EventPayload} {symbol : Symbol} (formed : WellFormed payloads)
    (named : ∀ id, (viewsOf payloads symbol id).isSome = true ↔ id ∈ ledger.known) :
    WellFormed (payloads ++ eventsOf symbol request result) ∧
      (∀ id, (viewsOf (payloads ++ eventsOf symbol request result) symbol id).isSome = true ↔
        id ∈ next.known) ∧
      ∀ event ∈ eventsOf symbol request result, event.Positive := by
  refine ⟨?_, ?_, ?_⟩
  · cases step with
    | refused idle => exact grows_concat.mpr ⟨formed, trivial⟩
    | @added order plain valid =>
      have unknown := mt (named order.id).mp (validateNewOrder_none valid).2.2
      have new : viewsOf payloads symbol order.id = none := by simpa using unknown
      exact grows_concat.mpr ⟨formed, new⟩
    | @matched order valid =>
      exact consistent.formed_entered formed named (validateNewOrder_none valid).2.2
    | @cancelled id held =>
      exact grows_concat.mpr ⟨formed, (named id).mpr (consistent.known_of_holds held)⟩
    | @amended newOrder held plain valid clear =>
      exact grows_concat.mpr ⟨formed, (named newOrder.id).mpr (consistent.known_of_holds held)⟩
  · intro id
    rw [isSome_viewsOf_append, submission_eventsOf, named, step.mem_known]
  · have trades : ∀ trade ∈ result.trades, trade.quantity ≠ 0 := by
      cases step with
      | @matched order valid =>
        intro trade member
        obtain ⟨maker, _, _, nonzero, _⟩ := consistent.trade_maker member
        exact nonzero
      | _ => simp
    intro event member
    rw [eventsOf, List.mem_cons] at member
    rcases member with rfl | member
    · split
      · cases request <;> trivial
      · trivial
    · obtain ⟨trade, inside, rfl⟩ := List.mem_map.mp member
      exact trades trade inside

/-- The log of a market is in good order, submits the ids that are known and trades something with
every trade. -/
structure Market.InOrder (market : Market) : Prop where
  /-- Good order. -/
  formed : WellFormed market.payloads
  /-- The ids that are known. -/
  named : ∀ symbol id,
    (market.tells symbol id).isSome = true ↔ id ∈ (ledgerOf (market.listings symbol)).known
  /-- Something is traded. -/
  positive : ∀ payload ∈ market.payloads, payload.Positive

/-- An empty log is in good order. -/
theorem Market.inOrder_empty : Market.empty.InOrder where
  formed := grows_nil _
  named _ := Ledger.told_empty.known
  positive _ member := nomatch member

namespace InstrumentRegistry

variable {registry : InstrumentRegistry} {market : Market}

/-- A call logs its events in good order. -/
theorem Mirrors.events_in_order (mirrors : registry.Mirrors market) (inOrder : market.InOrder)
    (call : RegistryCall) :
    let listing := (callListing (market.listings call.symbol) call).2.1
    let events := (callListing (market.listings call.symbol) call).2.2
    WellFormed (market.payloads ++ events) ∧
      (∀ id, (viewsOf (market.payloads ++ events) call.symbol id).isSome = true ↔
        id ∈ (ledgerOf listing).known) ∧
      ∀ event ∈ events, event.Positive := by
  have named := inOrder.named call.symbol
  rcases callListing_cases (market.listings call.symbol) call with
    ⟨_, _, same, silent⟩ | ⟨request, _, unlisted, _, none_, refused⟩ |
    ⟨request, entry, _, listed, _, next, events⟩
  · simp only [same, silent, List.append_nil]
    exact ⟨inOrder.formed, named, by simp⟩
  · have still : viewsOf (market.payloads ++
        [.orderRejected call.symbol request.id .unknownSymbol]) = viewsOf market.payloads :=
      viewsOf_concat _ _
    simp only [none_, refused, still]
    rw [unlisted] at named
    refine ⟨grows_concat.mpr ⟨inOrder.formed, trivial⟩, named, ?_⟩
    simp [EventPayload.Positive]
  · have consistent := mirrors.consistent_ledgerOf call.symbol
    rw [listed] at named consistent
    simp only [next, events]
    exact (entry.ledger.step_of_call request).in_order consistent inOrder.formed named

/-- A call keeps the log in good order. -/
theorem Mirrors.inOrder_call (mirrors : registry.Mirrors market) (inOrder : market.InOrder)
    (call : RegistryCall) : (callMarket market call).2.InOrder := by
  have moves := (market.callMarket_moves call).2
  obtain ⟨formed, named, positive⟩ := mirrors.events_in_order inOrder call
  have log : (callMarket market call).2.payloads = market.payloads ++
      (callListing (market.listings call.symbol) call).2.2 := moves.log
  constructor
  · rw [log]
    exact formed
  · intro symbol id
    rw [Market.tells, log, moves.listings]
    by_cases here : symbol = call.symbol
    · rw [here, Function.update_self]
      exact named id
    · rw [Function.update_of_ne here, viewsOf_append, Views.foldl_step_other _
        (fun event member => (moves.named event member).trans_ne (Ne.symm here)) id]
      exact inOrder.named symbol id
  · intro payload member
    rw [log, List.mem_append] at member
    exact member.elim (inOrder.positive payload) (positive payload)

/-- Whatever was called, the log of a registry is in good order and trades something with every
trade. -/
theorem log_in_order (allocator : SlabAllocator) (backend : MatcherBackend)
    (calls : List RegistryCall) :
    let ran := (run callRegistry (init allocator backend) calls).2
    WellFormed ran.payloads ∧ ∀ payload ∈ ran.payloads, payload.Positive := by
  intro ran
  obtain ⟨market, mirrors, inOrder⟩ := run_invariant
    (fun registry => ∃ market, registry.Mirrors market ∧ market.InOrder)
    (fun registry call ⟨market, mirrors, inOrder⟩ _ =>
      ⟨(callMarket market call).2, (mirrors.call call).2, mirrors.inOrder_call inOrder call⟩)
    ⟨Market.empty, mirrors_init allocator backend, Market.inOrder_empty⟩
    (admissible_true callRegistry (init allocator backend) calls)
  have log : ran.payloads = market.payloads := congrArg (List.map Event.payload) mirrors.log
  rw [log]
  exact ⟨inOrder.formed, inOrder.positive⟩

end InstrumentRegistry

/-- The fills of an order. -/
def fillsOf (fills : List ReportedFill) (symbol : Symbol) (id : OrderId) : List ReportedFill :=
  fills.filter (fun fill => fill.symbol == symbol && fill.orderId == id)

/-- The quantity of fills. -/
def filledQuantity (fills : List ReportedFill) : Nat :=
  (fills.map (fun fill => fill.quantity.toNat)).sum

/-- The notional value of fills. -/
def filledNotional (fills : List ReportedFill) : Nat :=
  (fills.map (fun fill => fill.quantity.toNat * fill.price.toNat)).sum

/-- One more fill adds its quantity. -/
theorem filledQuantity_concat (fills : List ReportedFill) (fill : ReportedFill) :
    filledQuantity (fills ++ [fill]) = filledQuantity fills + fill.quantity.toNat := by
  simp [filledQuantity]

/-- One more fill adds its notional value. -/
theorem filledNotional_concat (fills : List ReportedFill) (fill : ReportedFill) :
    filledNotional (fills ++ [fill]) =
      filledNotional fills + fill.quantity.toNat * fill.price.toNat := by
  simp [filledNotional]

/-- A price is the average of the fills: the whole part of their notional value over their
quantity, between their lowest and their highest price. -/
structure Averages (price : Price) (fills : List ReportedFill) : Prop where
  /-- The average. -/
  exact_ : price.toNat = filledNotional fills / filledQuantity fills
  /-- Not below the lowest price. -/
  lowest : ∃ fill ∈ fills, fill.price ≤ price
  /-- Not above the highest price. -/
  highest : ∃ fill ∈ fills, price ≤ fill.price

/-- The average of fills lies between their prices. -/
theorem averages_of_eq {price : Price} {fills : List ReportedFill}
    (positive : ∀ fill ∈ fills, fill.quantity ≠ 0) (some_ : fills ≠ [])
    (average : price.toNat = filledNotional fills / filledQuantity fills) :
    Averages price fills := by
  have each : ∀ fill ∈ fills, 0 < fill.quantity.toNat := by
    intro fill member
    exact UInt64.lt_iff_toNat_lt.mp (UInt64.pos_iff_ne_zero.mpr (positive fill member))
  have total : 0 < filledQuantity fills := by
    obtain ⟨fill, member⟩ := List.exists_mem_of_ne_nil fills some_
    exact Nat.lt_of_lt_of_le (each fill member)
      (List.le_sum_of_mem (List.mem_map_of_mem member))
  have scaled (factor : Nat) : (fills.map (fun fill => fill.quantity.toNat * factor)).sum =
      filledQuantity fills * factor := List.sum_map_mul_right ..
  refine ⟨average, ?_, ?_⟩
  · -- The notional value is below what one more than the average gives every fill.
    have below : (fills.map (fun fill => fill.quantity.toNat * fill.price.toNat)).sum <
        (fills.map (fun fill => fill.quantity.toNat * (price.toNat + 1))).sum := by
      rw [scaled, average]
      exact Nat.lt_mul_div_succ _ total
    obtain ⟨fill, member, less⟩ := List.exists_lt_of_sum_lt _ _ below
    refine ⟨fill, member, UInt64.le_iff_toNat_le.mpr ?_⟩
    exact Nat.lt_succ_iff.mp (Nat.lt_of_mul_lt_mul_left less)
  · have above : (fills.map (fun fill => fill.quantity.toNat * price.toNat)).sum ≤
        (fills.map (fun fill => fill.quantity.toNat * fill.price.toNat)).sum := by
      rw [scaled, average]
      exact Nat.mul_div_le _ _
    obtain ⟨fill, member, less⟩ := List.exists_le_of_sum_le some_ _ _ above
    refine ⟨fill, member, UInt64.le_iff_toNat_le.mpr ?_⟩
    exact Nat.le_of_mul_le_mul_left less (each fill member)

/-- The sums of an order stay below 2^64. -/
def Fits (fills : List ReportedFill) : Prop :=
  ∀ symbol id, filledQuantity (fillsOf fills symbol id) < 2 ^ 64 ∧
    filledNotional (fillsOf fills symbol id) < 2 ^ 64

/-- What fits still fits without the last fills. -/
theorem Fits.of_append {first second : List ReportedFill} (fits : Fits (first ++ second)) :
    Fits first := by
  intro symbol id
  obtain ⟨quantity, notional⟩ := fits symbol id
  simp only [fillsOf, filledQuantity, filledNotional, List.filter_append, List.map_append,
    List.sum_append] at quantity notional ⊢
  exact ⟨by omega, by omega⟩

/-- Everything fits when the sums of all fills do. -/
theorem fits_of_total {fills : List ReportedFill} (quantity : filledQuantity fills < 2 ^ 64)
    (notional : filledNotional fills < 2 ^ 64) : Fits fills := by
  intro symbol id
  have part : (fillsOf fills symbol id).Sublist fills := List.filter_sublist
  exact ⟨Nat.lt_of_le_of_lt ((part.map _).sum_le_sum (by simp)) quantity,
    Nat.lt_of_le_of_lt ((part.map _).sum_le_sum (by simp)) notional⟩

/-- The sums that a publisher keeps of an order are those of its fills. -/
structure OrderState.Sums (state : OrderState) (fills : List ReportedFill) : Prop where
  /-- The quantities. -/
  quantity : state.cumQty.toNat = filledQuantity fills
  /-- The notional values. -/
  notional : state.cumNotional.toNat = filledNotional fills

namespace EventPublisher

/-- A publisher keeps the sums of the fills of the orders that are known. -/
structure Accounts (publisher : EventPublisher) (views : Views) (fills : List ReportedFill) :
    Prop where
  /-- It keeps the orders that are known. -/
  known : ∀ symbol id, (publisher.stateOf symbol id).isSome = (views symbol id).isSome
  /-- It keeps their sums. -/
  sums : ∀ symbol id, ((publisher.stateOf symbol id).getD {}).Sums (fillsOf fills symbol id)

/-- A fresh publisher keeps nothing. -/
theorem accounts_init : init.Accounts Views.empty [] where
  known symbol id := by simp [init, stateOf, Views.empty]
  sums symbol id := by
    have nothing : init.stateOf symbol id = none := by simp [init, stateOf]
    rw [nothing]
    exact ⟨rfl, rfl⟩

/-- What is kept does not depend on what is said of the orders that are known. -/
theorem Accounts.reword {publisher : EventPublisher} {views other : Views}
    {fills : List ReportedFill} (accounts : publisher.Accounts views fills)
    (same : ∀ symbol id, (other symbol id).isSome = (views symbol id).isSome) :
    publisher.Accounts other fills where
  known symbol id := (accounts.known symbol id).trans (same symbol id).symm
  sums := accounts.sums

/-- Keeping the sums of one order, with more fills of it. -/
theorem Accounts.setState {publisher : EventPublisher} {views : Views}
    {fills more : List ReportedFill} (accounts : publisher.Accounts views fills)
    {symbol : Symbol} {id : OrderId} {state : OrderState} (view : OrderView)
    (own : ∀ fill ∈ more, fill.symbol = symbol ∧ fill.orderId = id)
    (sums : state.Sums (fillsOf (fills ++ more) symbol id)) :
    (publisher.setState symbol id state).Accounts (views.put symbol id (some view))
      (fills ++ more) := by
  constructor
  · intro other name
    rw [stateOf_setState, Views.put]
    split
    · rfl
    · exact accounts.known other name
  · intro other name
    rw [stateOf_setState]
    split
    · rename_i same
      rw [same.1, same.2]
      exact sums
    · rename_i apart
      have none_ : fillsOf more other name = [] := by
        rw [fillsOf, List.filter_eq_nil_iff]
        intro fill member named
        obtain ⟨rfl, rfl⟩ := own fill member
        have both : fill.symbol = other ∧ fill.orderId = name := by simpa using named
        exact apart ⟨both.1.symm, both.2.symm⟩
      have split : fillsOf (fills ++ more) other name = fillsOf fills other name := by
        rw [fillsOf, List.filter_append, ← fillsOf, ← fillsOf, none_, List.append_nil]
      rw [split]
      exact accounts.sums other name

/-- The guarded average is that of the fills. -/
theorem guardedAverage_eq {state : OrderState} {fills : List ReportedFill}
    (sums : state.Sums fills) :
    (guardedAverage state).toNat = filledNotional fills / filledQuantity fills := by
  unfold guardedAverage
  split
  · rw [UInt64.toNat_div, sums.notional, sums.quantity]
  · rename_i empty
    have zero : state.cumQty = 0 := by
      by_contra nonzero
      exact empty (UInt64.pos_iff_ne_zero.mpr nonzero)
    rw [← sums.quantity, zero]
    exact (Nat.div_zero _).symm

/-- A fill of an order that is known adds to its sums, which do not wrap. -/
theorem Accounts.emitFill {publisher : EventPublisher} {views : Views}
    {fills : List ReportedFill} (accounts : publisher.Accounts views fills) {fill : ReportedFill}
    (known : (views fill.symbol fill.orderId).isSome = true) (positive : fill.quantity ≠ 0)
    (fits : Fits (fills ++ [fill])) (view : OrderView) :
    ∃ next report,
      publisher.emitFill fill.symbol fill.orderId fill.quantity fill.price = some next ∧
      next.Accounts (views.put fill.symbol fill.orderId (some view)) (fills ++ [fill]) ∧
      next.reports = publisher.reports ++ [report] ∧
      report.symbol = fill.symbol ∧ report.orderId = fill.orderId ∧
      report.avgPx.toNat =
        filledNotional (fillsOf (fills ++ [fill]) fill.symbol fill.orderId) /
          filledQuantity (fillsOf (fills ++ [fill]) fill.symbol fill.orderId) := by
  have kept := accounts.known fill.symbol fill.orderId
  rw [known] at kept
  obtain ⟨state, found⟩ := Option.isSome_iff_exists.mp kept
  have before := accounts.sums fill.symbol fill.orderId
  rw [found, Option.getD_some] at before
  have own : fillsOf (fills ++ [fill]) fill.symbol fill.orderId =
      fillsOf fills fill.symbol fill.orderId ++ [fill] := by
    simp [fillsOf]
  obtain ⟨bounded, small⟩ := fits fill.symbol fill.orderId
  let filled : OrderState := { state with
    cumQty := state.cumQty + fill.quantity
    cumNotional := state.cumNotional + fill.quantity * fill.price }
  have sums : filled.Sums (fillsOf (fills ++ [fill]) fill.symbol fill.orderId) := by
    rw [own, filledQuantity_concat] at bounded
    rw [own, filledNotional_concat] at small
    rw [own]
    constructor
    · rw [filledQuantity_concat, UInt64.toNat_add, before.quantity, Nat.mod_eq_of_lt bounded]
    · rw [filledNotional_concat, UInt64.toNat_add, UInt64.toNat_mul, before.notional,
        Nat.add_mod_mod, Nat.mod_eq_of_lt small]
  have nonzero : filled.cumQty ≠ 0 := by
    intro zero
    have total := sums.quantity
    have more : fill.quantity.toNat ≠ 0 := fun none_ => positive (UInt64.toNat_inj.mp none_)
    rw [zero, own, filledQuantity_concat] at total
    have nothing : (0 : Quantity).toNat = 0 := rfl
    omega
  unfold EventPublisher.emitFill
  rw [found]
  dsimp only
  rw [if_neg nonzero]
  refine ⟨_, _, rfl, ?_, rfl, rfl, rfl, ?_⟩
  · have next := accounts.setState view (by simp) sums
    exact ⟨next.known, next.sums⟩
  · show (filled.cumNotional / filled.cumQty).toNat = _
    rw [UInt64.toNat_div, sums.notional, sums.quantity]

/-- The kinds of report that show an average price. -/
def averagingKinds : List ExecType := [.trade, .replaced, .cancelled]

/-- A report of an order with fills shows their average price. -/
def ShowsAverage (fills : List ReportedFill) (report : ExecutionReport) : Prop :=
  report.execType ∈ averagingKinds → fillsOf fills report.symbol report.orderId ≠ [] →
    Averages report.avgPx (fillsOf fills report.symbol report.orderId)

/-- An event is processed without a division by zero, and the reports that it adds show the
average prices of the fills so far. -/
def Averaged (earlier : List EventPayload) (payload : EventPayload) : Prop :=
  ∃ publisher next added, earlier.foldlM process init = some publisher ∧
    publisher.process payload = some next ∧ next.reports = publisher.reports ++ added ∧
    ∀ report ∈ added, ShowsAverage ((earlier ++ [payload]).flatMap EventPayload.fills) report

/-- A report whose average price is the quotient of the sums shows the average price. -/
theorem showsAverage_of_eq {fills : List ReportedFill}
    (positive : ∀ fill ∈ fills, fill.quantity ≠ 0) {report : ExecutionReport}
    {symbol : Symbol} {id : OrderId} (about : report.symbol = symbol) (named : report.orderId = id)
    (average : report.avgPx.toNat =
      filledNotional (fillsOf fills symbol id) / filledQuantity (fillsOf fills symbol id)) :
    ShowsAverage fills report := by
  subst about named
  intro _ some_
  exact averages_of_eq (fun fill member => positive fill (List.mem_filter.mp member).1) some_
    average

/-- A trade between two orders that are known adds to the sums of both. -/
theorem Accounts.handleTrade {publisher : EventPublisher} {views : Views}
    {fills : List ReportedFill} (accounts : publisher.Accounts views fills) {symbol : Symbol}
    {incoming resting : OrderId} {price : Price} {quantity : Quantity}
    (follows : views.Follows (.tradeExecuted symbol incoming resting price quantity))
    (positive : ∀ fill ∈ fills ++
      (EventPayload.tradeExecuted symbol incoming resting price quantity).fills, fill.quantity ≠ 0)
    (fits : Fits (fills ++
      (EventPayload.tradeExecuted symbol incoming resting price quantity).fills)) :
    ∃ next added, publisher.handleTrade symbol incoming resting price quantity = some next ∧
      next.Accounts (views.step (.tradeExecuted symbol incoming resting price quantity))
        (fills ++ (EventPayload.tradeExecuted symbol incoming resting price quantity).fills) ∧
      next.reports = publisher.reports ++ added ∧
      ∀ report ∈ added, ShowsAverage
        (fills ++ (EventPayload.tradeExecuted symbol incoming resting price quantity).fills)
        report := by
  obtain ⟨apart, entered, rested⟩ := follows
  obtain ⟨first, entered⟩ := Option.isSome_iff_exists.mp entered
  obtain ⟨second, rested⟩ := Option.isSome_iff_exists.mp rested
  let took : ReportedFill :=
    { symbol := symbol, orderId := incoming, quantity := quantity, price := price }
  let gave : ReportedFill :=
    { symbol := symbol, orderId := resting, quantity := quantity, price := price }
  have both : fills ++ (EventPayload.tradeExecuted symbol incoming resting price quantity).fills =
      fills ++ [took] ++ [gave] := by simp [EventPayload.fills, took, gave]
  rw [both] at positive fits ⊢
  have nonzero : quantity ≠ 0 := positive gave (by simp)
  have known : (views took.symbol took.orderId).isSome = true := by simp [took, entered]
  obtain ⟨middle, taken, fed, sums, reports, takenSymbol, takenId, takenAverage⟩ :=
    accounts.emitFill known nonzero fits.of_append (first.fill quantity)
  have still : ((views.put symbol incoming (some (first.fill quantity))) symbol resting).isSome =
      true := by
    rw [Views.put_of_id_ne _ _ _ apart.symm, rested]
    rfl
  obtain ⟨next, given, done, sums, more, givenSymbol, givenId, givenAverage⟩ :=
    @Accounts.emitFill _ _ _ sums gave still nonzero fits (second.fill quantity)
  refine ⟨next, [taken, given], ?_, ?_, ?_, ?_⟩
  · rw [EventPublisher.handleTrade, show publisher.emitFill symbol incoming quantity price =
      some middle from fed]
    exact done
  · rw [Views.step_trade apart entered rested]
    exact sums
  · rw [more, reports, List.append_assoc]
    rfl
  · -- The second fill is of another order, so the first report still shows the average.
    have skipped : fillsOf (fills ++ [took] ++ [gave]) symbol incoming =
        fillsOf (fills ++ [took]) symbol incoming := by
      rw [fillsOf, List.filter_append, ← fillsOf]
      simp [gave, apart.symm]
    intro report member
    rcases List.mem_pair.mp member with rfl | rfl
    · refine showsAverage_of_eq positive takenSymbol takenId ?_
      show _ = filledNotional (fillsOf _ symbol incoming) /
        filledQuantity (fillsOf _ symbol incoming)
      rw [skipped]
      exact takenAverage
    · exact showsAverage_of_eq positive givenSymbol givenId givenAverage

/-- An event that may come next is processed, and its reports show the average prices. -/
theorem Accounts.process {publisher : EventPublisher} {views : Views} {fills : List ReportedFill}
    (accounts : publisher.Accounts views fills) {payload : EventPayload}
    (follows : views.Follows payload)
    (positive : ∀ fill ∈ fills ++ payload.fills, fill.quantity ≠ 0)
    (fits : Fits (fills ++ payload.fills)) :
    ∃ next added, publisher.process payload = some next ∧
      next.Accounts (views.step payload) (fills ++ payload.fills) ∧
      next.reports = publisher.reports ++ added ∧
      ∀ report ∈ added, ShowsAverage (fills ++ payload.fills) report := by
  cases payload with
  | tradeExecuted symbol incoming resting price quantity =>
    exact accounts.handleTrade follows positive fits
  | orderSubmitted symbol id side price quantity =>
    have new : views symbol id = none := follows
    have absent := accounts.known symbol id
    rw [new, Option.isSome_none, Option.isSome_eq_false_iff, Option.isNone_iff_eq_none] at absent
    have sums := accounts.sums symbol id
    rw [absent] at sums
    have fresh : OrderState.Sums { originalQty := quantity } (fillsOf (fills ++ []) symbol id) := by
      rw [List.append_nil]
      exact ⟨sums.quantity, sums.notional⟩
    have next := accounts.setState { leaves := quantity, traded := 0, cancelled := false }
      (by simp) fresh
    have unlisted : ExecType.new ∉ averagingKinds := by decide
    refine ⟨_, _, rfl, ⟨next.known, next.sums⟩, rfl, ?_⟩
    intro report member kind
    rw [List.mem_singleton.mp member] at kind
    exact absurd kind unlisted
  | orderCancelled symbol id =>
    have known : (views symbol id).isSome = true := follows
    rw [← accounts.known] at known
    obtain ⟨state, found⟩ := Option.isSome_iff_exists.mp known
    have sums := accounts.sums symbol id
    rw [found, Option.getD_some] at sums
    have reports : publisher.handleCancelled symbol id = publisher.report symbol id .cancelled
        0 state.cumQty 0 0 (guardedAverage state) .none := by
      rw [EventPublisher.handleCancelled, found]
    rw [show EventPayload.fills (.orderCancelled symbol id) = [] from rfl, List.append_nil]
      at positive ⊢
    have next := accounts.reword (views.isSome_change symbol id OrderView.cancel)
    refine ⟨_, _, congrArg some reports, ⟨next.known, next.sums⟩, rfl, ?_⟩
    intro report member
    rw [List.mem_singleton.mp member]
    exact showsAverage_of_eq positive rfl rfl (guardedAverage_eq sums)
  | orderReplaced symbol id price quantity =>
    have known : (views symbol id).isSome = true := follows
    obtain ⟨view, said⟩ := Option.isSome_iff_exists.mp known
    have sums := accounts.sums symbol id
    rw [show EventPayload.fills (.orderReplaced symbol id price quantity) = [] from rfl]
      at positive ⊢
    have replaced : OrderState.Sums { (publisher.stateOf symbol id).getD {} with
        originalQty := ((publisher.stateOf symbol id).getD {}).cumQty + quantity }
        (fillsOf (fills ++ []) symbol id) := by
      rw [List.append_nil]
      exact ⟨sums.quantity, sums.notional⟩
    have next := accounts.setState (view.replace quantity) (by simp) replaced
    rw [← Views.change_known said (fun view => view.replace quantity)] at next
    refine ⟨_, _, rfl, ⟨next.known, next.sums⟩, rfl, ?_⟩
    intro report member
    rw [List.mem_singleton.mp member]
    exact showsAverage_of_eq positive rfl rfl (guardedAverage_eq replaced)
  | orderRejected symbol id reason =>
    rw [show EventPayload.fills (.orderRejected symbol id reason) = [] from rfl, List.append_nil]
    have unlisted : ExecType.rejected ∉ averagingKinds := by decide
    refine ⟨_, _, rfl, ⟨accounts.known, accounts.sums⟩, rfl, ?_⟩
    intro report member kind
    rw [List.mem_singleton.mp member] at kind
    exact absurd kind unlisted

/-- A log in good order whose trades are not empty is reported with exact average prices when the
sums of every order fit. -/
theorem averaged_run {payloads : List EventPayload} (formed : WellFormed payloads)
    (positive : ∀ payload ∈ payloads, payload.Positive)
    (fits : Fits (payloads.flatMap EventPayload.fills)) :
    Grows Averaged payloads ∧ ∃ publisher, payloads.foldlM process init = some publisher ∧
      publisher.Accounts (viewsOf payloads) (payloads.flatMap EventPayload.fills) := by
  have nonempty : ∀ fill ∈ payloads.flatMap EventPayload.fills, fill.quantity ≠ 0 := by
    intro fill member
    obtain ⟨payload, inside, of_⟩ := List.mem_flatMap.mp member
    have traded := positive payload inside
    cases payload with
    | tradeExecuted symbol incoming resting price quantity =>
      rcases List.mem_pair.mp of_ with rfl | rfl <;> exact traded
    | _ => cases of_
  induction payloads using List.reverseRecOn with
  | nil => exact ⟨grows_nil _, init, rfl, accounts_init⟩
  | append_singleton payloads payload ih =>
    obtain ⟨before, follows⟩ := grows_concat.mp formed
    have split : (payloads ++ [payload]).flatMap EventPayload.fills =
        payloads.flatMap EventPayload.fills ++ payload.fills := by simp
    rw [split] at fits nonempty
    obtain ⟨averaged, publisher, fed, accounts⟩ := ih before
      (fun other member => positive other (List.mem_append_left _ member)) fits.of_append
      (fun fill member => nonempty fill (List.mem_append_left _ member))
    obtain ⟨next, added, went, sums, reports, shown⟩ := accounts.process follows nonempty fits
    refine ⟨grows_concat.mpr ⟨averaged, publisher, next, added, fed, went, reports, ?_⟩, next,
      ?_, ?_⟩
    · rw [split]
      exact shown
    · rw [List.foldlM_append, fed]
      simp [went]
    · rw [viewsOf_concat, split]
      exact sums

/-- Fed the log of any run of a registry, a publisher divides by nothing and shows the exact
average prices when for every order the quantities and the notional values of its fills sum up to
less than 2^64. -/
theorem average_prices_exact (allocator : SlabAllocator) (backend : MatcherBackend)
    (calls : List RegistryCall)
    (fits : Fits ((run callRegistry (InstrumentRegistry.init allocator backend)
      calls).2.payloads.flatMap EventPayload.fills)) :
    Grows Averaged
      (run callRegistry (InstrumentRegistry.init allocator backend) calls).2.payloads := by
  obtain ⟨formed, positive⟩ := InstrumentRegistry.log_in_order allocator backend calls
  exact (averaged_run formed positive fits).1

/-- An order that is filled at two prices, replaced and cancelled. -/
def averagedCalls : List RegistryCall :=
  [.createInstrument [84],
    .submitOrder [84] { id := 1, side := .sell, price := 10, quantity := 2 },
    .submitOrder [84] { id := 2, side := .sell, price := 13, quantity := 1 },
    .matchOrder [84] { id := 3, side := .buy, price := 13, quantity := 5 },
    .cancelReplace [84] 3 { id := 3, side := .buy, price := 12, quantity := 1 },
    .cancelOrder [84] 3]

/-- Three shares for 33 show an average price of 11, to the end. -/
theorem average_prices_exact_two_prices :
    let ran := (run callRegistry (InstrumentRegistry.init (.consecutive 2 (by decide)) .optimized)
      averagedCalls).2
    (publish ran.eventLog).map (fun publisher =>
        (publisher.reports.filter (fun report => report.orderId == 3)).map
          (fun report => report.avgPx)) = some [0, 10, 11, 11, 11] ∧
      Grows Averaged ran.payloads := by
  refine ⟨by decide +kernel, average_prices_exact _ .optimized averagedCalls ?_⟩
  exact fits_of_total (by decide +kernel) (by decide +kernel)

/-- One trade of 2^32 shares at a price of 2^32. -/
def wrappingNotionalCalls : List RegistryCall :=
  [.createInstrument [84],
    .submitOrder [84] { id := 1, side := .sell, price := 2 ^ 32, quantity := 2 ^ 32 },
    .matchOrder [84] { id := 2, side := .buy, price := 2 ^ 32, quantity := 2 ^ 32 }]

/-- Its notional value wraps to nothing, and both orders are shown an average price of zero. -/
theorem wrapped_average_is_zero :
    let ran := (run callRegistry (InstrumentRegistry.init (.consecutive 2 (by decide)) .reference)
      wrappingNotionalCalls).2
    (publish ran.eventLog).map (fun publisher => publisher.reports.map (fun report =>
        (report.orderId, report.execType, report.lastPx, report.avgPx))) =
      some [(1, .new, 0, 0), (2, .new, 0, 0), (2, .trade, 2 ^ 32, 0), (1, .trade, 2 ^ 32, 0)] ∧
      ¬ Grows Averaged ran.payloads := by
  refine ⟨by decide +kernel, ?_⟩
  let entries : List EventPayload :=
    [.orderSubmitted [84] 1 .sell (2 ^ 32) (2 ^ 32), .orderSubmitted [84] 2 .buy (2 ^ 32) (2 ^ 32)]
  let trade : EventPayload := .tradeExecuted [84] 2 1 (2 ^ 32) (2 ^ 32)
  have log : (run callRegistry (InstrumentRegistry.init (.consecutive 2 (by decide)) .reference)
      wrappingNotionalCalls).2.payloads = entries ++ [trade] := by
    decide +kernel
  have entered : (entries.foldlM process init).map (fun publisher => publisher.reports.length) =
      some 2 := by
    decide +kernel
  have traded : ((entries.foldlM process init).bind (fun publisher => publisher.process trade)).map
      (fun publisher => publisher.reports[2]?.map (fun report =>
        (report.symbol, report.orderId, report.execType, report.avgPx))) =
          some (some ([84], 2, .trade, 0)) := by
    decide +kernel
  rw [log, grows_concat]
  rintro ⟨_, publisher, next, added, fed, went, reports, shown⟩
  rw [fed, Option.map_some, Option.some.injEq] at entered
  rw [fed, Option.bind_some, went, Option.map_some, Option.some.injEq, reports,
    List.getElem?_append_right (Nat.le_of_eq entered), entered] at traded
  obtain ⟨report, found, shape⟩ := Option.map_eq_some_iff.mp traded
  simp only [Prod.mk.injEq] at shape
  obtain ⟨about, named, kind, price⟩ := shape
  have average := shown report (List.mem_of_getElem? found)
  rw [ShowsAverage, about, named, kind, price] at average
  have filled : fillsOf ((entries ++ [trade]).flatMap EventPayload.fills) [84] 2 =
      [{ symbol := [84], orderId := 2, quantity := 2 ^ 32, price := 2 ^ 32 }] := by
    decide +kernel
  rw [filled] at average
  have quotient := (average (by decide) (by simp)).exact_
  exact absurd quotient (by decide)

end EventPublisher

end Titan
