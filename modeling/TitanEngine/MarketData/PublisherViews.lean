import TitanEngine.MarketData.EventPublisher
import TitanEngine.MarketData.OrderViews

/-!
# What a publisher reports

A publisher that is fed a well-formed log keeps of every order what the log says of it, and its
last reports show that: what is open, what was traded as far as 64 bits hold it, and two trade
reports for every trade. It gets through the log unless the quantity that an order traded comes
to a multiple of 2^64 with one of its trades.
-/

namespace Titan

open Library Std

/-- The kinds of report that say how much is open, cancels apart. -/
def openingKinds : List ExecType := [.new, .trade, .replaced]

/-- The kinds of report that say how much was traded. -/
def countingKinds : List ExecType := [.trade, .replaced]

/-- The kinds of report of an accepted order. -/
def acceptedKinds : List ExecType := [.new, .trade, .replaced, .cancelled]

/-- What a trade report says of its fill. -/
structure ReportedFill where
  /-- Symbol of the order. -/
  symbol : Symbol
  /-- The order. -/
  orderId : OrderId
  /-- Quantity of the fill. -/
  quantity : Quantity
  /-- Price of the fill. -/
  price : Price
  deriving DecidableEq, Repr

/-- The fill of a report. -/
def ExecutionReport.fill (report : ExecutionReport) : ReportedFill where
  symbol := report.symbol
  orderId := report.orderId
  quantity := report.lastQty
  price := report.lastPx

/-- The fills of an event: both sides of a trade, the incoming one first. -/
def EventPayload.fills : EventPayload → List ReportedFill
  | tradeExecuted symbol incoming resting price quantity =>
    [{ symbol := symbol, orderId := incoming, quantity := quantity, price := price },
      { symbol := symbol, orderId := resting, quantity := quantity, price := price }]
  | _ => []

/-- The state that a publisher keeps of an order is what the log says of it. -/
structure OrderState.Shows (state : OrderState) (view : OrderView) : Prop where
  /-- What is open. -/
  leaves : state.originalQty - state.cumQty = view.leaves
  /-- What was traded. -/
  traded : state.cumQty.toNat = view.traded % 2 ^ 64

namespace EventPublisher

/-- A publisher keeps and reports what a log says. -/
structure Reads (publisher : EventPublisher) (views : Views) : Prop where
  /-- It keeps the orders of the log. -/
  states : ∀ symbol id, Option.Rel OrderState.Shows (publisher.stateOf symbol id) (views symbol id)
  /-- What is open, cancels apart. -/
  leaves : ∀ symbol id, (publisher.lastReport openingKinds symbol id).map (·.leavesQty) =
    (views symbol id).map OrderView.leaves
  /-- What is open. -/
  reported : ∀ symbol id, (publisher.lastReport acceptedKinds symbol id).map (·.leavesQty) =
    (views symbol id).map OrderView.reported
  /-- What was traded. -/
  counted : ∀ symbol id view report, views symbol id = some view →
    publisher.lastReport countingKinds symbol id = some report →
    report.cumQty.toNat = view.traded % 2 ^ 64

/-- A fresh publisher has nothing to report. -/
theorem reads_init : init.Reads Views.empty where
  states symbol id := by
    have nothing : init.stateOf symbol id = none := by simp [init, stateOf]
    rw [nothing]
    exact .none
  leaves symbol id := rfl
  reported symbol id := rfl
  counted symbol id view report known := by cases known

/-- What a publisher keeps of an order that was set. -/
theorem stateOf_setState (publisher : EventPublisher) (symbol : Symbol) (id : OrderId)
    (state : OrderState) (other : Symbol) (name : OrderId) :
    (publisher.setState symbol id state).stateOf other name =
      if other = symbol ∧ name = id then some state else publisher.stateOf other name := by
  unfold stateOf setState
  by_cases here : other = symbol
  · subst here
    rw [ExtTreeMap.getElem?_insert_self, Option.bind_some, ExtTreeMap.getElem?_insert]
    by_cases same : name = id
    · subst same
      simp
    · rw [if_neg (by simpa using Ne.symm same), if_neg (fun both => same both.2),
        ExtTreeMap.getD_eq_getD_getElem?]
      cases publisher.orderStates[other]? with
      | none => simp
      | some states => rfl
  · rw [if_neg (fun both => here both.1), ExtTreeMap.getElem?_insert,
      if_neg (fun equal => here (LawfulEqCmp.eq_of_compare equal).symm)]

/-- The last report once one is added. -/
theorem lastReport_concat {publisher next : EventPublisher} {added : ExecutionReport}
    (reports : next.reports = publisher.reports ++ [added]) (kinds : List ExecType)
    (symbol : Symbol) (id : OrderId) :
    next.lastReport kinds symbol id =
      if added.symbol = symbol ∧ added.orderId = id ∧ added.execType ∈ kinds then some added
      else publisher.lastReport kinds symbol id := by
  unfold lastReport
  rw [reports, List.filter_append]
  by_cases named : added.symbol = symbol ∧ added.orderId = id ∧ added.execType ∈ kinds
  · rw [if_pos named]
    simp [named]
  · rw [if_neg named]
    have out : [added].filter (fun report => report.symbol == symbol && report.orderId == id &&
        kinds.contains report.execType) = [] := by
      simpa [and_assoc] using named
    rw [out, List.append_nil]

section Report

variable {publisher kept : EventPublisher} {views : Views} {symbol : Symbol} {id : OrderId}
  {execType : ExecType} {lastQty cumQty leavesQty : Quantity} {lastPx avgPx : Price}
  {reason : RejectReason}

/-- A report says nothing of other orders, nor a report of another kind. -/
theorem lastReport_report_of_ne (same : kept.reports = publisher.reports) (kinds : List ExecType)
    {other : Symbol} {name : OrderId}
    (apart : ¬ (other = symbol ∧ name = id ∧ execType ∈ kinds)) :
    (kept.report symbol id execType lastQty cumQty leavesQty lastPx avgPx reason).lastReport kinds
      other name = publisher.lastReport kinds other name := by
  have reports : (kept.report symbol id execType lastQty cumQty leavesQty lastPx avgPx
      reason).reports = publisher.reports ++ _ := congrArg (· ++ _) same
  rw [lastReport_concat reports, if_neg]
  exact fun named => apart ⟨named.1.symm, named.2.1.symm, named.2.2⟩

/-- A report is the last of its kind. -/
theorem lastReport_report (same : kept.reports = publisher.reports) {kinds : List ExecType}
    (listed : execType ∈ kinds) :
    ∃ added : ExecutionReport, added.cumQty = cumQty ∧ added.leavesQty = leavesQty ∧
      (kept.report symbol id execType lastQty cumQty leavesQty lastPx avgPx reason).lastReport
        kinds symbol id = some added := by
  have reports : (kept.report symbol id execType lastQty cumQty leavesQty lastPx avgPx
      reason).reports = publisher.reports ++ _ := congrArg (· ++ _) same
  have last := lastReport_concat reports kinds symbol id
  rw [if_pos ⟨rfl, rfl, listed⟩] at last
  exact ⟨_, by rfl, by rfl, last⟩

/-- A report about one order, by a publisher that keeps another state of it, changes what is read
of that order only. -/
theorem Reads.report (reads : publisher.Reads views) {state : OrderState} {view : OrderView}
    (shows_ : state.Shows view)
    (states : ∀ other name, kept.stateOf other name =
      if other = symbol ∧ name = id then some state else publisher.stateOf other name)
    (same : kept.reports = publisher.reports)
    (leaves : if execType ∈ openingKinds then leavesQty = view.leaves
      else (views symbol id).map OrderView.leaves = some view.leaves)
    (reported : if execType ∈ acceptedKinds then leavesQty = view.reported
      else (views symbol id).map OrderView.reported = some view.reported)
    (counted : if execType ∈ countingKinds then cumQty.toNat = view.traded % 2 ^ 64
      else ∀ last, publisher.lastReport countingKinds symbol id = some last →
        last.cumQty.toNat = view.traded % 2 ^ 64) :
    (kept.report symbol id execType lastQty cumQty leavesQty lastPx avgPx reason).Reads
      (views.put symbol id (some view)) := by
  constructor
  · intro other name
    show Option.Rel _ (kept.stateOf other name) _
    rw [states, Views.put]
    split
    · exact .some shows_
    · exact reads.states other name
  · intro other name
    rw [Views.put]
    split
    · rename_i own
      obtain ⟨rfl, rfl⟩ := own
      split at leaves
      · rename_i listed
        obtain ⟨added, _, shown, last⟩ := lastReport_report same listed
        rw [last, Option.map_some, shown, leaves]
        rfl
      · rename_i unlisted
        rw [lastReport_report_of_ne same _ (fun named => unlisted named.2.2), reads.leaves, leaves]
        rfl
    · rename_i apart
      rw [lastReport_report_of_ne same _ (fun named => apart ⟨named.1, named.2.1⟩)]
      exact reads.leaves other name
  · intro other name
    rw [Views.put]
    split
    · rename_i own
      obtain ⟨rfl, rfl⟩ := own
      split at reported
      · rename_i listed
        obtain ⟨added, _, shown, last⟩ := lastReport_report same listed
        rw [last, Option.map_some, shown, reported]
        rfl
      · rename_i unlisted
        rw [lastReport_report_of_ne same _ (fun named => unlisted named.2.2), reads.reported,
          reported]
        rfl
    · rename_i apart
      rw [lastReport_report_of_ne same _ (fun named => apart ⟨named.1, named.2.1⟩)]
      exact reads.reported other name
  · intro other name shown last known found
    rw [Views.put] at known
    split at known
    · rename_i own
      obtain ⟨rfl, rfl⟩ := own
      obtain rfl := Option.some.inj known
      split at counted
      · rename_i listed
        obtain ⟨added, total, _, latest⟩ := lastReport_report same listed
        rw [latest] at found
        rw [← Option.some.inj found, total, counted]
      · rename_i unlisted
        rw [lastReport_report_of_ne same _ (fun named => unlisted named.2.2)] at found
        exact counted last found
    · rename_i apart
      rw [lastReport_report_of_ne same _ (fun named => apart ⟨named.1, named.2.1⟩)] at found
      exact reads.counted other name shown last known found

end Report

/-- The state that a publisher keeps of an order that is known. -/
theorem Reads.state {publisher : EventPublisher} {views : Views} (reads : publisher.Reads views)
    {symbol : Symbol} {id : OrderId} {view : OrderView} (known : views symbol id = some view) :
    ∃ state, publisher.stateOf symbol id = some state ∧ state.Shows view := by
  have related := reads.states symbol id
  rw [known] at related
  cases found : publisher.stateOf symbol id with
  | none =>
    rw [found] at related
    nomatch related
  | some state =>
    rw [found] at related
    cases related with
    | some shows_ => exact ⟨state, rfl, shows_⟩

/-- An order without reports of some kinds has none of fewer kinds. -/
theorem lastReport_subset {publisher : EventPublisher} {kinds more : List ExecType}
    (fewer : ∀ kind ∈ kinds, kind ∈ more) {symbol : Symbol} {id : OrderId}
    (silent : publisher.lastReport more symbol id = none) :
    publisher.lastReport kinds symbol id = none := by
  simp only [lastReport, List.getLast?_eq_none_iff, List.filter_eq_nil_iff, Bool.and_eq_true,
    beq_iff_eq, List.contains_iff_mem, not_and] at silent ⊢
  intro report member named listed
  exact silent report member named (fewer _ listed)

/-- A new order is reported. -/
theorem Reads.handleSubmitted {publisher : EventPublisher} {views : Views}
    (reads : publisher.Reads views) {symbol : Symbol} {id : OrderId}
    (new : views symbol id = none) (quantity : Quantity) :
    (publisher.handleSubmitted symbol id quantity).Reads
      (views.put symbol id (some { leaves := quantity, traded := 0, cancelled := false })) := by
  have silent : publisher.lastReport openingKinds symbol id = none := by
    have same := reads.leaves symbol id
    rw [new] at same
    simpa using same
  have uncounted : publisher.lastReport countingKinds symbol id = none :=
    lastReport_subset (by decide) silent
  have shown : OrderState.Shows { originalQty := quantity }
      { leaves := quantity, traded := 0, cancelled := false } := ⟨UInt64.sub_zero quantity, rfl⟩
  refine reads.report shown (stateOf_setState publisher symbol id _) rfl rfl rfl ?_
  rw [if_neg (by decide), uncounted]
  intro last found
  cases found

/-- A cancel is reported. -/
theorem Reads.handleCancelled {publisher : EventPublisher} {views : Views}
    (reads : publisher.Reads views) {symbol : Symbol} {id : OrderId} {view : OrderView}
    (known : views symbol id = some view) :
    (publisher.handleCancelled symbol id).Reads (views.put symbol id (some view.cancel)) := by
  obtain ⟨state, found, shows_⟩ := reads.state known
  have shown : state.Shows view.cancel := ⟨shows_.leaves, shows_.traded⟩
  have states (other : Symbol) (name : OrderId) : publisher.stateOf other name =
      if other = symbol ∧ name = id then some state else publisher.stateOf other name := by
    split
    · rename_i same
      rw [same.1, same.2]
      exact found
    · rfl
  unfold EventPublisher.handleCancelled
  rw [found]
  refine reads.report shown states rfl ?_ rfl ?_
  · rw [if_neg (by decide), known]
    rfl
  · rw [if_neg (by decide)]
    exact fun last latest => reads.counted symbol id view last known latest

/-- A replacement is reported. -/
theorem Reads.handleReplaced {publisher : EventPublisher} {views : Views}
    (reads : publisher.Reads views) {symbol : Symbol} {id : OrderId} {view : OrderView}
    (known : views symbol id = some view) (newPrice : Price) (newQuantity : Quantity) :
    (publisher.handleReplaced symbol id newPrice newQuantity).Reads
      (views.put symbol id (some (view.replace newQuantity))) := by
  obtain ⟨state, found, shows_⟩ := reads.state known
  have open_ : state.cumQty + newQuantity - state.cumQty = newQuantity := by grind
  have shown : OrderState.Shows { state with originalQty := state.cumQty + newQuantity }
      (view.replace newQuantity) := ⟨open_, shows_.traded⟩
  unfold EventPublisher.handleReplaced
  rw [found, Option.getD_some]
  exact reads.report shown (stateOf_setState publisher symbol id _) rfl rfl rfl shows_.traded

/-- A rejection says nothing of the orders. -/
theorem Reads.handleRejected {publisher : EventPublisher} {views : Views}
    (reads : publisher.Reads views) (symbol : Symbol) (id : OrderId) (reason : RejectReason) :
    (publisher.handleRejected symbol id reason).Reads views := by
  have others (kinds : List ExecType) (skipped : ExecType.rejected ∉ kinds) (other : Symbol)
      (name : OrderId) : (publisher.handleRejected symbol id reason).lastReport kinds other name =
        publisher.lastReport kinds other name :=
    lastReport_report_of_ne rfl kinds (fun named => skipped named.2.2)
  constructor
  · exact reads.states
  · intro other name
    rw [others _ (by decide)]
    exact reads.leaves other name
  · intro other name
    rw [others _ (by decide)]
    exact reads.reported other name
  · intro other name view report known last
    rw [others _ (by decide)] at last
    exact reads.counted other name view report known last

/-- The fills of the trade reports. -/
def fills (publisher : EventPublisher) : List ReportedFill :=
  (publisher.reports.filter (fun report => report.execType == .trade)).map ExecutionReport.fill

/-- A fill of a known order is reported, unless what it traded comes to a multiple of 2^64. -/
theorem Reads.emitFill {publisher : EventPublisher} {views : Views}
    (reads : publisher.Reads views) {symbol : Symbol} {id : OrderId} {view : OrderView}
    (known : views symbol id = some view) (quantity : Quantity) (price : Price) :
    if (view.traded + quantity.toNat) % 2 ^ 64 = 0 then
      publisher.emitFill symbol id quantity price = none
    else
      ∃ next, publisher.emitFill symbol id quantity price = some next ∧
        next.Reads (views.put symbol id (some (view.fill quantity))) ∧
        next.fills = publisher.fills ++
          [{ symbol := symbol, orderId := id, quantity := quantity, price := price }] := by
  obtain ⟨state, found, shows_⟩ := reads.state known
  have counted : (state.cumQty + quantity).toNat = (view.traded + quantity.toNat) % 2 ^ 64 := by
    rw [UInt64.toNat_add, shows_.traded, Nat.mod_add_mod]
  have zero : state.cumQty + quantity = 0 ↔ (view.traded + quantity.toNat) % 2 ^ 64 = 0 := by
    rw [← UInt64.toNat_inj, counted]
    rfl
  have open_ : state.originalQty - (state.cumQty + quantity) = view.leaves - quantity := by
    rw [← shows_.leaves]
    grind
  have shown : OrderState.Shows { state with
      cumQty := state.cumQty + quantity
      cumNotional := state.cumNotional + quantity * price } (view.fill quantity) :=
    ⟨open_, counted⟩
  unfold EventPublisher.emitFill
  rw [found]
  split
  · rename_i wraps
    dsimp only
    rw [if_pos (zero.mpr wraps)]
  · rename_i counts
    dsimp only
    rw [if_neg (fun wraps => counts (zero.mp wraps))]
    refine ⟨_, rfl, ?_, ?_⟩
    · exact reads.report shown (stateOf_setState publisher symbol id _) rfl open_ open_ counted
    · simp [fills, EventPublisher.report, EventPublisher.nextSeq, EventPublisher.setState,
        ExecutionReport.fill]

/-- What a log says an order traded. -/
def tradedIn (views : Views) (symbol : Symbol) (id : OrderId) : Nat :=
  ((views symbol id).map OrderView.traded).getD 0

/-- The quantities that the orders of an event traded stay countable. -/
def Counts (views : Views) : EventPayload → Prop
  | .tradeExecuted symbol incoming resting _ quantity =>
    (tradedIn views symbol incoming + quantity.toNat) % 2 ^ 64 ≠ 0 ∧
      (tradedIn views symbol resting + quantity.toNat) % 2 ^ 64 ≠ 0
  | _ => True

/-- A trade between two known orders is reported twice, unless what one of them traded comes to
a multiple of 2^64. -/
theorem Reads.handleTrade {publisher : EventPublisher} {views : Views}
    (reads : publisher.Reads views) {symbol : Symbol} {incoming resting : OrderId}
    {price : Price} {quantity : Quantity}
    (follows : views.Follows (.tradeExecuted symbol incoming resting price quantity)) :
    (Counts views (.tradeExecuted symbol incoming resting price quantity) ∧
      ∃ next, publisher.handleTrade symbol incoming resting price quantity = some next ∧
        next.Reads (views.step (.tradeExecuted symbol incoming resting price quantity)) ∧
        next.fills = publisher.fills ++
          (EventPayload.tradeExecuted symbol incoming resting price quantity).fills) ∨
    (¬ Counts views (.tradeExecuted symbol incoming resting price quantity) ∧
      publisher.handleTrade symbol incoming resting price quantity = none) := by
  obtain ⟨apart, entered, rested⟩ := follows
  obtain ⟨first, entered⟩ := Option.isSome_iff_exists.mp entered
  obtain ⟨second, rested⟩ := Option.isSome_iff_exists.mp rested
  have firstTraded : tradedIn views symbol incoming = first.traded := by simp [tradedIn, entered]
  have secondTraded : tradedIn views symbol resting = second.traded := by simp [tradedIn, rested]
  have took := reads.emitFill entered quantity price
  simp only [Counts, firstTraded, secondTraded, EventPublisher.handleTrade]
  split at took
  · rename_i wraps
    rw [took]
    exact .inr ⟨fun counts => counts.1 wraps, rfl⟩
  · rename_i firstCounts
    obtain ⟨middle, fed, reads, firstFill⟩ := took
    have still : (views.put symbol incoming (some (first.fill quantity))) symbol resting =
        some second := by
      rw [Views.put_of_id_ne _ _ _ apart.symm, rested]
    have gave := reads.emitFill still quantity price
    rw [fed, Option.bind_some]
    split at gave
    · rename_i wraps
      exact .inr ⟨fun counts => counts.2 wraps, gave⟩
    · rename_i secondCounts
      obtain ⟨next, fed, reads, secondFill⟩ := gave
      refine .inl ⟨⟨firstCounts, secondCounts⟩, next, fed, ?_, ?_⟩
      · rw [Views.step_trade apart entered rested]
        exact reads
      · rw [secondFill, firstFill, List.append_assoc]
        rfl

/-- An event that may come next is reported, unless a traded quantity comes to a multiple of
2^64. -/
theorem Reads.process {publisher : EventPublisher} {views : Views} (reads : publisher.Reads views)
    {payload : EventPayload} (follows : views.Follows payload) :
    (Counts views payload ∧
      ∃ next, publisher.process payload = some next ∧ next.Reads (views.step payload) ∧
        next.fills = publisher.fills ++ payload.fills) ∨
    (¬ Counts views payload ∧ publisher.process payload = none) := by
  have silent (symbol : Symbol) (id : OrderId) {execType : ExecType} (other : execType ≠ .trade)
      (cumQty leavesQty : Quantity) (lastPx avgPx : Price) (reason : RejectReason)
      {kept : EventPublisher} (same : kept.reports = publisher.reports) :
      (kept.report symbol id execType 0 cumQty leavesQty lastPx avgPx reason).fills =
        publisher.fills ++ [] := by
    simp [fills, EventPublisher.report, EventPublisher.nextSeq, same, other]
  cases payload with
  | orderSubmitted symbol id side price quantity =>
    exact .inl ⟨trivial, _, rfl, reads.handleSubmitted follows quantity,
      silent symbol id (by decide) _ _ _ _ _ rfl⟩
  | orderCancelled symbol id =>
    obtain ⟨view, known⟩ := Option.isSome_iff_exists.mp follows
    obtain ⟨state, found, _⟩ := reads.state known
    have next := reads.handleCancelled known
    rw [← Views.change_known known] at next
    refine .inl ⟨trivial, _, rfl, next, ?_⟩
    unfold EventPublisher.handleCancelled
    rw [found]
    exact silent symbol id (by decide) _ _ _ _ _ rfl
  | orderReplaced symbol id price quantity =>
    obtain ⟨view, known⟩ := Option.isSome_iff_exists.mp follows
    have next := reads.handleReplaced known price quantity
    rw [← Views.change_known known (fun view => view.replace quantity)] at next
    exact .inl ⟨trivial, _, rfl, next, silent symbol id (by decide) _ _ _ _ _ rfl⟩
  | tradeExecuted symbol incoming resting price quantity => exact reads.handleTrade follows
  | orderRejected symbol id reason =>
    exact .inl ⟨trivial, _, rfl, reads.handleRejected symbol id reason,
      silent symbol id (by decide) _ _ _ _ _ rfl⟩

end EventPublisher

/-- With this trade, what neither of its orders traded comes to a multiple of 2^64. -/
def Countable (earlier : List Trade) (trade : Trade) : Prop :=
  tradedBy trade.incomingOrderId (earlier ++ [trade]) % 2 ^ 64 ≠ 0 ∧
    tradedBy trade.restingOrderId (earlier ++ [trade]) % 2 ^ 64 ≠ 0

instance (earlier : List Trade) (trade : Trade) : Decidable (Countable earlier trade) :=
  inferInstanceAs (Decidable (_ ∧ _))

/-- No trade makes the quantity that one of its orders traded a multiple of 2^64. -/
def NeverWraps (trades : List Trade) : Prop := Grows Countable trades

instance (trades : List Trade) : Decidable (NeverWraps trades) :=
  inferInstanceAs (Decidable (Grows Countable trades))

/-- One more event wraps nothing of a symbol when its trade does not. -/
theorem neverWraps_concat {payloads : List EventPayload} (formed : WellFormed payloads)
    (payload : EventPayload) :
    (∀ symbol, NeverWraps (tradesOn symbol (payloads ++ [payload]))) ↔
      (∀ symbol, NeverWraps (tradesOn symbol payloads)) ∧
        EventPublisher.Counts (viewsOf payloads) payload := by
  have untraded (none_ : ∀ symbol, tradesOn symbol [payload] = []) :
      (∀ symbol, NeverWraps (tradesOn symbol (payloads ++ [payload]))) ↔
        ∀ symbol, NeverWraps (tradesOn symbol payloads) := by
    simp only [tradesOn_append, none_, List.append_nil]
  cases payload with
  | tradeExecuted symbol incoming resting price quantity =>
    have traded (id : OrderId) : EventPublisher.tradedIn (viewsOf payloads) symbol id =
        tradedBy id (tradesOn symbol payloads) := formed.traded symbol id
    let trade : Trade :=
      { incomingOrderId := incoming
        restingOrderId := resting
        price := price
        quantity := quantity }
    have here :
        tradesOn symbol (payloads ++ [.tradeExecuted symbol incoming resting price quantity]) =
          tradesOn symbol payloads ++ [trade] := by
      rw [tradesOn_append]
      simp [tradesOn, EventPayload.tradeOn, trade]
    have elsewhere (other : Symbol) (apart : symbol ≠ other) : tradesOn other
        (payloads ++ [.tradeExecuted symbol incoming resting price quantity]) =
          tradesOn other payloads := by
      have none_ : tradesOn other [.tradeExecuted symbol incoming resting price quantity] = [] := by
        refine tradesOn_of_ne ?_
        intro event member
        rw [List.mem_singleton.mp member]
        exact apart
      rw [tradesOn_append, none_, List.append_nil]
    have counts : Countable (tradesOn symbol payloads) trade ↔ EventPublisher.Counts
        (viewsOf payloads) (.tradeExecuted symbol incoming resting price quantity) := by
      simp only [Countable, EventPublisher.Counts, traded, tradedBy_append, trade]
      simp [tradedBy, totalTraded]
    rw [← counts]
    constructor
    · intro all
      have own := all symbol
      rw [here] at own
      obtain ⟨kept, countable⟩ := grows_concat.mp own
      refine ⟨?_, countable⟩
      intro other
      by_cases same : symbol = other
      · rw [← same]
        exact kept
      · rw [← elsewhere other same]
        exact all other
    · rintro ⟨kept, countable⟩ other
      by_cases same : symbol = other
      · rw [← same, here]
        exact grows_concat.mpr ⟨kept symbol, countable⟩
      · rw [elsewhere other same]
        exact kept other
  | _ =>
    rw [untraded (fun _ => rfl)]
    exact (and_iff_left trivial).symm

namespace EventPublisher

/-- A well-formed log is read to its end exactly when no trade of it wraps, and then it is
reported. -/
theorem process_run {payloads : List EventPayload} (formed : WellFormed payloads) :
    ((∀ symbol, NeverWraps (tradesOn symbol payloads)) ∧
      ∃ publisher, payloads.foldlM process init = some publisher ∧
        publisher.Reads (viewsOf payloads) ∧
        publisher.fills = payloads.flatMap EventPayload.fills) ∨
    (¬ (∀ symbol, NeverWraps (tradesOn symbol payloads)) ∧
      payloads.foldlM process init = none) := by
  induction payloads using List.reverseRecOn with
  | nil => exact .inl ⟨fun _ => grows_nil _, init, rfl, reads_init, rfl⟩
  | append_singleton payloads payload ih =>
    obtain ⟨before, follows⟩ := grows_concat.mp formed
    rw [neverWraps_concat before payload, List.foldlM_append, viewsOf_concat]
    rcases ih before with ⟨counted, publisher, fed, reads, told⟩ | ⟨wraps, stuck⟩
    · rw [fed]
      rcases reads.process follows with ⟨counts, next, went, reads, fill⟩ | ⟨wraps, stuck⟩
      · refine .inl ⟨⟨counted, counts⟩, next, ?_, reads, ?_⟩
        · simp [went]
        · rw [fill, told]
          simp
      · refine .inr ⟨fun both => wraps both.2, ?_⟩
        simp [stuck]
    · refine .inr ⟨fun both => wraps both.1, ?_⟩
      rw [stuck]
      rfl

end EventPublisher

end Titan
