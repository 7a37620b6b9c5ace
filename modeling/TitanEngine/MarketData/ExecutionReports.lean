import TitanEngine.MarketData.PublisherViews
import TitanEngine.MarketData.RegistryLog

/-!
# Execution reports along every run

A publisher that is fed the log of a registry divides by what an order traded, which wraps. So it
gets through the log exactly when no trade brings the quantity of one of its orders to a multiple
of 2^64, and then the reports track what is left of every order. The quantity that they show open
is really open exactly when, besides, no remainder was thrown away: nothing is logged of that.
-/

namespace Titan

open Library Std

namespace EventPublisher

/-- The reports track what is left of every order along a run of calls: every trade is reported
twice, first for the incoming order; and of every order that was accepted and not cancelled by a
call, the last report that says how much is open shows the recorded quantity and the last one
that says how much was traded shows the quantity of its trades, as far as 64 bits hold it. -/
structure Tracks (publisher : EventPublisher) (start : InstrumentRegistry)
    (calls : List RegistryCall) : Prop where
  /-- Two reports for every trade. -/
  fills : publisher.fills =
    (run callRegistry start calls).2.payloads.flatMap EventPayload.fills
  /-- What is open. -/
  leaves : ∀ symbol id, Occurs (InstrumentRegistry.Enters symbol id) callRegistry start calls →
    ¬ Occurs (InstrumentRegistry.Cancels symbol id) callRegistry start calls →
    ∃ record report, (run callRegistry start calls).2.findOrder symbol id = some record ∧
      publisher.lastReport openingKinds symbol id = some report ∧
      report.leavesQty = record.quantity
  /-- What was traded. -/
  counted : ∀ symbol id report,
    Occurs (InstrumentRegistry.Enters symbol id) callRegistry start calls →
    ¬ Occurs (InstrumentRegistry.Cancels symbol id) callRegistry start calls →
    publisher.lastReport countingKinds symbol id = some report →
    report.cumQty.toNat =
      tradedBy id (tradesDuring symbol calls (run callRegistry start calls).1) % 2 ^ 64

/-- The orders that the reports show open are those that rest, with what is left of them. -/
structure ShowsOpen (publisher : EventPublisher) (registry : InstrumentRegistry) : Prop where
  /-- An order that is shown open rests. -/
  rests : ∀ symbol id report, publisher.lastReport acceptedKinds symbol id = some report →
    0 < report.leavesQty →
    ∃ side, ∃ order ∈ registry.restingOn symbol side, order.id = id ∧
      order.quantity = report.leavesQty
  /-- An order that rests is shown open. -/
  shown : ∀ symbol side, ∀ order ∈ registry.restingOn symbol side,
    ∃ report, publisher.lastReport acceptedKinds symbol order.id = some report ∧
      0 < report.leavesQty ∧ report.leavesQty = order.quantity

end EventPublisher

namespace InstrumentRegistry

section Run

variable {start registry : InstrumentRegistry} {market : Market} {calls : List RegistryCall}

/-- What the log says is open of an order is the quantity that `findOrder` shows. -/
theorem Mirrors.record_of_view (mirrors : registry.Mirrors market) (logged : market.Logged)
    {symbol : Symbol} {id : OrderId} {view : OrderView}
    (known : viewsOf registry.payloads symbol id = some view) :
    ∃ record, registry.findOrder symbol id = some record ∧ record.quantity = view.leaves := by
  have told := logged.told symbol
  rw [mirrors.tells] at known
  have listed := (told.known id).mp (by rw [known]; rfl)
  obtain ⟨record, recorded⟩ := Option.isSome_iff_exists.mp (told.recorded id listed)
  have quantity := told.leaves id view known
  rw [recorded] at quantity
  refine ⟨record, ?_, UInt64.toNat_inj.mp quantity⟩
  rw [mirrors.findOrder, Market.findOrder]
  cases listing : market.listings symbol with
  | none =>
    rw [listing] at recorded
    simp [ledgerOf, Ledger.empty] at recorded
  | some entry =>
    rw [listing] at recorded
    exact recorded

/-- The log is true after every run in which no submitted order crosses the book. -/
theorem Truthful.run (truthful : start.Truthful)
    (clear : Admissible SubmitsClear callRegistry start calls) :
    (Library.run callRegistry start calls).2.Truthful :=
  run_invariant Truthful (fun _ _ held admitted => held.call admitted) truthful clear

/-- An order that a call of the run entered is known to the log. -/
theorem Truthful.knows_run (truthful : start.Truthful)
    (clear : Admissible SubmitsClear callRegistry start calls) {symbol : Symbol} {id : OrderId}
    (entered : Occurs (Enters symbol id) callRegistry start calls) :
    Knows symbol id (Library.run callRegistry start calls).2 :=
  run_occurs Truthful (Knows symbol id) (fun _ _ held admitted => held.call admitted)
    (fun _ _ held admitted enters => held.knows_entered admitted enters)
    (fun _ call held _ knows => held.knows_call knows call) truthful clear entered

/-- Without a remainder thrown away, nothing is stranded. -/
theorem Truthful.none_stranded (allocator : SlabAllocator) (backend : MatcherBackend)
    (clear : Admissible SubmitsClear callRegistry (init allocator backend) calls)
    (kept : ¬ Occurs Discards callRegistry (init allocator backend) calls) :
    ∃ market, (Library.run callRegistry (init allocator backend) calls).2.Mirrors market ∧
      market.Logged ∧ ∀ symbol id, ¬ market.Stranded symbol id := by
  have nothing : ∀ symbol id, ¬ Market.empty.Stranded symbol id := by
    rintro symbol id ⟨view, said, _⟩
    cases said
  refine run_invariant
    (fun registry => ∃ market, registry.Mirrors market ∧ market.Logged ∧
      ∀ symbol id, ¬ market.Stranded symbol id) ?_
    ⟨Market.empty, mirrors_init allocator backend, Market.logged_empty, nothing⟩
    (admissible_and.mpr ⟨clear, not_occurs_iff.mp kept⟩)
  rintro registry call ⟨market, mirrors, logged, none_⟩ ⟨uncrossed, placed⟩
  obtain ⟨after, stranded⟩ := mirrors.logged_call logged uncrossed
  refine ⟨_, (mirrors.call call).2, after, ?_⟩
  intro symbol id
  rw [stranded]
  rintro (before | ⟨discards, _⟩)
  · exact none_ symbol id before
  · exact placed discards

/-- A remainder that is thrown away strands its order for good. -/
theorem Truthful.some_stranded (truthful : start.Truthful)
    (clear : Admissible SubmitsClear callRegistry start calls)
    (discarded : Occurs Discards callRegistry start calls) :
    ∃ market, (Library.run callRegistry start calls).2.Mirrors market ∧ market.Logged ∧
      ∃ symbol id, market.Stranded symbol id := by
  refine run_occurs Truthful
    (fun registry => ∃ market, registry.Mirrors market ∧ market.Logged ∧
      ∃ symbol id, market.Stranded symbol id)
    (fun _ _ held admitted => held.call admitted) ?_ ?_ truthful clear discarded
  · rintro registry call ⟨market, mirrors, logged⟩ uncrossed discards
    obtain ⟨after, stranded⟩ := mirrors.logged_call logged uncrossed
    obtain ⟨_, order, asks, _⟩ := (discards_iff registry call).mp discards
    have entry : call.request.bind ManagerCall.entry = some order.id := by rw [asks]; rfl
    exact ⟨_, (mirrors.call call).2, after, call.symbol, order.id,
      (stranded _ _).mpr (.inr ⟨discards, rfl, entry⟩)⟩
  · rintro registry call _ uncrossed ⟨market, mirrors, logged, symbol, id, before⟩
    obtain ⟨after, stranded⟩ := mirrors.logged_call logged uncrossed
    exact ⟨_, (mirrors.call call).2, after, symbol, id, (stranded _ _).mpr (.inl before)⟩

end Run

end InstrumentRegistry

namespace EventPublisher

section Run

variable (allocator : SlabAllocator) (backend : MatcherBackend) (calls : List RegistryCall)

/-- The trades in the log of a run are those that its calls returned. -/
theorem tradesOn_run (symbol : Symbol) :
    tradesOn symbol
        (run callRegistry (InstrumentRegistry.init allocator backend) calls).2.payloads =
      tradesDuring symbol calls
        (run callRegistry (InstrumentRegistry.init allocator backend) calls).1 := by
  obtain ⟨answers, mirrors⟩ :=
    (InstrumentRegistry.mirrors_init allocator backend).run calls
  have logged := Market.empty.trades_run calls symbol
  rw [InstrumentRegistry.payloads, mirrors.log, answers]
  exact logged

/-- The log of a run in which no submitted order crosses the book is in good order. -/
theorem formed_run
    (clear : Admissible InstrumentRegistry.SubmitsClear callRegistry
      (InstrumentRegistry.init allocator backend) calls) :
    WellFormed (run callRegistry (InstrumentRegistry.init allocator backend) calls).2.payloads := by
  obtain ⟨market, mirrors, logged⟩ :=
    (InstrumentRegistry.truthful_init allocator backend).run clear
  rw [InstrumentRegistry.payloads, mirrors.log]
  exact logged.formed

/-- Such a log is read to its end exactly when no trade wraps, and then the publisher reports what
it says. -/
theorem publish_run
    (clear : Admissible InstrumentRegistry.SubmitsClear callRegistry
      (InstrumentRegistry.init allocator backend) calls) :
    let ran := run callRegistry (InstrumentRegistry.init allocator backend) calls
    ((∀ symbol, NeverWraps (tradesDuring symbol calls ran.1)) ∧
      ∃ publisher, publish ran.2.eventLog = some publisher ∧
        publisher.Reads (viewsOf ran.2.payloads) ∧
        publisher.fills = ran.2.payloads.flatMap EventPayload.fills) ∨
    (¬ (∀ symbol, NeverWraps (tradesDuring symbol calls ran.1)) ∧
      publish ran.2.eventLog = none) := by
  intro ran
  have fed := process_run (formed_run allocator backend calls clear)
  simp only [tradesOn_run] at fed
  exact fed

end Run

/-- Fed the log of any run in which no submitted order crosses the book, a publisher tracks what is
left of every order exactly when no trade brings the quantity that one of its orders traded to a
multiple of 2^64. -/
theorem reports_track_quantity (allocator : SlabAllocator) (backend : MatcherBackend)
    (calls : List RegistryCall)
    (clear : Admissible InstrumentRegistry.SubmitsClear callRegistry
      (InstrumentRegistry.init allocator backend) calls) :
    let start := InstrumentRegistry.init allocator backend
    let ran := run callRegistry start calls
    (∃ publisher, publish ran.2.eventLog = some publisher ∧ publisher.Tracks start calls) ↔
      ∀ symbol, NeverWraps (tradesDuring symbol calls ran.1) := by
  intro start ran
  have truthful := InstrumentRegistry.truthful_init allocator backend
  obtain ⟨market, mirrors, logged⟩ := truthful.run clear
  rcases publish_run allocator backend calls clear with
    ⟨counted, publisher, fed, reads, fills⟩ | ⟨wraps, stuck⟩
  · refine iff_of_true ⟨publisher, fed, fills, ?_, ?_⟩ counted
    · intro symbol id entered _
      obtain ⟨view, known⟩ := Option.isSome_iff_exists.mp (truthful.knows_run clear entered)
      obtain ⟨record, found, quantity⟩ := mirrors.record_of_view logged known
      have leaves := reads.leaves symbol id
      rw [known] at leaves
      obtain ⟨report, last, open_⟩ := Option.map_eq_some_iff.mp leaves
      exact ⟨record, report, found, last, open_.trans quantity.symm⟩
    · intro symbol id report entered _ last
      obtain ⟨view, known⟩ := Option.isSome_iff_exists.mp (truthful.knows_run clear entered)
      have traded := (formed_run allocator backend calls clear).traded symbol id
      rw [known, tradesOn_run] at traded
      rw [reads.counted symbol id view report known last, ← traded]
      rfl
  · refine iff_of_false ?_ wraps
    rintro ⟨publisher, fed, _⟩
    rw [show publish ran.2.eventLog = none from stuck] at fed
    cases fed

/-- A sell order for the largest quantity that trades 2^63, is replaced by the largest quantity
again and trades 2^63 once more. -/
def wrappingCalls : List RegistryCall :=
  [.createInstrument [84],
    .submitOrder [84] { id := 1, side := .sell, price := 10, quantity := 18446744073709551615 },
    .matchOrder [84] { id := 2, side := .buy, price := 10, quantity := 9223372036854775808 },
    .cancelReplace [84] 1 { id := 1, side := .sell, price := 10, quantity := 18446744073709551615 },
    .matchOrder [84] { id := 3, side := .buy, price := 10, quantity := 9223372036854775808 }]

/-- No order of that run is submitted across the book, but the average price of the second fill is
a division by zero: nothing is reported. -/
theorem second_fill_divides_by_zero :
    let start := InstrumentRegistry.init (.consecutive 2 (by decide)) .reference
    let ran := run callRegistry start wrappingCalls
    Admissible InstrumentRegistry.SubmitsClear callRegistry start wrappingCalls ∧
      publish ran.2.eventLog = none ∧
      ¬ ∃ publisher, publish ran.2.eventLog = some publisher ∧
        publisher.Tracks start wrappingCalls := by
  intro start ran
  have clear : Admissible InstrumentRegistry.SubmitsClear callRegistry start wrappingCalls := by
    decide +kernel
  have stuck : (publish ran.2.eventLog).isNone = true := by decide +kernel
  have nothing := Option.isNone_iff_eq_none.mp stuck
  refine ⟨clear, nothing, ?_⟩
  rintro ⟨publisher, fed, _⟩
  rw [nothing] at fed
  cases fed

/-- A sell order that is partly filled and then replaced. -/
def partialFillCalls : List RegistryCall :=
  [.createInstrument [84],
    .submitOrder [84] { id := 1, side := .sell, price := 50, quantity := 100 },
    .matchOrder [84] { id := 2, side := .buy, price := 50, quantity := 40 },
    .cancelReplace [84] 1 { id := 1, side := .sell, price := 55, quantity := 60 }]

/-- The registry that receives them. -/
def partialFillStart : InstrumentRegistry :=
  InstrumentRegistry.init (.consecutive 2 Nat.two_pos) .optimized

/-- No order is submitted across the book. -/
theorem partialFill_clear :
    Admissible InstrumentRegistry.SubmitsClear callRegistry partialFillStart partialFillCalls := by
  decide +kernel

/-- No trade wraps. -/
theorem partialFill_neverWraps (symbol : Symbol) : NeverWraps
    (tradesDuring symbol partialFillCalls
      (run callRegistry partialFillStart partialFillCalls).1) := by
  by_cases here : symbol = [84]
  · subst here
    decide +kernel
  · have apart : ∀ call ∈ partialFillCalls, call.symbol ≠ symbol := by
      simp [partialFillCalls, RegistryCall.symbol, Ne.symm here]
    rw [tradesDuring_of_ne apart]
    exact grows_nil _

/-- Its reports track what is left. -/
theorem reports_track_quantity_partial_fill :
    ∃ publisher, publish (run callRegistry partialFillStart partialFillCalls).2.eventLog =
        some publisher ∧ publisher.Tracks partialFillStart partialFillCalls :=
  (reports_track_quantity (.consecutive 2 (by decide)) .optimized partialFillCalls
    partialFill_clear).mpr partialFill_neverWraps

/-- What a publisher that read the log shows open is what rests exactly when nothing is
stranded. -/
theorem Reads.showsOpen_iff {publisher : EventPublisher} {registry : InstrumentRegistry}
    {market : Market} (reads : publisher.Reads (viewsOf registry.payloads))
    (mirrors : registry.Mirrors market) (logged : market.Logged) :
    publisher.ShowsOpen registry ↔ ∀ symbol id, ¬ market.Stranded symbol id := by
  constructor
  · rintro shows_ symbol id ⟨view, said, live, open_, gone⟩
    have reported := reads.reported symbol id
    rw [mirrors.tells, said, Option.map_some, OrderView.reported, live] at reported
    obtain ⟨report, last, leaves⟩ := Option.map_eq_some_iff.mp reported
    have positive : 0 < report.leavesQty := by
      rw [leaves]
      exact UInt64.pos_iff_ne_zero.mpr open_
    obtain ⟨side, order, member, same, _⟩ := shows_.rests symbol id report last positive
    rw [mirrors.restingOn] at member
    have held := Ledger.holds_of_mem member
    rw [same, gone] at held
    cases held
  · intro none_
    constructor
    · intro symbol id report last positive
      have told := logged.told symbol
      have consistent := mirrors.consistent_ledgerOf symbol
      have reported := reads.reported symbol id
      rw [last, Option.map_some] at reported
      obtain ⟨view, said, shown⟩ := Option.map_eq_some_iff.mp reported.symm
      rw [mirrors.tells] at said
      have live : view.cancelled = false := by
        cases gone : view.cancelled with
        | false => rfl
        | true =>
          rw [OrderView.reported, gone, if_pos rfl] at shown
          rw [← shown] at positive
          exact absurd positive (by decide)
      have open_ : view.leaves = report.leavesQty := by
        rw [← shown, OrderView.reported, live]
        rfl
      have held : (ledgerOf (market.listings symbol)).holds id = true := by
        cases gone : (ledgerOf (market.listings symbol)).holds id with
        | true => rfl
        | false =>
          have nonzero : view.leaves ≠ 0 := by
            rw [open_]
            exact UInt64.pos_iff_ne_zero.mp positive
          exact absurd ⟨view, said, live, nonzero, gone⟩ (none_ symbol id)
      rw [Ledger.holds_iff, Book.Fresh] at held
      push Not at held
      obtain ⟨side, target, member, rfl⟩ := held
      obtain ⟨record, found, agrees⟩ := consistent.covers side target member
      have quantity := told.leaves target.id view said
      rw [found] at quantity
      have same : record.quantity = view.leaves := UInt64.toNat_inj.mp quantity
      refine ⟨side, target, ?_, rfl, ?_⟩
      · rw [mirrors.restingOn]
        exact member
      · rw [← agrees.quantity, same, open_]
    · intro symbol side order member
      have told := logged.told symbol
      have consistent := mirrors.consistent_ledgerOf symbol
      rw [mirrors.restingOn] at member
      have held := Ledger.holds_of_mem member
      have listed := consistent.known side order member
      obtain ⟨record, found, agrees⟩ := consistent.covers side order member
      obtain ⟨view, said⟩ := Option.isSome_iff_exists.mp ((told.known order.id).mpr listed)
      have live : view.cancelled = false := by
        cases gone : view.cancelled with
        | false => rfl
        | true =>
          rw [told.closed order.id view said gone] at held
          cases held
      have quantity := told.leaves order.id view said
      rw [found] at quantity
      have same : record.quantity = view.leaves := UInt64.toNat_inj.mp quantity
      have reported := reads.reported symbol order.id
      rw [mirrors.tells, said, Option.map_some, OrderView.reported, live] at reported
      obtain ⟨report, last, leaves⟩ := Option.map_eq_some_iff.mp reported
      have open_ : report.leavesQty = order.quantity := by
        rw [leaves, ← agrees.quantity, same]
        rfl
      refine ⟨report, last, ?_, open_⟩
      rw [open_]
      exact UInt64.pos_iff_ne_zero.mpr (consistent.sound.positive side order member)

/-- Fed the log of any run in which no submitted order crosses the book, a publisher shows open
what rests exactly when no trade brings the quantity that one of its orders traded to a multiple
of 2^64 and no matched order is left with a remainder that is thrown away. -/
theorem reported_open_rests (allocator : SlabAllocator) (backend : MatcherBackend)
    (calls : List RegistryCall)
    (clear : Admissible InstrumentRegistry.SubmitsClear callRegistry
      (InstrumentRegistry.init allocator backend) calls) :
    let start := InstrumentRegistry.init allocator backend
    let ran := run callRegistry start calls
    (∃ publisher, publish ran.2.eventLog = some publisher ∧ publisher.ShowsOpen ran.2) ↔
      (∀ symbol, NeverWraps (tradesDuring symbol calls ran.1)) ∧
        ¬ Occurs InstrumentRegistry.Discards callRegistry start calls := by
  intro start ran
  have truthful := InstrumentRegistry.truthful_init allocator backend
  rcases publish_run allocator backend calls clear with
    ⟨counted, publisher, fed, reads, _⟩ | ⟨wraps, stuck⟩
  · have same : (∃ other, publish ran.2.eventLog = some other ∧ other.ShowsOpen ran.2) ↔
        publisher.ShowsOpen ran.2 := by
      rw [show publish ran.2.eventLog = some publisher from fed]
      simp
    rw [same, and_iff_right counted]
    constructor
    · intro shows_ discarded
      obtain ⟨market, mirrors, logged, symbol, id, stranded⟩ :=
        truthful.some_stranded clear discarded
      exact (reads.showsOpen_iff mirrors logged).mp shows_ symbol id stranded
    · intro kept
      obtain ⟨market, mirrors, logged, none_⟩ :=
        InstrumentRegistry.Truthful.none_stranded allocator backend clear kept
      exact (reads.showsOpen_iff mirrors logged).mpr none_
  · refine iff_of_false ?_ (fun both => wraps both.1)
    rintro ⟨publisher, fed, _⟩
    rw [show publish ran.2.eventLog = none from stuck] at fed
    cases fed

/-- An immediate-or-cancel order that meets nothing. -/
def discardingCalls : List RegistryCall :=
  [.createInstrument [84],
    .matchOrder [84] { id := 1, side := .buy, price := 10, quantity := 5, tif := .ioc }]

/-- It is thrown away whole, and nothing is reported after its five shares were shown open. -/
theorem discarded_order_shown_open :
    let start := InstrumentRegistry.init (.consecutive 2 (by decide)) .reference
    let ran := run callRegistry start discardingCalls
    Admissible InstrumentRegistry.SubmitsClear callRegistry start discardingCalls ∧
      (publish ran.2.eventLog).map (fun publisher =>
        (publisher.lastReport acceptedKinds [84] 1).map (fun report => report.leavesQty)) =
          some (some 5) ∧
      (∀ side, ran.2.restingOn [84] side = []) ∧
      ¬ ∃ publisher, publish ran.2.eventLog = some publisher ∧ publisher.ShowsOpen ran.2 := by
  intro start ran
  have clear : Admissible InstrumentRegistry.SubmitsClear callRegistry start discardingCalls := by
    decide +kernel
  have open_ : (publish ran.2.eventLog).map (fun publisher =>
      (publisher.lastReport acceptedKinds [84] 1).map (fun report => report.leavesQty)) =
        some (some 5) := by
    decide +kernel
  have bids : ran.2.restingOn [84] .buy = [] := by decide +kernel
  have asks : ran.2.restingOn [84] .sell = [] := by decide +kernel
  have nothing (side : Side) : ran.2.restingOn [84] side = [] := by
    cases side
    · exact bids
    · exact asks
  refine ⟨clear, open_, nothing, ?_⟩
  rintro ⟨publisher, fed, shows_⟩
  rw [fed, Option.map_some, Option.some.injEq] at open_
  obtain ⟨report, last, leaves⟩ := Option.map_eq_some_iff.mp open_
  obtain ⟨side, order, member, _⟩ := shows_.rests [84] 1 report last (by rw [leaves]; decide)
  rw [nothing] at member
  cases member

/-- In the partly filled run nothing is thrown away, and what is shown open rests. -/
theorem reported_open_rests_partial_fill :
    ∃ publisher, publish (run callRegistry partialFillStart partialFillCalls).2.eventLog =
        some publisher ∧
      publisher.ShowsOpen (run callRegistry partialFillStart partialFillCalls).2 := by
  have kept : ¬ Occurs InstrumentRegistry.Discards callRegistry partialFillStart
      partialFillCalls := by
    decide +kernel
  exact (reported_open_rests (.consecutive 2 (by decide)) .optimized partialFillCalls
    partialFill_clear).mpr ⟨partialFill_neverWraps, kept⟩

end EventPublisher

end Titan
