import TitanEngine.Spec.Market

/-!
# Runs of the registry

Any number of symbols share one registry and one log. A run of calls does what the market does,
and to somebody who only looks at one symbol it is the run of that symbol's own calls: the other
symbols change neither the answers nor the book nor the records nor the events of this one.
-/

namespace Titan

open Library

/-- A call of the registry's interface. -/
inductive RegistryCall where
  | createInstrument (symbol : Symbol)
  | submitOrder (symbol : Symbol) (order : Order)
  | matchOrder (symbol : Symbol) (order : Order)
  | cancelOrder (symbol : Symbol) (id : OrderId)
  | cancelReplace (symbol : Symbol) (oldId : OrderId) (newOrder : Order)
  | snapshot (symbol : Symbol) (depth : Nat)
  deriving DecidableEq, Repr

/-- What a call returns. -/
inductive RegistryAnswer where
  | created
  | accept (result : AcceptResult)
  | trades (trades : List Trade)
  | snapshot (taken : BookSnapshot)
  deriving DecidableEq, Repr

/-- The trades a call returned. -/
def RegistryAnswer.tradesOf : RegistryAnswer → List Trade
  | .trades executed => executed
  | _ => []

/-- The symbol a call is about. -/
def RegistryCall.symbol : RegistryCall → Symbol
  | createInstrument symbol => symbol
  | submitOrder symbol _ => symbol
  | matchOrder symbol _ => symbol
  | cancelOrder symbol _ => symbol
  | cancelReplace symbol _ _ => symbol
  | snapshot symbol _ => symbol

/-- What a call asks of the manager of its symbol. -/
def RegistryCall.request : RegistryCall → Option ManagerCall
  | createInstrument _ => none
  | submitOrder _ order => some (.addOrder order)
  | matchOrder _ order => some (.matchOrder order)
  | cancelOrder _ id => some (.cancelOrder id)
  | cancelReplace _ oldId newOrder => some (.cancelReplace oldId newOrder)
  | snapshot _ _ => none

/-- The symbol an event names. -/
def EventPayload.symbol : EventPayload → Symbol
  | orderSubmitted symbol _ _ _ _ => symbol
  | orderCancelled symbol _ => symbol
  | orderReplaced symbol _ _ _ => symbol
  | tradeExecuted symbol _ _ _ _ => symbol
  | orderRejected symbol _ _ => symbol

/-- The payloads of a log that name a symbol, in their order. -/
def payloadsNaming (symbol : Symbol) (log : List Event) : List EventPayload :=
  (log.map Event.payload).filter (fun payload => payload.symbol == symbol)

/-- Issue one call to a registry. -/
def callRegistry (registry : InstrumentRegistry) (call : RegistryCall) :
    RegistryAnswer × InstrumentRegistry :=
  match call with
  | .createInstrument symbol => (.created, registry.createInstrument symbol)
  | .submitOrder symbol order =>
    let (result, next) := registry.submitOrder symbol order
    (.accept result, next)
  | .matchOrder symbol order =>
    let (trades, next) := registry.matchOrder symbol order
    (.trades trades, next)
  | .cancelOrder symbol id =>
    let (result, next) := registry.cancelOrder symbol id
    (.accept result, next)
  | .cancelReplace symbol oldId newOrder =>
    let (result, next) := registry.cancelReplace symbol oldId newOrder
    (.accept result, next)
  | .snapshot symbol depth =>
    let (taken, next) := registry.snapshot symbol depth
    (.snapshot taken, next)

/-- Issue one call to a market. -/
def callMarket (market : Market) (call : RegistryCall) : RegistryAnswer × Market :=
  match call with
  | .createInstrument symbol => (.created, market.list symbol)
  | .submitOrder symbol order =>
    let (result, next) := market.call symbol (.addOrder order)
    (.accept result.accept, next)
  | .matchOrder symbol order =>
    let (result, next) := market.call symbol (.matchOrder order)
    (.trades result.trades, next)
  | .cancelOrder symbol id =>
    let (result, next) := market.call symbol (.cancelOrder id)
    (.accept result.accept, next)
  | .cancelReplace symbol oldId newOrder =>
    let (result, next) := market.call symbol (.cancelReplace oldId newOrder)
    (.accept result.accept, next)
  | .snapshot symbol depth =>
    let (taken, next) := market.snapshot symbol depth
    (.snapshot taken, next)

namespace InstrumentRegistry

variable {registry : InstrumentRegistry} {market : Market}

/-- One call does what the market does. -/
theorem Mirrors.call (mirrors : registry.Mirrors market) (call : RegistryCall) :
    (callRegistry registry call).1 = (callMarket market call).1 ∧
      (callRegistry registry call).2.Mirrors (callMarket market call).2 := by
  cases call with
  | createInstrument symbol => exact ⟨rfl, mirrors.createInstrument symbol⟩
  | submitOrder symbol order =>
    have step := mirrors.submitOrder symbol order
    exact ⟨congrArg RegistryAnswer.accept step.1, step.2⟩
  | matchOrder symbol order =>
    have step := mirrors.matchOrder symbol order
    exact ⟨congrArg RegistryAnswer.trades step.1, step.2⟩
  | cancelOrder symbol id =>
    have step := mirrors.cancelOrder symbol id
    exact ⟨congrArg RegistryAnswer.accept step.1, step.2⟩
  | cancelReplace symbol oldId newOrder =>
    have step := mirrors.cancelReplace symbol oldId newOrder
    exact ⟨congrArg RegistryAnswer.accept step.1, step.2⟩
  | snapshot symbol depth =>
    have step := mirrors.snapshot symbol depth
    exact ⟨congrArg RegistryAnswer.snapshot step.1, step.2⟩

/-- A run of calls does what the market does. -/
theorem Mirrors.run (mirrors : registry.Mirrors market) (calls : List RegistryCall) :
    (Library.run callRegistry registry calls).1 = (Library.run callMarket market calls).1 ∧
      (Library.run callRegistry registry calls).2.Mirrors
        (Library.run callMarket market calls).2 := by
  have kept : ∀ (left : InstrumentRegistry) (right : Market) (call : RegistryCall),
      left.Mirrors right → True → (callRegistry left call).1 = (callMarket right call).1 ∧
        (callRegistry left call).2.Mirrors (callMarket right call).2 :=
    fun _ _ call held _ => held.call call
  exact run_simulation Mirrors kept mirrors (admissible_true callRegistry registry calls)

end InstrumentRegistry

namespace Market

/-- Logging adds its payloads to the log. -/
theorem payloads_publish (market : Market) (payloads : List EventPayload) :
    (market.publish payloads).log.map Event.payload =
      market.log.map Event.payload ++ payloads := by
  induction payloads generalizing market with
  | nil => simp [publish]
  | cons payload payloads ih =>
    have later := ih (market.emit payload)
    simpa [publish, emit] using later

/-- A market moves on in one symbol: to a listing of it, with events that name it. -/
structure Moves (symbol : Symbol) (market next : Market) (listing : Option Listing)
    (events : List EventPayload) : Prop where
  /-- Only the listing of the symbol changes. -/
  listings : next.listings = Function.update market.listings symbol listing
  /-- The events are logged behind the others. -/
  log : next.log.map Event.payload = market.log.map Event.payload ++ events
  /-- They name the symbol. -/
  named : ∀ event ∈ events, event.symbol = symbol

end Market

/-- A request for a symbol as its own listing decides it: the answer, the listing afterwards and
the events. -/
def requestListing (symbol : Symbol) (listing : Option Listing) (request : ManagerCall) :
    MatchResult × Option Listing × List EventPayload :=
  match listing with
  | none =>
    ({ trades := [], accept := .reject .unknownSymbol }, none,
      [.orderRejected symbol request.id .unknownSymbol])
  | some listing =>
    let (result, ledger) := callLedger listing.ledger request
    (result, some { listing with ledger := ledger }, eventsOf symbol request result)

/-- A call as the listing of its symbol decides it. -/
def callListing (listing : Option Listing) (call : RegistryCall) :
    RegistryAnswer × Option Listing × List EventPayload :=
  match call with
  | .createInstrument _ =>
    (.created, some (listing.getD { ledger := Ledger.empty, nextSnapshot := 0 }), [])
  | .submitOrder symbol order =>
    let (result, next, events) := requestListing symbol listing (.addOrder order)
    (.accept result.accept, next, events)
  | .matchOrder symbol order =>
    let (result, next, events) := requestListing symbol listing (.matchOrder order)
    (.trades result.trades, next, events)
  | .cancelOrder symbol id =>
    let (result, next, events) := requestListing symbol listing (.cancelOrder id)
    (.accept result.accept, next, events)
  | .cancelReplace symbol oldId newOrder =>
    let (result, next, events) := requestListing symbol listing (.cancelReplace oldId newOrder)
    (.accept result.accept, next, events)
  | .snapshot symbol depth =>
    match listing with
    | none => (.snapshot { symbol := symbol, sequenceNumber := 0, bids := [], asks := [] }, none, [])
    | some listing =>
      (.snapshot
        { symbol := symbol
          sequenceNumber := listing.nextSnapshot
          bids := listing.ledger.book.depth .buy depth
          asks := listing.ledger.book.depth .sell depth },
        some { listing with nextSnapshot := listing.nextSnapshot + 1 }, [])

/-- The ledger of a symbol, empty while it is not listed. -/
def ledgerOf (listing : Option Listing) : Ledger :=
  (listing.map (fun entry => entry.ledger)).getD Ledger.empty

/-- A call asks nothing of the manager, or is refused because the symbol is not listed, or is a
call of the ledger. -/
theorem callListing_cases (listing : Option Listing) (call : RegistryCall) :
    (call.request = none ∧ (callListing listing call).1.tradesOf = [] ∧
      ledgerOf (callListing listing call).2.1 = ledgerOf listing ∧
      (callListing listing call).2.2 = []) ∨
    (∃ request, call.request = some request ∧ listing = none ∧
      (callListing listing call).1.tradesOf = [] ∧ (callListing listing call).2.1 = none ∧
      (callListing listing call).2.2 =
        [.orderRejected call.symbol request.id .unknownSymbol]) ∨
    (∃ request entry, call.request = some request ∧ listing = some entry ∧
      (callListing listing call).1.tradesOf = (callLedger entry.ledger request).1.trades ∧
      (callListing listing call).2.1 =
        some { entry with ledger := (callLedger entry.ledger request).2 } ∧
      (callListing listing call).2.2 =
        eventsOf call.symbol request (callLedger entry.ledger request).1) := by
  cases call with
  | createInstrument symbol => cases listing <;> exact .inl ⟨rfl, rfl, rfl, rfl⟩
  | snapshot symbol depth => cases listing <;> exact .inl ⟨rfl, rfl, rfl, rfl⟩
  | _ =>
    cases listing with
    | none => exact .inr (.inl ⟨_, rfl, rfl, rfl, rfl, rfl⟩)
    | some entry => exact .inr (.inr ⟨_, entry, rfl, rfl, rfl, rfl, rfl⟩)

/-- The events of a request name its symbol. -/
theorem symbol_eventsOf {symbol : Symbol} {request : ManagerCall} {result : MatchResult}
    {event : EventPayload} (member : event ∈ eventsOf symbol request result) :
    event.symbol = symbol := by
  rcases List.mem_cons.mp member with rfl | traded
  · split
    · cases request <;> rfl
    · rfl
  · obtain ⟨trade, _, rfl⟩ := List.mem_map.mp traded
    rfl

namespace Market

/-- Taking a listing from a symbol that has none changes nothing. -/
theorem update_unlisted {market : Market} {symbol : Symbol}
    (absent : market.listings symbol = none) :
    Function.update market.listings symbol none = market.listings := by
  rw [← absent, Function.update_eq_self]

/-- A request is decided by the listing of its symbol. -/
theorem call_moves (market : Market) (symbol : Symbol) (request : ManagerCall) :
    (market.call symbol request).1 =
        (requestListing symbol (market.listings symbol) request).1 ∧
      Moves symbol market (market.call symbol request).2
        (requestListing symbol (market.listings symbol) request).2.1
        (requestListing symbol (market.listings symbol) request).2.2 := by
  unfold call requestListing
  cases listed : market.listings symbol with
  | none =>
    refine ⟨rfl, ?_, payloads_publish _ _, ?_⟩
    · rw [listings_publish, update_unlisted listed]
    · intro event member
      rw [List.mem_singleton.mp member]
      rfl
  | some listing =>
    exact ⟨rfl, listings_publish _ _, payloads_publish _ _, fun _ member => symbol_eventsOf member⟩

/-- A call is decided by the listing of its symbol. -/
theorem callMarket_moves (market : Market) (call : RegistryCall) :
    (callMarket market call).1 = (callListing (market.listings call.symbol) call).1 ∧
      Moves call.symbol market (callMarket market call).2
        (callListing (market.listings call.symbol) call).2.1
        (callListing (market.listings call.symbol) call).2.2 := by
  cases call with
  | createInstrument symbol =>
    refine ⟨rfl, ?_, ?_, ?_⟩
    all_goals simp only [RegistryCall.symbol, callMarket, callListing]
    · cases listed : market.listings symbol with
      | none => rw [listings_list listed, Option.getD_none]
      | some listing =>
        rw [list_listed listed, Option.getD_some, ← listed, Function.update_eq_self]
    · cases listed : market.listings symbol with
      | none => simp [list, listed]
      | some listing => rw [list_listed listed, List.append_nil]
    · simp
  | submitOrder symbol order =>
    have step := market.call_moves symbol (.addOrder order)
    exact ⟨congrArg (fun result : MatchResult => RegistryAnswer.accept result.accept) step.1,
      step.2⟩
  | matchOrder symbol order =>
    have step := market.call_moves symbol (.matchOrder order)
    exact ⟨congrArg (fun result : MatchResult => RegistryAnswer.trades result.trades) step.1,
      step.2⟩
  | cancelOrder symbol id =>
    have step := market.call_moves symbol (.cancelOrder id)
    exact ⟨congrArg (fun result : MatchResult => RegistryAnswer.accept result.accept) step.1,
      step.2⟩
  | cancelReplace symbol oldId newOrder =>
    have step := market.call_moves symbol (.cancelReplace oldId newOrder)
    exact ⟨congrArg (fun result : MatchResult => RegistryAnswer.accept result.accept) step.1,
      step.2⟩
  | snapshot symbol depth =>
    simp only [RegistryCall.symbol, callMarket, callListing, snapshot]
    cases listed : market.listings symbol with
    | none =>
      refine ⟨rfl, ?_, ?_, ?_⟩
      · rw [update_unlisted listed]
      · rw [List.append_nil]
      · simp
    | some listing =>
      refine ⟨rfl, rfl, ?_, ?_⟩
      · rw [List.append_nil]
      · simp

/-- Two markets show the same of one symbol. -/
structure Shares (symbol : Symbol) (left right : Market) : Prop where
  /-- Its listing is the same. -/
  listing : left.listings symbol = right.listings symbol
  /-- So are the events that name it. -/
  events : payloadsNaming symbol left.log = payloadsNaming symbol right.log

/-- The payloads of a symbol after a move of it. -/
theorem Moves.payloads {symbol : Symbol} {market next : Market} {listing : Option Listing}
    {events : List EventPayload} (moves : Moves symbol market next listing events) :
    payloadsNaming symbol next.log = payloadsNaming symbol market.log ++ events := by
  have own : events.filter (fun payload => payload.symbol == symbol) = events :=
    List.filter_eq_self.mpr (fun event member => by simp [moves.named event member])
  rw [payloadsNaming, moves.log, List.filter_append, own]
  rfl

/-- A move of one symbol adds no payload of another. -/
theorem Moves.payloads_other {symbol other : Symbol} {market next : Market}
    {listing : Option Listing} {events : List EventPayload}
    (moves : Moves symbol market next listing events) (different : symbol ≠ other) :
    payloadsNaming other next.log = payloadsNaming other market.log := by
  have none_ : events.filter (fun payload => payload.symbol == other) = [] :=
    List.filter_eq_nil_iff.mpr (fun event member => by simp [moves.named event member, different])
  rw [payloadsNaming, moves.log, List.filter_append, none_, List.append_nil]
  rfl

/-- The symbol's own call is answered alike and keeps the markets showing the same. -/
theorem Shares.own {symbol : Symbol} {left right : Market} (shares : Shares symbol left right)
    {call : RegistryCall} (own : call.symbol = symbol) :
    (callMarket left call).1 = (callMarket right call).1 ∧
      Shares symbol (callMarket left call).2 (callMarket right call).2 := by
  subst own
  obtain ⟨leftAnswer, leftMoves⟩ := left.callMarket_moves call
  obtain ⟨rightAnswer, rightMoves⟩ := right.callMarket_moves call
  rw [shares.listing] at leftAnswer leftMoves
  refine ⟨leftAnswer.trans rightAnswer.symm, ?_, ?_⟩
  · rw [leftMoves.listings, rightMoves.listings, Function.update_self, Function.update_self]
  · rw [leftMoves.payloads, rightMoves.payloads, shares.events]

/-- A call for another symbol keeps the markets showing the same. -/
theorem Shares.other {symbol : Symbol} {left right : Market} (shares : Shares symbol left right)
    {call : RegistryCall} (different : call.symbol ≠ symbol) :
    Shares symbol (callMarket left call).2 right := by
  have moves := (left.callMarket_moves call).2
  constructor
  · rw [moves.listings, Function.update_of_ne (Ne.symm different), shares.listing]
  · rw [moves.payloads_other different, shares.events]

end Market

namespace InstrumentRegistry

/-- Two registries show the same of one symbol. -/
def Shares (symbol : Symbol) (left right : InstrumentRegistry) : Prop :=
  ∃ first second, left.Mirrors first ∧ right.Mirrors second ∧ Market.Shares symbol first second

/-- To one symbol, a run of the calls of all symbols is the run of its own calls on a fresh
registry: the answers to its calls, its next snapshots, its records and the events that name it
are the same. -/
theorem symbol_isolation (allocator otherAllocator : SlabAllocator) (backend : MatcherBackend)
    (calls : List RegistryCall) (symbol : Symbol) :
    let mine : RegistryCall → Bool := fun call => call.symbol == symbol
    let whole := run callRegistry (init allocator backend) calls
    let own := run callRegistry (init otherAllocator backend) (calls.filter mine)
    outputsOf mine calls whole.1 = own.1 ∧
      (∀ depth, (whole.2.snapshot symbol depth).1 = (own.2.snapshot symbol depth).1) ∧
      (∀ id, whole.2.findOrder symbol id = own.2.findOrder symbol id) ∧
      payloadsNaming symbol whole.2.eventLog = payloadsNaming symbol own.2.eventLog := by
  intro mine whole own
  have start : Shares symbol (init allocator backend) (init otherAllocator backend) :=
    ⟨_, _, mirrors_init allocator backend, mirrors_init otherAllocator backend, rfl, rfl⟩
  have seen : ∀ left right call, Shares symbol left right → True → mine call = true →
      (callRegistry left call).1 = (callRegistry right call).1 ∧
        Shares symbol (callRegistry left call).2 (callRegistry right call).2 := by
    intro left right call shares _ asked
    obtain ⟨first, second, keepsFirst, keepsSecond, same⟩ := shares
    have firstStep := keepsFirst.call call
    have secondStep := keepsSecond.call call
    have step := same.own (eq_of_beq asked)
    exact ⟨firstStep.1.trans (step.1.trans secondStep.1.symm),
      _, _, firstStep.2, secondStep.2, step.2⟩
  have unseen : ∀ left right call, Shares symbol left right → True → mine call = false →
      Shares symbol (callRegistry left call).2 right := by
    intro left right call shares _ unasked
    obtain ⟨first, second, keepsFirst, keepsSecond, same⟩ := shares
    exact ⟨_, _, (keepsFirst.call call).2, keepsSecond, same.other (ne_of_beq_false unasked)⟩
  obtain ⟨answers, first, second, keepsFirst, keepsSecond, same⟩ :=
    run_filter mine (Shares symbol) seen unseen start
      (admissible_true callRegistry (init allocator backend) calls)
  refine ⟨answers, ?_, ?_, ?_⟩
  · intro depth
    rw [(keepsFirst.snapshot symbol depth).1, (keepsSecond.snapshot symbol depth).1,
      Market.snapshot, Market.snapshot, same.listing]
    split <;> rfl
  · intro id
    rw [keepsFirst.findOrder, keepsSecond.findOrder, Market.findOrder, Market.findOrder,
      same.listing]
  · rw [keepsFirst.log, keepsSecond.log, same.events]

end InstrumentRegistry

end Titan
