import TitanEngine.Exchange.InstrumentRegistry
import TitanEngine.Exchange.ManagerRuns

/-!
# What a registry keeps

A market is a registry without its managers: for each listed symbol a ledger and the number of
snapshots taken, and one log over all symbols. Every call is one call of the ledger of its
symbol followed by its events. A registry mirrors a market whatever its matchers are, so two
registries that receive the same calls show the same.
-/

namespace Titan

open Library

/-- The event of a call that is accepted. -/
def ManagerCall.acceptedEvent (symbol : Symbol) : ManagerCall → EventPayload
  | addOrder order => .orderSubmitted symbol order.id order.side order.price order.quantity
  | matchOrder order => .orderSubmitted symbol order.id order.side order.price order.quantity
  | cancelOrder id => .orderCancelled symbol id
  | cancelReplace oldId newOrder =>
    .orderReplaced symbol oldId newOrder.price newOrder.quantity

/-- The events of a call: its acceptance or rejection, then its trades. -/
def eventsOf (symbol : Symbol) (call : ManagerCall) (result : MatchResult) : List EventPayload :=
  (if result.accept.accepted then call.acceptedEvent symbol
    else .orderRejected symbol call.id result.accept.reason) ::
    result.trades.map (Trade.event symbol)

/-- A listed symbol. -/
structure Listing where
  /-- What its manager keeps. -/
  ledger : Ledger
  /-- Number of the next snapshot. -/
  nextSnapshot : UInt64

/-- The listed symbols and the log. -/
structure Market where
  /-- The listing of a symbol, if it has one. -/
  listings : Symbol → Option Listing
  /-- All events, oldest first. -/
  log : List Event
  /-- Number of the next event. -/
  next : UInt64

namespace Market

/-- No symbol is listed. -/
def empty : Market := { listings := fun _ => none, log := [], next := 0 }

/-- List a symbol, unless it is listed. -/
def list (market : Market) (symbol : Symbol) : Market :=
  match market.listings symbol with
  | some _ => market
  | none =>
    { market with
      listings := Function.update market.listings symbol
        (some { ledger := Ledger.empty, nextSnapshot := 0 }) }

/-- Log one event. -/
def emit (market : Market) (payload : EventPayload) : Market :=
  { market with
    log := market.log ++ [{ sequenceNumber := market.next, payload := payload }]
    next := market.next + 1 }

/-- Log events in their order. -/
def publish (market : Market) (payloads : List EventPayload) : Market :=
  payloads.foldl emit market

/-- Replace the ledger of a listed symbol. -/
def setLedger (market : Market) (symbol : Symbol) (listing : Listing) (ledger : Ledger) :
    Market :=
  { market with
    listings := Function.update market.listings symbol (some { listing with ledger := ledger }) }

/-- One call for a symbol. -/
def call (market : Market) (symbol : Symbol) (request : ManagerCall) : MatchResult × Market :=
  match market.listings symbol with
  | none =>
    ({ trades := [], accept := .reject .unknownSymbol },
      market.publish [.orderRejected symbol request.id .unknownSymbol])
  | some listing =>
    let (result, ledger) := callLedger listing.ledger request
    (result, (market.setLedger symbol listing ledger).publish (eventsOf symbol request result))

/-- A numbered snapshot of a listed symbol; an empty one of any other. -/
def snapshot (market : Market) (symbol : Symbol) (depth : Nat) : BookSnapshot × Market :=
  match market.listings symbol with
  | none => ({ symbol := symbol, sequenceNumber := 0, bids := [], asks := [] }, market)
  | some listing =>
    ({ symbol := symbol
       sequenceNumber := listing.nextSnapshot
       bids := listing.ledger.book.depth .buy depth
       asks := listing.ledger.book.depth .sell depth },
      { market with
        listings := Function.update market.listings symbol
          (some { listing with nextSnapshot := listing.nextSnapshot + 1 }) })

/-- The record of an id of a listed symbol. -/
def findOrder (market : Market) (symbol : Symbol) (id : OrderId) : Option Order :=
  (market.listings symbol).bind (fun listing => listing.ledger.records[id]?)

/-- Drop every listing and the log. -/
def reset (_ : Market) : Market := empty

/-- Logging lists nothing. -/
@[simp] theorem listings_publish (market : Market) (payloads : List EventPayload) :
    (market.publish payloads).listings = market.listings := by
  induction payloads generalizing market with
  | nil => rfl
  | cons payload payloads ih => exact ih (market.emit payload)

/-- A listed symbol is not listed again. -/
theorem list_listed {market : Market} {symbol : Symbol} {listing : Listing}
    (listed : market.listings symbol = some listing) : market.list symbol = market := by
  rw [list, listed]

/-- A new symbol is listed with an empty ledger. -/
theorem listings_list {market : Market} {symbol : Symbol}
    (absent : market.listings symbol = none) :
    (market.list symbol).listings = Function.update market.listings symbol
      (some { ledger := Ledger.empty, nextSnapshot := 0 }) := by
  rw [list, absent]

/-- A call for a listed symbol is a call of its ledger. -/
theorem call_listed {market : Market} {symbol : Symbol} {listing : Listing}
    (listed : market.listings symbol = some listing) (request : ManagerCall) :
    (market.call symbol request).1 = (callLedger listing.ledger request).1 ∧
      (market.call symbol request).2.listings = Function.update market.listings symbol
        (some { listing with ledger := (callLedger listing.ledger request).2 }) := by
  unfold call
  rw [listed]
  exact ⟨rfl, listings_publish _ _⟩

end Market

/-- An instrument keeps its listing. -/
structure Instrument.Mirrors (instrument : Instrument) (listing : Listing) : Prop where
  /-- The manager keeps the ledger. -/
  manager : instrument.manager.Mirrors listing.ledger
  /-- The snapshots are counted alike. -/
  snapshots : instrument.nextSnapshotSequenceNumber = listing.nextSnapshot

namespace InstrumentRegistry

/-- The registry keeps the market. -/
structure Mirrors (registry : InstrumentRegistry) (market : Market) : Prop where
  /-- Each symbol has an instrument exactly when it is listed, and the one keeps the other. -/
  listed : ∀ symbol, Option.Rel Instrument.Mirrors (registry.find symbol) (market.listings symbol)
  /-- The logs are equal. -/
  log : registry.eventLog = market.log
  /-- The events are counted alike. -/
  next : registry.nextSequenceNumber = market.next

/-- A new registry keeps the empty market. -/
theorem mirrors_init (allocator : SlabAllocator) (backend : MatcherBackend) :
    (init allocator backend).Mirrors Market.empty where
  listed symbol := by
    have nothing : (init allocator backend).find symbol = none := by simp [init, find]
    rw [nothing]
    exact .none
  log := rfl
  next := rfl

variable {registry : InstrumentRegistry} {market : Market}

/-- A symbol without an instrument is not listed. -/
theorem Mirrors.unlisted (mirrors : registry.Mirrors market) {symbol : Symbol}
    (absent : registry.find symbol = none) : market.listings symbol = none := by
  have related := mirrors.listed symbol
  rw [absent] at related
  cases listing : market.listings symbol with
  | none => rfl
  | some listing_ =>
    rw [listing] at related
    nomatch related

/-- An instrument keeps the listing of its symbol. -/
theorem Mirrors.listing (mirrors : registry.Mirrors market) {symbol : Symbol}
    {instrument : Instrument} (found : registry.find symbol = some instrument) :
    ∃ listing, market.listings symbol = some listing ∧ instrument.Mirrors listing := by
  have related := mirrors.listed symbol
  rw [found] at related
  cases entry : market.listings symbol with
  | none =>
    rw [entry] at related
    nomatch related
  | some listing =>
    rw [entry] at related
    cases related with
    | some kept => exact ⟨listing, rfl, kept⟩

/-- A listing is kept by an instrument of its symbol. -/
theorem Mirrors.instrument (mirrors : registry.Mirrors market) {symbol : Symbol}
    {listing : Listing} (listed : market.listings symbol = some listing) :
    ∃ instrument, registry.find symbol = some instrument ∧ instrument.Mirrors listing := by
  have related := mirrors.listed symbol
  rw [listed] at related
  cases found : registry.find symbol with
  | none =>
    rw [found] at related
    nomatch related
  | some instrument =>
    rw [found] at related
    cases related with
    | some kept => exact ⟨instrument, rfl, kept⟩

/-- Storing an instrument that keeps a listing keeps the market. -/
theorem Mirrors.store (mirrors : registry.Mirrors market) (symbol : Symbol)
    {instrument : Instrument} {listing : Listing} (kept : instrument.Mirrors listing) :
    ({ registry with
      instruments := registry.instruments.insert symbol instrument } : InstrumentRegistry).Mirrors
      { market with listings := Function.update market.listings symbol (some listing) } where
  listed other := by
    show Option.Rel _ (registry.instruments.insert symbol instrument)[other]?
      (Function.update market.listings symbol (some listing) other)
    rw [Std.ExtTreeMap.getElem?_insert]
    by_cases same : symbol = other
    · subst same
      rw [if_pos Std.ReflCmp.compare_self, Function.update_self]
      exact .some kept
    · rw [if_neg (fun equal => same (Std.LawfulEqCmp.eq_of_compare equal)),
        Function.update_of_ne (Ne.symm same)]
      exact mirrors.listed other
  log := mirrors.log
  next := mirrors.next

/-- Emitting an event is logging it. -/
theorem Mirrors.emit (mirrors : registry.Mirrors market) (payload : EventPayload) :
    (registry.emit payload).Mirrors (market.emit payload) where
  listed := mirrors.listed
  log := by
    show registry.eventLog ++ _ = market.log ++ _
    rw [mirrors.log, mirrors.next]
  next := by
    show registry.nextSequenceNumber + 1 = market.next + 1
    rw [mirrors.next]

/-- Emitting the trades is logging them. -/
theorem Mirrors.emitTrades (mirrors : registry.Mirrors market) (symbol : Symbol)
    (trades : List Trade) :
    (trades.foldl (fun logged trade => logged.emit (trade.event symbol)) registry).Mirrors
      (market.publish (trades.map (Trade.event symbol))) := by
  induction trades generalizing registry market with
  | nil => exact mirrors
  | cons trade trades ih => exact ih (mirrors.emit (trade.event symbol))

/-- `createInstrument` lists the symbol. -/
theorem Mirrors.createInstrument (mirrors : registry.Mirrors market) (symbol : Symbol) :
    (registry.createInstrument symbol).Mirrors (market.list symbol) := by
  have present : registry.instruments.contains symbol = (registry.find symbol).isSome := by
    simp [find]
  unfold InstrumentRegistry.createInstrument Market.list
  rw [present]
  cases found : registry.find symbol with
  | none =>
    rw [mirrors.unlisted found]
    have kept : Instrument.Mirrors
        { manager := OrderManager.init (makeMatcher registry.allocator registry.backend)
          nextSnapshotSequenceNumber := 0 }
        { ledger := Ledger.empty, nextSnapshot := 0 } :=
      { manager :=
          OrderManager.mirrors_init (Matcher.holds_makeMatcher registry.allocator registry.backend)
        snapshots := rfl }
    exact mirrors.store symbol kept
  | some instrument =>
    obtain ⟨listing, listed, _⟩ := mirrors.listing found
    rw [listed]
    exact mirrors

/-- `snapshot` shows what the market shows. -/
theorem Mirrors.snapshot (mirrors : registry.Mirrors market) (symbol : Symbol) (depth : Nat) :
    (registry.snapshot symbol depth).1 = (market.snapshot symbol depth).1 ∧
      (registry.snapshot symbol depth).2.Mirrors (market.snapshot symbol depth).2 := by
  unfold InstrumentRegistry.snapshot Market.snapshot
  cases found : registry.find symbol with
  | none =>
    rw [mirrors.unlisted found]
    exact ⟨rfl, mirrors⟩
  | some instrument =>
    obtain ⟨listing, listed, kept⟩ := mirrors.listing found
    have represents := kept.manager.tracks.represents
    have sound := kept.manager.consistent.sound
    have bids := LawfulMatcher.bidDepth_spec represents sound depth
    have asks := LawfulMatcher.askDepth_spec represents sound depth
    rw [listed]
    refine ⟨?_, ?_⟩
    · simp only [bids, asks, kept.snapshots]
    · exact mirrors.store symbol
        { manager := kept.manager, snapshots := congrArg (· + 1) kept.snapshots }

/-- `findOrder` shows what the market shows. -/
theorem Mirrors.findOrder (mirrors : registry.Mirrors market) (symbol : Symbol) (id : OrderId) :
    registry.findOrder symbol id = market.findOrder symbol id := by
  unfold InstrumentRegistry.findOrder Market.findOrder
  cases found : registry.find symbol with
  | none =>
    rw [mirrors.unlisted found]
    rfl
  | some instrument =>
    obtain ⟨listing, listed, kept⟩ := mirrors.listing found
    rw [listed]
    show instrument.manager.orders[id]? = listing.ledger.records[id]?
    rw [kept.manager.records]

/-- `reset` leaves the empty market. -/
theorem Mirrors.reset (registry : InstrumentRegistry) :
    registry.reset.Mirrors Market.empty where
  listed symbol := by
    have nothing : registry.reset.find symbol = none := by
      simp [InstrumentRegistry.reset, find]
    rw [nothing]
    exact .none
  log := rfl
  next := rfl

/-- A call that is routed to a manager does what the market does, up to the events still to be
emitted. -/
theorem Mirrors.routed (mirrors : registry.Mirrors market) {symbol : Symbol}
    {instrument : Instrument} (found : registry.find symbol = some instrument)
    (request : ManagerCall) :
    ∃ called, (registry.setManager symbol instrument
        (callManager instrument.manager request).2).Mirrors called ∧
      market.call symbol request =
        ((callManager instrument.manager request).1,
          called.publish (eventsOf symbol request (callManager instrument.manager request).1)) := by
  obtain ⟨listing, listed, kept⟩ := mirrors.listing found
  obtain ⟨same, still⟩ := kept.manager.call request
  refine ⟨market.setLedger symbol listing (callLedger listing.ledger request).2, ?_, ?_⟩
  · exact mirrors.store symbol { manager := still, snapshots := kept.snapshots }
  · unfold Market.call
    rw [listed, same]

/-- A call for a symbol without an instrument is refused by the market. -/
theorem Mirrors.refused (mirrors : registry.Mirrors market) {symbol : Symbol}
    (absent : registry.find symbol = none) (request : ManagerCall) :
    market.call symbol request =
      ({ trades := [], accept := .reject .unknownSymbol },
        market.emit (.orderRejected symbol request.id .unknownSymbol)) := by
  unfold Market.call
  rw [mirrors.unlisted absent]
  rfl

/-- A call without trades does what the market does. -/
theorem Mirrors.route (mirrors : registry.Mirrors market) (symbol : Symbol)
    {asked : ManagerCall}
    {request : OrderManager Matcher → AcceptResult × OrderManager Matcher}
    (same : ∀ manager, callManager manager asked =
      ({ trades := [], accept := (request manager).1 }, (request manager).2)) :
    (registry.route symbol asked.id request (asked.acceptedEvent symbol)).1 =
        (market.call symbol asked).1.accept ∧
      (registry.route symbol asked.id request (asked.acceptedEvent symbol)).2.Mirrors
        (market.call symbol asked).2 := by
  unfold InstrumentRegistry.route
  cases found : registry.find symbol with
  | none =>
    rw [mirrors.refused found]
    exact ⟨rfl, mirrors.emit _⟩
  | some instrument =>
    obtain ⟨called, kept, routed⟩ := mirrors.routed found asked
    rw [same] at kept routed
    rw [routed]
    cases outcome : (request instrument.manager).1.accepted <;>
      simp only [eventsOf, outcome] <;> exact ⟨rfl, kept.emit _⟩

/-- `submitOrder` does what the market does. -/
theorem Mirrors.submitOrder (mirrors : registry.Mirrors market) (symbol : Symbol)
    (order : Order) :
    (registry.submitOrder symbol order).1 = (market.call symbol (.addOrder order)).1.accept ∧
      (registry.submitOrder symbol order).2.Mirrors
        (market.call symbol (.addOrder order)).2 := by
  have same : ∀ manager : OrderManager Matcher, callManager manager (.addOrder order) =
      ({ trades := [], accept := (manager.addOrder order).1 }, (manager.addOrder order).2) :=
    fun _ => rfl
  exact mirrors.route symbol same

/-- `cancelOrder` does what the market does. -/
theorem Mirrors.cancelOrder (mirrors : registry.Mirrors market) (symbol : Symbol)
    (id : OrderId) :
    (registry.cancelOrder symbol id).1 = (market.call symbol (.cancelOrder id)).1.accept ∧
      (registry.cancelOrder symbol id).2.Mirrors (market.call symbol (.cancelOrder id)).2 := by
  have same : ∀ manager : OrderManager Matcher, callManager manager (.cancelOrder id) =
      ({ trades := [], accept := (manager.cancelOrder id).1 }, (manager.cancelOrder id).2) :=
    fun _ => rfl
  exact mirrors.route symbol same

/-- `cancelReplace` does what the market does. -/
theorem Mirrors.cancelReplace (mirrors : registry.Mirrors market) (symbol : Symbol)
    (oldId : OrderId) (newOrder : Order) :
    (registry.cancelReplace symbol oldId newOrder).1 =
        (market.call symbol (.cancelReplace oldId newOrder)).1.accept ∧
      (registry.cancelReplace symbol oldId newOrder).2.Mirrors
        (market.call symbol (.cancelReplace oldId newOrder)).2 := by
  have same : ∀ manager : OrderManager Matcher,
      callManager manager (.cancelReplace oldId newOrder) =
        ({ trades := [], accept := (manager.cancelReplace oldId newOrder).1 },
          (manager.cancelReplace oldId newOrder).2) :=
    fun _ => rfl
  exact mirrors.route symbol same

/-- `matchOrder` does what the market does. -/
theorem Mirrors.matchOrder (mirrors : registry.Mirrors market) (symbol : Symbol)
    (order : Order) :
    (registry.matchOrder symbol order).1 = (market.call symbol (.matchOrder order)).1.trades ∧
      (registry.matchOrder symbol order).2.Mirrors
        (market.call symbol (.matchOrder order)).2 := by
  unfold InstrumentRegistry.matchOrder
  cases found : registry.find symbol with
  | none =>
    rw [mirrors.refused found]
    exact ⟨rfl, mirrors.emit _⟩
  | some instrument =>
    obtain ⟨called, kept, routed⟩ := mirrors.routed found (.matchOrder order)
    rw [routed]
    cases outcome : (instrument.manager.matchOrder order).1.accept.accepted <;>
      simp only [callManager, eventsOf, outcome] <;>
      exact ⟨trivial, (kept.emit _).emitTrades symbol _⟩

/-- Two registries keep one market. -/
def Alike (left right : InstrumentRegistry) : Prop :=
  ∃ market, left.Mirrors market ∧ right.Mirrors market

/-- New registries are alike, whatever their backends. -/
theorem alike_init (leftAllocator rightAllocator : SlabAllocator)
    (leftBackend rightBackend : MatcherBackend) :
    Alike (init leftAllocator leftBackend) (init rightAllocator rightBackend) :=
  ⟨Market.empty, mirrors_init leftAllocator leftBackend,
    mirrors_init rightAllocator rightBackend⟩

/-- Registries that are alike stay so when a symbol is listed on both. -/
theorem Alike.createInstrument {left right : InstrumentRegistry} (alike : Alike left right)
    (symbol : Symbol) : Alike (left.createInstrument symbol) (right.createInstrument symbol) := by
  obtain ⟨market, first, second⟩ := alike
  exact ⟨_, first.createInstrument symbol, second.createInstrument symbol⟩

/-- Whatever can be read off two registries is the same. -/
structure SameView (left right : InstrumentRegistry) : Prop where
  /-- The logs are equal. -/
  eventLog : left.eventLog = right.eventLog
  /-- A snapshot of any symbol to any depth is the same. -/
  snapshot : ∀ symbol depth, (left.snapshot symbol depth).1 = (right.snapshot symbol depth).1
  /-- The record of any order of any symbol is the same. -/
  findOrder : ∀ symbol id, left.findOrder symbol id = right.findOrder symbol id

/-- Registries that are alike show the same. -/
theorem Alike.sameView {left right : InstrumentRegistry} (alike : Alike left right) :
    SameView left right := by
  obtain ⟨market, first, second⟩ := alike
  constructor
  · rw [first.log, second.log]
  · intro symbol depth
    rw [(first.snapshot symbol depth).1, (second.snapshot symbol depth).1]
  · intro symbol id
    rw [first.findOrder symbol id, second.findOrder symbol id]

end InstrumentRegistry

end Titan
