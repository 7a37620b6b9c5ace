import TitanEngine.MarketData.LoggedOrders

/-!
# The log of a registry

Along every run of a registry in which no order that is submitted crosses the book, the log is
well formed and says of every order of every symbol what is kept of it. The trades that it reports
are those that `matchOrder` returned. An order that it shows open does not rest exactly when it was
matched and its remainder was thrown away.
-/

namespace Titan

open Library Std

namespace InstrumentRegistry

/-- The orders that rest on a side of the matcher of a symbol. -/
def restingOn (registry : InstrumentRegistry) (symbol : Symbol) (side : Side) : List Order :=
  match registry.find symbol with
  | none => []
  | some instrument => resting instrument.manager.matcher side

/-- The manager of the symbol accepts a call. -/
def accepts (registry : InstrumentRegistry) (call : RegistryCall) : Bool :=
  match call.request, registry.find call.symbol with
  | some request, some instrument => (callManager instrument.manager request).1.accept.accepted
  | _, _ => false

/-- An order crosses the book of a symbol. -/
def crossesBook (registry : InstrumentRegistry) (symbol : Symbol) (order : Order) : Bool :=
  match registry.find symbol with
  | none => false
  | some instrument => instrument.manager.wouldCross order

/-- An order that is submitted does not cross the book. -/
def SubmitsClear (registry : InstrumentRegistry) : RegistryCall → Prop
  | .submitOrder symbol order => registry.accepts (.submitOrder symbol order) = true →
      registry.crossesBook symbol order = false
  | _ => True

instance (registry : InstrumentRegistry) (call : RegistryCall) :
    Decidable (registry.SubmitsClear call) :=
  match call with
  | .submitOrder _ _ => inferInstanceAs (Decidable (_ → _))
  | .createInstrument _ => .isTrue trivial
  | .matchOrder _ _ => .isTrue trivial
  | .cancelOrder _ _ => .isTrue trivial
  | .cancelReplace _ _ _ => .isTrue trivial
  | .snapshot _ _ => .isTrue trivial

/-- A call enters an order under an id of a symbol. -/
def Enters (symbol : Symbol) (id : OrderId) (registry : InstrumentRegistry)
    (call : RegistryCall) : Prop :=
  call.symbol = symbol ∧ call.request.bind ManagerCall.entry = some id ∧
    registry.accepts call = true

/-- A call cancels the order with an id of a symbol. -/
def Cancels (symbol : Symbol) (id : OrderId) (registry : InstrumentRegistry)
    (call : RegistryCall) : Prop :=
  call = .cancelOrder symbol id ∧ registry.accepts call = true

/-- A call matches an order and throws its remainder away. -/
def Discards (registry : InstrumentRegistry) : RegistryCall → Prop
  | .matchOrder symbol order => registry.accepts (.matchOrder symbol order) = true ∧
      ¬ order.Placed (registry.restingOn symbol order.side.opposite)
  | _ => False

instance (registry : InstrumentRegistry) (call : RegistryCall) :
    Decidable (registry.Discards call) :=
  match call with
  | .matchOrder _ _ => inferInstanceAs (Decidable (_ ∧ ¬ _))
  | .createInstrument _ => .isFalse id
  | .submitOrder _ _ => .isFalse id
  | .cancelOrder _ _ => .isFalse id
  | .cancelReplace _ _ _ => .isFalse id
  | .snapshot _ _ => .isFalse id

end InstrumentRegistry

namespace Market

/-- What is logged. -/
def payloads (market : Market) : List EventPayload := market.log.map Event.payload

/-- What the log says of the orders of a symbol. -/
def tells (market : Market) (symbol : Symbol) : OrderId → Option OrderView :=
  viewsOf market.payloads symbol

/-- The log is well formed, and what it says is what is kept. -/
structure Logged (market : Market) : Prop where
  /-- The log is in good order. -/
  formed : WellFormed market.payloads
  /-- It says what is kept of every symbol. -/
  told : ∀ symbol, (ledgerOf (market.listings symbol)).Told (market.tells symbol)

/-- The empty market has an empty log. -/
theorem logged_empty : empty.Logged where
  formed := grows_nil _
  told _ := Ledger.told_empty

/-- An order of a symbol is said to be open and does not rest. -/
def Stranded (market : Market) (symbol : Symbol) (id : OrderId) : Prop :=
  (ledgerOf (market.listings symbol)).Stranded (market.tells symbol) id

end Market

namespace InstrumentRegistry

variable {registry : InstrumentRegistry} {market : Market}

/-- The ledger of a symbol is consistent. -/
theorem Mirrors.consistent_ledgerOf (mirrors : registry.Mirrors market) (symbol : Symbol) :
    (ledgerOf (market.listings symbol)).Consistent := by
  cases listed : market.listings symbol with
  | none => exact Ledger.consistent_empty
  | some listing =>
    obtain ⟨instrument, _, kept⟩ := mirrors.instrument listed
    exact kept.manager.consistent

/-- What rests in the matcher of a symbol is the book of its ledger. -/
theorem Mirrors.restingOn (mirrors : registry.Mirrors market) (symbol : Symbol) (side : Side) :
    registry.restingOn symbol side = (ledgerOf (market.listings symbol)).book.side side := by
  unfold InstrumentRegistry.restingOn
  cases found : registry.find symbol with
  | none =>
    rw [mirrors.unlisted found]
    cases side <;> rfl
  | some instrument =>
    obtain ⟨listing, listed, kept⟩ := mirrors.listing found
    rw [listed]
    exact resting_eq kept.manager.tracks.represents kept.manager.consistent.sound side

/-- A call is accepted when the ledger accepts it. -/
theorem Mirrors.accepts (mirrors : registry.Mirrors market) {call : RegistryCall}
    {request : ManagerCall} (asks : call.request = some request) {listing : Listing}
    (listed : market.listings call.symbol = some listing) :
    registry.accepts call = (callLedger listing.ledger request).1.accept.accepted := by
  obtain ⟨instrument, found, kept⟩ := mirrors.instrument listed
  unfold InstrumentRegistry.accepts
  rw [asks, found]
  exact congrArg (fun result : MatchResult => result.accept.accepted) (kept.manager.call request).1

/-- A call for a symbol that is not listed is not accepted. -/
theorem Mirrors.accepts_unlisted (mirrors : registry.Mirrors market) {call : RegistryCall}
    (unlisted : market.listings call.symbol = none) : registry.accepts call = false := by
  have absent : registry.find call.symbol = none := by
    cases found : registry.find call.symbol with
    | none => rfl
    | some instrument =>
      obtain ⟨listing, listed, _⟩ := mirrors.listing found
      rw [unlisted] at listed
      cases listed
  unfold InstrumentRegistry.accepts
  rw [absent]
  cases call.request <;> rfl

/-- `wouldCross` of a manager is that of the ledger. -/
theorem Mirrors.crossesBook (mirrors : registry.Mirrors market) {symbol : Symbol}
    {listing : Listing} (listed : market.listings symbol = some listing) (order : Order) :
    registry.crossesBook symbol order = Ledger.wouldCross listing.ledger.book order := by
  obtain ⟨instrument, found, kept⟩ := mirrors.instrument listed
  unfold InstrumentRegistry.crossesBook
  rw [found]
  exact kept.manager.tracks.shadows.wouldCross_eq kept.manager.consistent.sound order

/-- A call throws a remainder away when it matches an order that is not placed. -/
theorem discards_iff (registry : InstrumentRegistry) (call : RegistryCall) :
    registry.Discards call ↔ registry.accepts call = true ∧
      ∃ order, call.request = some (.matchOrder order) ∧
        ¬ order.Placed (registry.restingOn call.symbol order.side.opposite) := by
  cases call with
  | matchOrder symbol order => simp [Discards, RegistryCall.request, RegistryCall.symbol]
  | _ => simp [Discards, RegistryCall.request]

/-- What a call logs of its symbol is in good order and says what is then kept. -/
theorem Mirrors.told_call (mirrors : registry.Mirrors market) (logged : market.Logged)
    {call : RegistryCall} (clear : registry.SubmitsClear call) :
    let listing := (callListing (market.listings call.symbol) call).2.1
    let events := (callListing (market.listings call.symbol) call).2.2
    WellFormed (market.payloads ++ events) ∧
      (ledgerOf listing).Told (viewsOf (market.payloads ++ events) call.symbol) ∧
      ∀ id, (ledgerOf listing).Stranded (viewsOf (market.payloads ++ events) call.symbol) id ↔
        market.Stranded call.symbol id ∨
          registry.Discards call ∧ call.request.bind ManagerCall.entry = some id := by
  have told := logged.told call.symbol
  rcases callListing_cases (market.listings call.symbol) call with
    ⟨asks, _, same, silent⟩ | ⟨request, asks, unlisted, _, none_, refused⟩ |
    ⟨request, entry, asks, listed, _, next, events⟩
  · have idle : ¬ registry.Discards call := by
      rw [discards_iff, asks]
      simp
    simp only [same, silent, List.append_nil]
    refine ⟨logged.formed, told, ?_⟩
    simp [idle, Market.Stranded, Market.tells]
  · have idle : ¬ registry.Discards call := by
      rw [discards_iff, mirrors.accepts_unlisted unlisted]
      simp
    have still : viewsOf (market.payloads ++
        [.orderRejected call.symbol request.id .unknownSymbol]) = viewsOf market.payloads :=
      viewsOf_concat _ _
    simp only [none_, refused, still]
    rw [unlisted] at told
    refine ⟨grows_concat.mpr ⟨logged.formed, trivial⟩, told, ?_⟩
    simp [idle, Market.Stranded, Market.tells, unlisted]
  · have accepted := mirrors.accepts asks listed
    have step := entry.ledger.step_of_call request
    have consistent := mirrors.consistent_ledgerOf call.symbol
    have uncrossed : ∀ order, request = .addOrder order →
        (callLedger entry.ledger request).1.accept.accepted = true →
        Ledger.wouldCross entry.ledger.book order = false := by
      rintro order rfl accepts_
      rw [← accepted] at accepts_
      cases call with
      | submitOrder symbol other =>
        cases asks
        rw [← mirrors.crossesBook listed]
        exact clear accepts_
      | _ => cases asks
    rw [listed] at told consistent
    obtain ⟨formed, after, stranded⟩ := told.step logged.formed consistent step uncrossed
    simp only [next, events]
    refine ⟨formed, after, ?_⟩
    intro id
    refine (stranded id).trans (or_congr ?_ ?_)
    · rw [Market.Stranded, listed]
      rfl
    · simp only [discards_iff, accepted, asks, mirrors.restingOn, listed]
      constructor
      · rintro ⟨yes, order, rfl, rfl, unplaced⟩
        exact ⟨⟨yes, order, rfl, unplaced⟩, rfl⟩
      · rintro ⟨⟨yes, order, same, unplaced⟩, own⟩
        obtain rfl := Option.some.inj same
        exact ⟨yes, order, rfl, (Option.some.inj own).symm, unplaced⟩

/-- A call keeps the log in good order and true, and strands an order only when it throws its
remainder away. -/
theorem Mirrors.logged_call (mirrors : registry.Mirrors market) (logged : market.Logged)
    {call : RegistryCall} (clear : registry.SubmitsClear call) :
    (callMarket market call).2.Logged ∧
      ∀ symbol id, (callMarket market call).2.Stranded symbol id ↔
        market.Stranded symbol id ∨ registry.Discards call ∧ call.symbol = symbol ∧
          call.request.bind ManagerCall.entry = some id := by
  have moves := (market.callMarket_moves call).2
  obtain ⟨formed, told, stranded⟩ := mirrors.told_call logged clear
  have log : (callMarket market call).2.payloads = market.payloads ++
      (callListing (market.listings call.symbol) call).2.2 := moves.log
  have own : (callMarket market call).2.listings call.symbol =
      (callListing (market.listings call.symbol) call).2.1 := by
    rw [moves.listings, Function.update_self]
  have others (symbol : Symbol) (apart : symbol ≠ call.symbol) :
      (callMarket market call).2.listings symbol = market.listings symbol ∧
        (callMarket market call).2.tells symbol = market.tells symbol := by
    refine ⟨?_, funext fun id => ?_⟩
    · rw [moves.listings, Function.update_of_ne apart]
    · rw [Market.tells, log, viewsOf_append]
      exact Views.foldl_step_other _
        (fun event member => (moves.named event member).trans_ne apart.symm) id
  constructor
  · constructor
    · rw [log]
      exact formed
    · intro symbol
      by_cases here : symbol = call.symbol
      · rw [here, own, Market.tells, log]
        exact told
      · rw [(others symbol here).1, (others symbol here).2]
        exact logged.told symbol
  · intro symbol id
    by_cases here : symbol = call.symbol
    · subst here
      rw [Market.Stranded, own, Market.tells, log, stranded id]
      simp
    · rw [Market.Stranded, (others symbol here).1, (others symbol here).2]
      simp [Market.Stranded, Ne.symm here]

end InstrumentRegistry

/-- The trades that the calls for a symbol returned. -/
def tradesDuring (symbol : Symbol) (calls : List RegistryCall) (answers : List RegistryAnswer) :
    List Trade :=
  (outputsOf (fun call => call.symbol == symbol) calls answers).flatMap RegistryAnswer.tradesOf

/-- Calls for other symbols return no trade of a symbol. -/
theorem tradesDuring_of_ne {symbol : Symbol} {calls : List RegistryCall}
    (apart : ∀ call ∈ calls, call.symbol ≠ symbol) (answers : List RegistryAnswer) :
    tradesDuring symbol calls answers = [] := by
  have none_ : (calls.zip answers).filter (fun pair => pair.1.symbol == symbol) = [] := by
    rw [List.filter_eq_nil_iff]
    intro pair member
    simpa using apart pair.1 (List.of_mem_zip member).1
  rw [tradesDuring, outputsOf, none_]
  rfl

namespace Market

/-- A call for a symbol logs the trades that it returns. -/
theorem trades_call (market : Market) (call : RegistryCall) (symbol : Symbol) :
    tradesOn symbol (callMarket market call).2.payloads = tradesOn symbol market.payloads ++
      if call.symbol = symbol then (callMarket market call).1.tradesOf else [] := by
  obtain ⟨answer, moves⟩ := market.callMarket_moves call
  have log : (callMarket market call).2.payloads = market.payloads ++
      (callListing (market.listings call.symbol) call).2.2 := moves.log
  rw [log, tradesOn_append, answer]
  congr 1
  by_cases here : call.symbol = symbol
  · subst here
    rw [if_pos rfl]
    rcases callListing_cases (market.listings call.symbol) call with
      ⟨_, nothing, _, silent⟩ | ⟨request, _, _, nothing, _, refused⟩ |
      ⟨request, entry, _, _, returned, _, events⟩
    · rw [nothing, silent]
      rfl
    · rw [nothing, refused]
      rfl
    · rw [returned, events, tradesOn_eventsOf]
  · rw [if_neg here]
    exact tradesOn_of_ne (fun event member => (moves.named event member).trans_ne here)

/-- A run logs the trades that its calls return. -/
theorem trades_run (market : Market) (calls : List RegistryCall) (symbol : Symbol) :
    tradesOn symbol (run callMarket market calls).2.payloads = tradesOn symbol market.payloads ++
      tradesDuring symbol calls (run callMarket market calls).1 := by
  induction calls generalizing market with
  | nil => simp [run, tradesDuring, outputsOf]
  | cons call rest ih =>
    have later := ih (callMarket market call).2
    simp only [tradesDuring, outputsOf] at later ⊢
    rw [run, later, market.trades_call]
    by_cases here : call.symbol = symbol
    · simp [here]
    · simp [here]

end Market

namespace InstrumentRegistry

/-- What a registry logged. -/
def payloads (registry : InstrumentRegistry) : List EventPayload :=
  registry.eventLog.map Event.payload

/-- What the log of a registry says is what the log of its market says. -/
theorem Mirrors.tells {registry : InstrumentRegistry} {market : Market}
    (mirrors : registry.Mirrors market) (symbol : Symbol) :
    viewsOf registry.payloads symbol = market.tells symbol := by
  rw [payloads, mirrors.log]
  rfl

/-- A registry with a market whose log is in good order and true. -/
def Truthful (registry : InstrumentRegistry) : Prop :=
  ∃ market, registry.Mirrors market ∧ market.Logged

/-- A new registry has an empty log. -/
theorem truthful_init (allocator : SlabAllocator) (backend : MatcherBackend) :
    (init allocator backend).Truthful :=
  ⟨Market.empty, mirrors_init allocator backend, Market.logged_empty⟩

/-- Calls keep the log in good order and true. -/
theorem Truthful.call {registry : InstrumentRegistry} {call : RegistryCall}
    (truthful : registry.Truthful) (clear : registry.SubmitsClear call) :
    (callRegistry registry call).2.Truthful := by
  obtain ⟨market, mirrors, logged⟩ := truthful
  exact ⟨_, (mirrors.call call).2, (mirrors.logged_call logged clear).1⟩

/-- An order is known to the log. -/
def Knows (symbol : Symbol) (id : OrderId) (registry : InstrumentRegistry) : Prop :=
  (viewsOf registry.payloads symbol id).isSome = true

/-- A call adds its events to the log. -/
theorem Mirrors.payloads_call {registry : InstrumentRegistry} {market : Market}
    (mirrors : registry.Mirrors market) (call : RegistryCall) :
    (callRegistry registry call).2.payloads = registry.payloads ++
      (callListing (market.listings call.symbol) call).2.2 := by
  have moves := (market.callMarket_moves call).2
  rw [payloads, (mirrors.call call).2.log, payloads, mirrors.log]
  exact moves.log

/-- An order that is known stays known. -/
theorem Truthful.knows_call {registry : InstrumentRegistry} (truthful : registry.Truthful)
    {symbol : Symbol} {id : OrderId} (knows : Knows symbol id registry) (call : RegistryCall) :
    Knows symbol id (callRegistry registry call).2 := by
  obtain ⟨market, mirrors, _⟩ := truthful
  have lasts (views : Views) (known : (views symbol id).isSome = true)
      (events : List EventPayload) : (events.foldl Views.step views symbol id).isSome = true := by
    induction events generalizing views with
    | nil => exact known
    | cons event rest ih => exact ih _ (Views.isSome_step known event)
  rw [Knows, mirrors.payloads_call call, viewsOf_append]
  exact lasts _ knows _

/-- An order that is entered is known. -/
theorem Truthful.knows_entered {registry : InstrumentRegistry} (truthful : registry.Truthful)
    {symbol : Symbol} {id : OrderId} {call : RegistryCall} (clear : registry.SubmitsClear call)
    (enters : Enters symbol id registry call) :
    Knows symbol id (callRegistry registry call).2 := by
  obtain ⟨market, mirrors, logged⟩ := truthful
  obtain ⟨rfl, entry, accepted⟩ := enters
  have after := (mirrors.call call).2
  have told := (mirrors.logged_call logged clear).1.told call.symbol
  rw [Knows, after.tells, told.known]
  have moves := (market.callMarket_moves call).2
  rw [moves.listings, Function.update_self]
  rcases callListing_cases (market.listings call.symbol) call with
    ⟨asks, _, _, _⟩ | ⟨request, _, unlisted, _, _, _⟩ | ⟨request, listing, asks, listed, _, next, _⟩
  · rw [asks] at entry
    cases entry
  · rw [mirrors.accepts_unlisted unlisted] at accepted
    cases accepted
  · rw [next]
    rw [asks] at entry
    rw [mirrors.accepts asks listed] at accepted
    exact ((listing.ledger.step_of_call request).mem_known id).mpr (.inr ⟨entry, accepted⟩)

end InstrumentRegistry

end Titan
