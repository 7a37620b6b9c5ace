import TitanEngine.Bench.Scenario
import TitanEngine.Exchange.Lifecycle
import TitanEngine.MarketData.RegistryLog

/-!
# Scenarios replayed

The benchmarks replay a generated scenario on a registry that lists its symbols. No order is
rejected there, and a cancel is rejected only when what it names has been filled: the numbers they
measure are those of orders that are entered, traded and cancelled.
-/

namespace Titan

open Library Std OrderManager

namespace ScenarioOp

/-- The order of an operation; what it does not say has its default. -/
def order (op : ScenarioOp) : Order :=
  { id := op.orderId, side := op.side, price := op.price, quantity := op.quantity }

/-- `symbols[op.symbolIndex % symbols.size()]`. -/
def symbolIn (symbols : List Symbol) (op : ScenarioOp) : Symbol :=
  symbols.getD (op.symbolIndex.toNat % symbols.length) []

/-- One pass of `replay`. -/
def call (symbols : List Symbol) (op : ScenarioOp) : RegistryCall :=
  match op.type with
  | .add => .submitOrder (op.symbolIn symbols) op.order
  | .cancel => .cancelOrder (op.symbolIn symbols) op.orderId
  | .match => .matchOrder (op.symbolIn symbols) op.order
  | .snapshot => .snapshot (op.symbolIn symbols) 10

/-- The operation enters an order. -/
def Enters (op : ScenarioOp) : Prop := op.type = .add ∨ op.type = .match

/-- The symbol is one of those replayed. -/
theorem symbolIn_mem {symbols : List Symbol} (some_ : symbols ≠ []) (op : ScenarioOp) :
    op.symbolIn symbols ∈ symbols := by
  have inside : op.symbolIndex.toNat % symbols.length < symbols.length :=
    Nat.mod_lt _ (List.length_pos_iff.mpr some_)
  rw [symbolIn, List.getD_eq_getElem?_getD, List.getElem?_eq_getElem inside, Option.getD_some]
  exact List.getElem_mem inside

/-- The call is about the symbol. -/
@[simp] theorem symbol_call (symbols : List Symbol) (op : ScenarioOp) :
    (op.call symbols).symbol = op.symbolIn symbols := by
  unfold call
  cases op.type <;> rfl

end ScenarioOp

namespace Ledger

variable {ledger : Ledger} {earlier : List ScenarioOp} {op : ScenarioOp}

/-- What is left of an anonymous good-till-cancelled limit rests. -/
theorem rests_anonymous (sound : ledger.book.Sound) {order : Order} (limit : order.type = .limit)
    (lasting : order.tif = .gtc) (anonymous : order.accountId = 0)
    (left : (ledger.fillOf order).left ≠ 0) : ledger.rests order = true := by
  have stops : order.stoppedBy = fun maker => !crosses order.side order.price maker.price := by
    funext maker
    simp [Order.stoppedBy, Order.matchPrice, limit, anonymous]
  have rest : (ledger.fillOf order).rest = _ := sweep_rest_of_left left
  have may : order.mayRest = true := by simp [Order.mayRest, limit, lasting]
  have clear : wouldCross (ledger.swept order) order = false := by
    rw [wouldCross, swept, Book.side_setSide_same, rest, List.any_eq_false]
    intro other member
    rw [stops] at member
    rw [sound.dropWhile_crosses order.side order.price member]
    exact Bool.false_ne_true
  rw [rests, may, decide_eq_true left, clear]
  rfl

/-- What one operation does to the ledger of its symbol, and what is logged of it. -/
structure Replays (op : ScenarioOp) (symbol : Symbol) (ledger next : Ledger)
    (events : List EventPayload) : Prop where
  /-- The records still agree. -/
  life : next.Lifecycle
  /-- It accepts what it enters. -/
  known : ∀ id, id ∈ next.known ↔ id ∈ ledger.known ∨ op.Enters ∧ id = op.orderId
  /-- It cancels nothing but what it names. -/
  cancelled : ∀ (id : OrderId) (record : Order), next.records[id]? = some record →
    record.status = .cancelled →
    (∃ before : Order, ledger.records[id]? = some before ∧ before.status = .cancelled) ∨
      op.type = .cancel ∧ op.orderId = id
  /-- What is filled stays so. -/
  filled : ∀ (id : OrderId) (record : Order), ledger.records[id]? = some record →
    record.status = .filled →
    next.records[id]? = some record
  /-- It is rejected only where it names what is filled. -/
  rejected : ∀ other id reason, .orderRejected other id reason ∈ events →
    other = symbol ∧ reason = .unknownOrder ∧
      ∃ record : Order, next.records[id]? = some record ∧ record.status = .filled

/-- An operation that asks nothing of the ledger. -/
theorem replays_nothing (life : ledger.Lifecycle) (symbol : Symbol) (idle : ¬ op.Enters) :
    Replays op symbol ledger ledger [] where
  life := life
  known id := by simp [idle]
  cancelled id record found done := .inl ⟨record, found, done⟩
  filled id record found _ := found
  rejected other id reason member := by cases member

/-- An accepted request logs no rejection. -/
theorem not_rejected {symbol other : Symbol} {request : ManagerCall} {result : MatchResult}
    {id : OrderId} {reason : RejectReason} (accepted : result.accept.accepted = true) :
    .orderRejected other id reason ∉ eventsOf symbol request result := by
  rw [eventsOf, if_pos accepted]
  intro member
  rcases List.mem_cons.mp member with first | traded
  · cases request <;> cases first
  · obtain ⟨trade, _, same⟩ := List.mem_map.mp traded
    cases same

/-- A drawn order with a new id is valid. -/
theorem validateNewOrder_drawn (price : 90 ≤ op.price) (quantity : 1 ≤ op.quantity)
    (unknown : op.orderId ∉ ledger.known) :
    validateNewOrder op.order ledger.known = .none := by
  have some_ : op.quantity ≠ 0 := by
    intro zero
    rw [zero] at quantity
    exact absurd quantity (by decide)
  have priced : op.price ≠ 0 := by
    intro zero
    rw [zero] at price
    exact absurd price (by decide)
  simp [validateNewOrder, ScenarioOp.order, some_, priced, unknown]

/-- A drawn order with a new id is entered. -/
theorem replays_enter (consistent : ledger.Consistent) (life : ledger.Lifecycle) {symbol : Symbol}
    (enters : op.Enters) {request : ManagerCall}
    (asks : request = .addOrder op.order ∨ request = .matchOrder op.order)
    (valid : validateNewOrder op.order ledger.known = .none) :
    Replays op symbol ledger (callLedger ledger request).2
      (eventsOf symbol request (callLedger ledger request).1) := by
  have plain : op.order.isMarketOrIoc = false := by
    simp [ScenarioOp.order, Order.isMarketOrIoc]
  have unknown := (validateNewOrder_none valid).2.2
  have accepted : (callLedger ledger request).1.accept.accepted = true := by
    rcases asks with rfl | rfl
    · simp [callLedger, addOrder, plain, valid, AcceptResult.ok]
    · simp [callLedger, matchOrder, valid, AcceptResult.ok]
  have entered : (callLedger ledger request).2 = ledger.enter op.order := by
    rcases asks with rfl | rfl
    · simp [callLedger, addOrder, plain, valid]
    · simp [callLedger, matchOrder, valid]
  have entry : request.entry = some op.orderId := by
    rcases asks with rfl | rfl <;> rfl
  have step := ledger.step_of_call request
  constructor
  · exact step.lifecycle life consistent
  · intro id
    rw [step.mem_known, entry, Option.some_inj]
    simp [accepted, enters, eq_comm]
  · intro id record found done
    rw [entered] at found
    by_cases own : id = op.order.id
    · subst own
      rw [getElem?_enter_self] at found
      obtain rfl := Option.some.inj found
      -- what is left rests, so the order is not cancelled
      simp only [statusAfter] at done
      split_ifs at done with gone stuck
      rw [rests_anonymous consistent.sound rfl rfl rfl gone] at stuck
      cases stuck
    · refine .inl ?_
      cases consistent.enter_effect op.order own with
      | untouched _ kept _ =>
        rw [kept] at found
        exact ⟨record, found, done⟩
      | traded _ _ _ settled _ _ _ =>
        rw [settled] at found
        obtain rfl := Option.some.inj found
        simp only [Order.settled] at done
        split_ifs at done
  · intro id record found done
    exact (step.frozen life consistent found (.inl done)).1
  · intro other id reason member
    exact absurd member (not_rejected accepted)

/-- A cancel of what was added and not cancelled cancels it, unless it is filled. -/
theorem replays_cancel (consistent : ledger.Consistent) (life : ledger.Lifecycle) {symbol : Symbol}
    (cancels : op.type = .cancel) (known : op.orderId ∈ ledger.known)
    (open_ : ∀ record, ledger.records[op.orderId]? = some record → record.status ≠ .cancelled) :
    Replays op symbol ledger (callLedger ledger (.cancelOrder op.orderId)).2
      (eventsOf symbol (.cancelOrder op.orderId)
        (callLedger ledger (.cancelOrder op.orderId)).1) := by
  have step := ledger.step_of_call (.cancelOrder op.orderId)
  have idle : ¬ op.Enters := by simp [ScenarioOp.Enters, cancels]
  constructor
  · exact step.lifecycle life consistent
  · intro id
    rw [step.mem_known]
    simp [ManagerCall.entry, idle]
  · intro id record found done
    simp only [callLedger, cancelOrder] at found
    split_ifs at found with held
    · rw [ExtTreeMap.getElem?_insert] at found
      split_ifs at found with own
      · exact .inr ⟨cancels, Std.compare_eq_iff_eq.mp own⟩
      · exact .inl ⟨record, found, done⟩
    · exact .inl ⟨record, found, done⟩
  · intro id record found done
    exact (step.frozen life consistent found (.inl done)).1
  · intro other id reason member
    cases held : ledger.holds op.orderId with
    | true =>
      have accepted : (callLedger ledger (.cancelOrder op.orderId)).1.accept.accepted = true := by
        simp [callLedger, cancelOrder, held, AcceptResult.ok]
      exact absurd member (not_rejected accepted)
    | false =>
      obtain ⟨record, found⟩ := Option.isSome_iff_exists.mp ((life.known op.orderId).mp known)
      have dead : ¬ record.status.Live := by
        rw [← life.live op.orderId record found, held]
        exact Bool.false_ne_true
      have filled : record.status = .filled := by
        have proper := life.proper op.orderId record found
        have kept := open_ record found
        cases status : record.status with
        | new => exact absurd (.inl status) dead
        | partiallyFilled => exact absurd (.inr status) dead
        | filled => rfl
        | cancelled => exact absurd status kept
        | rejected => exact absurd status proper
      simp only [callLedger, cancelOrder, held, eventsOf, AcceptResult.reject, List.map_nil,
        Bool.false_eq_true, ↓reduceIte, List.mem_singleton, EventPayload.orderRejected.injEq]
        at member ⊢
      obtain ⟨rfl, rfl, rfl⟩ := member
      exact ⟨rfl, rfl, record, found, filled⟩

end Ledger

namespace Market

variable {symbols : List Symbol} {market : Market} {earlier : List ScenarioOp} {op : ScenarioOp}

/-- What a market keeps after some operations of a scenario. -/
structure Replayed (symbols : List Symbol) (market : Market) (earlier : List ScenarioOp) :
    Prop where
  /-- The symbols are listed. -/
  listed : ∀ symbol ∈ symbols, market.listings symbol ≠ none
  /-- The records of each symbol agree. -/
  life : ∀ symbol, (ledgerOf (market.listings symbol)).Lifecycle
  /-- Only ids of the operations were accepted. -/
  known : ∀ symbol, ∀ id ∈ (ledgerOf (market.listings symbol)).known,
    ∃ op ∈ earlier, op.orderId = id
  /-- What was added was accepted. -/
  added : ∀ op ∈ earlier, op.type = .add →
    op.orderId ∈ (ledgerOf (market.listings (op.symbolIn symbols))).known
  /-- What is cancelled was named by a cancel. -/
  cancelled : ∀ (symbol : Symbol) (id : OrderId) (record : Order),
    (ledgerOf (market.listings symbol)).records[id]? = some record → record.status = .cancelled →
      ∃ op ∈ earlier, op.type = .cancel ∧ op.orderId = id
  /-- What was rejected is filled. -/
  rejected : ∀ (symbol : Symbol) (id : OrderId) (reason : RejectReason),
    .orderRejected symbol id reason ∈ market.payloads → reason = .unknownOrder ∧
      ∃ record : Order, (ledgerOf (market.listings symbol)).records[id]? = some record ∧
        record.status = .filled

/-- The ledger of a listed symbol takes an operation. -/
theorem Replayed.replays (replayed : Replayed symbols market earlier) (some_ : symbols ≠ [])
    (consistent : (ledgerOf (market.listings (op.symbolIn symbols))).Consistent) {count : UInt32}
    (follows : op.Follows count earlier) :
    let outcome := callListing (market.listings (op.symbolIn symbols)) (op.call symbols)
    outcome.2.1 ≠ none ∧
      Ledger.Replays op (op.symbolIn symbols) (ledgerOf (market.listings (op.symbolIn symbols)))
        (ledgerOf outcome.2.1) outcome.2.2 := by
  have life := replayed.life (op.symbolIn symbols)
  have entering (enters : op.type ≠ .cancel) : validateNewOrder op.order
      (ledgerOf (market.listings (op.symbolIn symbols))).known = .none := by
    refine Ledger.validateNewOrder_drawn follows.price.1 follows.quantity.1 ?_
    intro known
    obtain ⟨other, member, same⟩ := replayed.known _ _ known
    exact follows.fresh enters other member same
  obtain ⟨listing, listed⟩ := Option.ne_none_iff_exists'.mp
    (replayed.listed _ (ScenarioOp.symbolIn_mem some_ op))
  rw [listed] at consistent life entering ⊢
  unfold ScenarioOp.call
  cases type : op.type with
  | add =>
    refine ⟨Option.some_ne_none _, ?_⟩
    exact Ledger.replays_enter consistent life (.inl type) (.inl rfl) (entering (by simp [type]))
  | «match» =>
    refine ⟨Option.some_ne_none _, ?_⟩
    exact Ledger.replays_enter consistent life (.inr type) (.inr rfl) (entering (by simp [type]))
  | snapshot =>
    refine ⟨Option.some_ne_none _, ?_⟩
    exact Ledger.replays_nothing life _ (by simp [ScenarioOp.Enters, type])
  | cancel =>
    refine ⟨Option.some_ne_none _, ?_⟩
    obtain ⟨added, member, adds, same, names⟩ := follows.added type
    have known := replayed.added added member adds
    have here : added.symbolIn symbols = op.symbolIn symbols := by
      rw [ScenarioOp.symbolIn, same, ScenarioOp.symbolIn]
    rw [here, names, listed] at known
    refine Ledger.replays_cancel consistent life type known ?_
    intro record found done
    obtain ⟨other, before, cancels, again⟩ := replayed.cancelled (op.symbolIn symbols) op.orderId
      record (by rw [listed]; exact found) done
    exact follows.once type other before cancels again

/-- An operation that may follow the earlier ones keeps what the market keeps. -/
theorem Replayed.step (replayed : Replayed symbols market earlier) (some_ : symbols ≠ [])
    (consistent : (ledgerOf (market.listings (op.symbolIn symbols))).Consistent) {count : UInt32}
    (follows : op.Follows count earlier) :
    Replayed symbols (callMarket market (op.call symbols)).2 (earlier ++ [op]) := by
  obtain ⟨stays, takes⟩ := replayed.replays some_ consistent follows
  have moves := (market.callMarket_moves (op.call symbols)).2
  rw [ScenarioOp.symbol_call] at moves
  -- what is true of the symbol's own ledger and of every other one is true of all
  have everywhere {P : Symbol → Option Listing → Prop}
      (own : P (op.symbolIn symbols)
        (callListing (market.listings (op.symbolIn symbols)) (op.call symbols)).2.1)
      (others : ∀ symbol, symbol ≠ op.symbolIn symbols → P symbol (market.listings symbol))
      (symbol : Symbol) : P symbol ((callMarket market (op.call symbols)).2.listings symbol) := by
    rw [moves.listings]
    by_cases here : symbol = op.symbolIn symbols
    · subst here
      rw [Function.update_self]
      exact own
    · rw [Function.update_of_ne here]
      exact others symbol here
  constructor
  · intro symbol
    exact everywhere (P := fun symbol listing => symbol ∈ symbols → listing ≠ none)
      (fun _ => stays) (fun symbol _ => replayed.listed symbol) symbol
  · exact everywhere (P := fun _ listing => (ledgerOf listing).Lifecycle) takes.life
      (fun symbol _ => replayed.life symbol)
  · refine everywhere (P := fun _ listing => ∀ id ∈ (ledgerOf listing).known,
      ∃ other ∈ earlier ++ [op], other.orderId = id) ?_ ?_
    · intro id listed
      rcases (takes.known id).mp listed with before | ⟨_, rfl⟩
      · obtain ⟨other, member, same⟩ := replayed.known _ id before
        exact ⟨other, List.mem_append_left _ member, same⟩
      · exact ⟨op, List.mem_append_right _ (List.mem_singleton_self op), rfl⟩
    · intro symbol _ id listed
      obtain ⟨other, member, same⟩ := replayed.known symbol id listed
      exact ⟨other, List.mem_append_left _ member, same⟩
  · intro other member adds
    rcases List.mem_append.mp member with before | this
    · refine everywhere (P := fun symbol listing => symbol = other.symbolIn symbols →
        other.orderId ∈ (ledgerOf listing).known) ?_ ?_ _ rfl
      · intro here
        have known := replayed.added other before adds
        rw [← here] at known
        exact (takes.known _).mpr (.inl known)
      · rintro symbol _ rfl
        exact replayed.added other before adds
    · obtain rfl := List.mem_singleton.mp this
      refine everywhere (P := fun symbol listing => symbol = other.symbolIn symbols →
        other.orderId ∈ (ledgerOf listing).known) ?_ ?_ _ rfl
      · exact fun _ => (takes.known _).mpr (.inr ⟨.inl adds, rfl⟩)
      · exact fun symbol apart here => absurd here apart
  · refine everywhere (P := fun _ listing => ∀ (id : OrderId) (record : Order),
      (ledgerOf listing).records[id]? = some record → record.status = .cancelled →
        ∃ other ∈ earlier ++ [op], other.type = .cancel ∧ other.orderId = id) ?_ ?_
    · intro id record found done
      rcases takes.cancelled id record found done with ⟨before, had, was⟩ | ⟨cancels, names⟩
      · obtain ⟨other, member, same⟩ := replayed.cancelled _ id before had was
        exact ⟨other, List.mem_append_left _ member, same⟩
      · exact ⟨op, List.mem_append_right _ (List.mem_singleton_self op), cancels, names⟩
    · intro symbol _ id record found done
      obtain ⟨other, member, same⟩ := replayed.cancelled symbol id record found done
      exact ⟨other, List.mem_append_left _ member, same⟩
  · intro symbol id reason logged
    have events : (callMarket market (op.call symbols)).2.payloads = market.payloads ++ _ :=
      moves.log
    rw [events] at logged
    rcases List.mem_append.mp logged with before | new
    · obtain ⟨unknown, was⟩ := replayed.rejected symbol id reason before
      refine ⟨unknown, everywhere (P := fun other listing => other = symbol →
        ∃ record : Order, (ledgerOf listing).records[id]? = some record ∧
          record.status = .filled) ?_ ?_ symbol rfl⟩
      · rintro rfl
        obtain ⟨record, found, done⟩ := was
        exact ⟨record, takes.filled id record found done, done⟩
      · rintro other _ rfl
        exact was
    · obtain ⟨here, unknown, filled⟩ := takes.rejected symbol id reason new
      refine ⟨unknown, everywhere (P := fun other listing => other = symbol →
        ∃ record : Order, (ledgerOf listing).records[id]? = some record ∧
          record.status = .filled) ?_ ?_ symbol rfl⟩
      · exact fun _ => filled
      · exact fun other apart same => absurd (same.trans here) apart

/-- Listing symbols lists them, and nothing is entered or logged. -/
theorem list_all (symbols : List Symbol) {market : Market} (silent : market.payloads = [])
    (bare : ∀ symbol, ledgerOf (market.listings symbol) = Ledger.empty) :
    let listed := (run callMarket market (symbols.map .createInstrument)).2
    listed.payloads = [] ∧ (∀ symbol, ledgerOf (listed.listings symbol) = Ledger.empty) ∧
      ∀ symbol, market.listings symbol ≠ none ∨ symbol ∈ symbols →
        listed.listings symbol ≠ none := by
  induction symbols generalizing market with
  | nil =>
    refine ⟨silent, bare, ?_⟩
    rintro symbol (before | member)
    · exact before
    · cases member
  | cons first rest ih =>
    have payloads : (market.list first).payloads = [] := by
      unfold list
      cases market.listings first <;> exact silent
    cases found : market.listings first with
    | some listing =>
      have same := list_listed found
      obtain ⟨quiet, empty_, all⟩ := ih payloads (by rw [same]; exact bare)
      refine ⟨quiet, empty_, ?_⟩
      rintro symbol (before | member)
      · exact all symbol (.inl (by rw [same]; exact before))
      · rcases List.mem_cons.mp member with rfl | later
        · exact all _ (.inl (by rw [same, found]; exact Option.some_ne_none _))
        · exact all symbol (.inr later)
    | none =>
      have listings := listings_list found
      have ledgers : ∀ symbol, ledgerOf ((market.list first).listings symbol) = Ledger.empty := by
        intro symbol
        rw [listings]
        by_cases here : symbol = first
        · subst here
          rw [Function.update_self]
          rfl
        · rw [Function.update_of_ne here]
          exact bare symbol
      obtain ⟨quiet, empty_, all⟩ := ih payloads ledgers
      refine ⟨quiet, empty_, ?_⟩
      intro symbol asked
      by_cases here : symbol = first
      · refine all symbol (.inl ?_)
        rw [listings, here, Function.update_self]
        exact Option.some_ne_none _
      · rcases asked with before | member
        · refine all symbol (.inl ?_)
          rw [listings, Function.update_of_ne here]
          exact before
        · exact all symbol (.inr ((List.mem_cons.mp member).resolve_left here))

/-- A market that lists the symbols is ready for a scenario. -/
theorem replayed_start (symbols : List Symbol) :
    Replayed symbols (run callMarket empty (symbols.map .createInstrument)).2 [] := by
  have quiet : empty.payloads = [] := rfl
  obtain ⟨silent, bare, all⟩ := list_all symbols quiet (fun _ => rfl)
  constructor
  · exact fun symbol member => all symbol (.inr member)
  · intro symbol
    rw [bare]
    exact Ledger.lifecycle_empty
  · intro symbol id known
    rw [bare] at known
    simp [Ledger.empty] at known
  · intro op member
    cases member
  · intro symbol id record found
    rw [bare] at found
    simp [Ledger.empty] at found
  · intro symbol id reason logged
    rw [silent] at logged
    cases logged

/-- A scenario keeps what the market keeps. -/
theorem Replayed.run {registry : InstrumentRegistry} (mirrors : registry.Mirrors market)
    (replayed : Replayed symbols market earlier) (some_ : symbols ≠ []) {count : UInt32}
    {ops : List ScenarioOp} (follows : Grows (ScenarioOp.Follows count) (earlier ++ ops)) :
    Replayed symbols (Library.run callMarket market (ops.map (ScenarioOp.call symbols))).2
      (earlier ++ ops) := by
  induction ops generalizing registry market earlier with
  | nil =>
    rw [List.append_nil]
    exact replayed
  | cons op ops ih =>
    have split : earlier ++ op :: ops = (earlier ++ [op]) ++ ops := by simp
    rw [split] at follows ⊢
    have first : Grows (ScenarioOp.Follows count) (earlier ++ [op]) :=
      (admissible_append.mp follows).1
    have consistent := mirrors.consistent_ledgerOf (op.symbolIn symbols)
    exact ih (mirrors.call _).2
      (replayed.step some_ consistent (grows_concat.mp first).2) follows

end Market

/-- Operations that may follow one another are rejected only where they name what is filled. -/
theorem InstrumentRegistry.rejects_filled (allocator : SlabAllocator) (backend : MatcherBackend)
    {symbols : List Symbol} (some_ : symbols ≠ []) {count : UInt32} {ops : List ScenarioOp}
    (follows : Grows (ScenarioOp.Follows count) ops) :
    let registry := (run callRegistry (init allocator backend)
      (symbols.map .createInstrument ++ ops.map (ScenarioOp.call symbols))).2
    ∀ symbol id reason, .orderRejected symbol id reason ∈ registry.payloads →
      reason = .unknownOrder ∧
        ∃ record, registry.findOrder symbol id = some record ∧ record.status = .filled := by
  intro registry symbol id reason logged
  have ready := ((mirrors_init allocator backend).run (symbols.map .createInstrument)).2
  have mirrors := (ready.run (ops.map (ScenarioOp.call symbols))).2
  have replayed := (Market.replayed_start symbols).run ready some_
    (show Grows (ScenarioOp.Follows count) ([] ++ ops) from follows)
  have whole : registry = (run callRegistry (run callRegistry (init allocator backend)
      (symbols.map .createInstrument)).2 (ops.map (ScenarioOp.call symbols))).2 := by
    show (run _ _ _).2 = _
    rw [run_append]
  rw [whole, payloads, mirrors.log] at logged
  obtain ⟨unknown, record, found, done⟩ := replayed.rejected symbol id reason logged
  refine ⟨unknown, record, ?_, done⟩
  rw [whole, mirrors.findOrder, Market.findOrder]
  unfold ledgerOf at found
  cases listed : (run callMarket (run callMarket Market.empty
      (symbols.map .createInstrument)).2 (ops.map (ScenarioOp.call symbols))).2.listings symbol with
  | none =>
    rw [listed] at found
    simp [Ledger.empty] at found
  | some listing =>
    rw [listed] at found
    exact found

namespace Scenario

/-- Replay a generated scenario on a new registry over either matcher: no order is rejected, and a
cancel that is rejected names an order that has been filled. -/
theorem replay_rejects_filled {W Rng : Type} [Zero W] [Add W] [Mul W] [LT W] [DecidableLT W]
    (scenario : Scenario W) (source : RandomSource W Rng) (seed : UInt32)
    (allocator : SlabAllocator) (backend : MatcherBackend) (symbols : List Symbol)
    (some_ : symbols ≠ []) :
    let registry := (run callRegistry (InstrumentRegistry.init allocator backend)
      (symbols.map .createInstrument ++
        (scenario.generateOrders source seed).map (ScenarioOp.call symbols))).2
    ∀ symbol id reason, .orderRejected symbol id reason ∈ registry.payloads →
      reason = .unknownOrder ∧
        ∃ record, registry.findOrder symbol id = some record ∧ record.status = .filled :=
  InstrumentRegistry.rejects_filled allocator backend some_
    (scenario.follows_generateOrders source seed)

/-- The rest of a division, moved to where a range begins. -/
theorem rest_range (number low span : UInt64) (some_ : 0 < span.toNat)
    (fits : low.toNat + span.toNat < 2 ^ 64) :
    low.toNat ≤ (low + number % span).toNat ∧
      (low + number % span).toNat < low.toNat + span.toNat := by
  have small : (number % span).toNat < span.toNat := by
    rw [UInt64.toNat_mod]
    exact Nat.mod_lt _ some_
  rw [UInt64.toNat_add, Nat.mod_eq_of_lt (by omega)]
  omega

/-- Numbers with three decimals. -/
structure Thousandths where
  /-- A thousand times the number. -/
  number : Nat

instance : Zero Thousandths := ⟨⟨0⟩⟩

instance : Add Thousandths := ⟨fun left right => ⟨left.number + right.number⟩⟩

instance : Mul Thousandths := ⟨fun left right => ⟨left.number * right.number / 1000⟩⟩

instance : LT Thousandths := ⟨fun left right => left.number < right.number⟩

instance : DecidableLT Thousandths := fun left right => Nat.decLt left.number right.number

/-- A linear congruence, with the rest of a division for each distribution. -/
def congruence : RandomSource Thousandths UInt32 where
  seeded seed := seed
  next rng := (rng / 65536, rng * 1664525 + 1013904223)
  unit rng := (⟨rng.toNat / 65536 % 1000⟩, rng * 1664525 + 1013904223)
  priceDist rng := (90 + (rng / 65536).toUInt64 % 21, rng * 1664525 + 1013904223)
  qtyDist rng := (1 + (rng / 65536).toUInt64 % 100, rng * 1664525 + 1013904223)
  price_range rng := by
    obtain ⟨low, high⟩ := rest_range (rng / 65536).toUInt64 90 21 (by decide) (by decide)
    exact ⟨UInt64.le_iff_toNat_le.mpr low, UInt64.le_iff_toNat_le.mpr (Nat.le_of_lt_succ high)⟩
  qty_range rng := by
    obtain ⟨low, high⟩ := rest_range (rng / 65536).toUInt64 1 100 (by decide) (by decide)
    exact ⟨UInt64.le_iff_toNat_le.mpr low, UInt64.le_iff_toNat_le.mpr (Nat.le_of_lt_succ high)⟩

/-- As many orders added as cancelled and matched together. -/
def mixed : Scenario Thousandths where
  symbolCount := 1
  orderCount := 4
  addWeight := ⟨500⟩
  cancelWeight := ⟨250⟩
  matchWeight := ⟨250⟩
  snapshotWeight := ⟨0⟩

/-- With one seed the second order fills against the first, and its cancel comes too late. -/
theorem replay_rejects_filled_late :
    let registry := (run callRegistry
      (InstrumentRegistry.init (.consecutive 2 (by decide)) .reference)
      ([[65]].map .createInstrument ++
        (mixed.generateOrders congruence 10).map (ScenarioOp.call [[65]]))).2
    .orderRejected [65] 2 .unknownOrder ∈ registry.payloads ∧
      ∃ record, registry.findOrder [65] 2 = some record ∧ record.status = .filled := by
  intro registry
  have logged : .orderRejected [65] 2 .unknownOrder ∈ registry.payloads := by decide +kernel
  exact ⟨logged, (replay_rejects_filled mixed congruence 10 (.consecutive 2 (by decide)) .reference
    [[65]] (by decide) [65] 2 .unknownOrder logged).2⟩

end Scenario

end Titan
