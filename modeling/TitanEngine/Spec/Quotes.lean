import TitanEngine.Spec.Market
import TitanEngine.Spec.Moves

/-!
# What can rest

Only plain limits with a price rest, whatever calls a registry receives. A call that is refused
leaves the ledger of its symbol as it was.
-/

namespace Titan

open Library Std

/-- A limit with a price that may rest. -/
structure Order.IsQuote (order : Order) : Prop where
  /-- Neither a market order nor immediate or cancel. -/
  plain : order.isMarketOrIoc = false
  /-- The price is not zero. -/
  priced : order.price ≠ 0

/-- What holds of every order holds of every order after an arrival of which it holds. -/
theorem Book.forall_rest {P : Order → Prop} {book : Book} {order : Order}
    (kept : ∀ side, ∀ other ∈ book.side side, P other) (new : P order) :
    ∀ side, ∀ other ∈ (book.rest order).side side, P other := by
  refine forall_side order.side ?_ ?_
  · intro other member
    rcases (mem_side_rest rfl).mp member with same | inside
    · exact same ▸ new
    · exact kept order.side other inside
  · intro other member
    rw [side_opposite_rest] at member
    exact kept order.side.opposite other member

namespace Ledger

variable {ledger : Ledger}

/-- Only quotes rest. -/
def Quoted (ledger : Ledger) : Prop :=
  ∀ side, ∀ order ∈ ledger.book.side side, order.IsQuote

/-- Nothing rests in an empty ledger. -/
theorem quoted_empty : empty.Quoted := by
  intro side order member
  cases side <;> simp [empty, Book.empty, Book.side] at member

/-- A valid order that may rest is a quote. -/
theorem isQuote_of_mayRest {order : Order} {known : IdSet}
    (accepted : validateNewOrder order known = .none) (may : order.mayRest = true) :
    order.IsQuote := by
  have priced := (OrderManager.validateNewOrder_none accepted).2.1
  unfold Order.mayRest at may
  cases kind : order.type with
  | market => simp [kind] at may
  | limit =>
    cases force : order.tif with
    | ioc => simp [force] at may
    | gtc =>
      refine ⟨by simp [Order.isMarketOrIoc, kind, force], fun zero => ?_⟩
      exact priced ⟨kind, zero⟩

/-- Whatever is left by a sweep is a quote. -/
theorem Quoted.swept (quoted : ledger.Quoted) (order : Order) :
    ∀ side, ∀ other ∈ (ledger.swept order).side side, other.IsQuote := by
  intro side other member
  obtain ⟨maker, inside, same⟩ := mem_swept member
  have quote := quoted side maker inside
  rw [← same]
  exact ⟨quote.plain, quote.priced⟩

/-- A matched order leaves quotes. -/
theorem Quoted.enter (quoted : ledger.Quoted) {order : Order}
    (accepted : validateNewOrder order ledger.known = .none) : (ledger.enter order).Quoted := by
  unfold Quoted Ledger.enter
  by_cases resting : ledger.rests order = true
  · have may : order.mayRest = true := by
      unfold rests at resting
      simp only [Bool.and_eq_true] at resting
      exact resting.1.1
    have quote := isQuote_of_mayRest accepted may
    simp only [resting, ↓reduceIte]
    exact Book.forall_rest (quoted.swept order) ⟨quote.plain, quote.priced⟩
  · simp only [resting]
    exact quoted.swept order

/-- An amendment by a quote leaves quotes. -/
theorem Quoted.amend (quoted : ledger.Quoted) (consistent : ledger.Consistent) {newOrder : Order}
    (quote : newOrder.IsQuote) : (ledger.amend newOrder).Quoted := by
  unfold Quoted Ledger.amend
  by_cases keeps : newOrder.price = (ledger.recordOf newOrder.id).price ∧
      newOrder.quantity ≤ (ledger.recordOf newOrder.id).quantity
  · simp only [if_pos keeps]
    refine Book.forall_side newOrder.side ?_ ?_
    · intro other member
      rw [reread, Book.side_setSide_same, List.mem_map] at member
      obtain ⟨order, inside, rfl⟩ := member
      by_cases same : order.id = newOrder.id
      · unfold rereadOrder
        split
        · rw [same, ExtTreeMap.getD_insert_self]
          exact quote
        · exact quoted _ order inside
      · have face := consistent.face_rereadOrder inside same newOrder.price
        have old := quoted newOrder.side order inside
        have plain := congrArg Order.isMarketOrIoc face
        have price := congrArg Order.price face
        exact ⟨plain.trans old.plain, fun zero => old.priced (price.symm.trans zero)⟩
    · intro other member
      rw [reread, Book.side_opposite_setSide] at member
      exact quoted _ other member
  · simp only [if_neg keeps]
    apply Book.forall_rest _ quote
    intro side other member
    rw [Book.side_cancel, List.mem_filter] at member
    exact quoted side other member.1

/-- Every call leaves quotes. -/
theorem Quoted.call (quoted : ledger.Quoted) (consistent : ledger.Consistent)
    (request : ManagerCall) : (callLedger ledger request).2.Quoted := by
  cases request with
  | addOrder order =>
    simp only [callLedger, addOrder]
    split
    · exact quoted
    · cases accepted : validateNewOrder order ledger.known with
      | none => exact quoted.enter accepted
      | _ => exact quoted
  | matchOrder order =>
    simp only [callLedger, matchOrder]
    cases accepted : validateNewOrder order ledger.known with
    | none => exact quoted.enter accepted
    | _ => exact quoted
  | cancelOrder id =>
    simp only [callLedger, cancelOrder]
    split
    · intro side other member
      rw [Book.side_cancel, List.mem_filter] at member
      exact quoted side other member.1
    · exact quoted
  | cancelReplace oldId newOrder =>
    simp only [callLedger, cancelReplace]
    split
    · exact quoted
    split
    · exact quoted
    split
    · exact quoted
    rename_i plain
    cases accepted : validateNewOrder newOrder (ledger.known.erase oldId) with
    | none =>
      have resting := mayRest_of_plain (Bool.not_eq_true _ ▸ plain)
      have quote := isQuote_of_mayRest accepted resting.1
      simp only
      split
      · exact quoted
      · exact quoted.amend consistent ⟨quote.plain, quote.priced⟩
    | _ => exact quoted

/-- A call that is refused leaves the ledger as it was. -/
theorem callLedger_refused {request : ManagerCall}
    (refused : (callLedger ledger request).1.accept.accepted = false) :
    (callLedger ledger request).2 = ledger := by
  cases request with
  | addOrder order =>
    simp only [callLedger, addOrder] at refused ⊢
    split
    · rfl
    · rename_i plain
      rw [if_neg plain] at refused
      cases accepted : validateNewOrder order ledger.known with
      | none => simp [accepted, AcceptResult.ok] at refused
      | _ => rfl
  | matchOrder order =>
    simp only [callLedger, matchOrder] at refused ⊢
    cases accepted : validateNewOrder order ledger.known with
    | none => simp [accepted, AcceptResult.ok] at refused
    | _ => rfl
  | cancelOrder id =>
    simp only [callLedger, cancelOrder] at refused ⊢
    split
    · rename_i held
      rw [if_pos held] at refused
      simp [AcceptResult.ok] at refused
    · rfl
  | cancelReplace oldId newOrder =>
    simp only [callLedger, cancelReplace] at refused ⊢
    split
    · rfl
    split
    · rfl
    split
    · rfl
    rename_i held same plain
    rw [if_neg held, if_neg same, if_neg plain] at refused
    cases accepted : validateNewOrder newOrder (ledger.known.erase oldId) with
    | none =>
      rw [accepted] at refused
      simp only at refused ⊢
      split
      · rfl
      · rename_i clear
        rw [if_neg clear] at refused
        simp [AcceptResult.ok] at refused
    | _ => rfl

/-- A cancel is refused exactly when the id is not held. -/
theorem cancelOrder_refused_iff (id : OrderId) :
    (ledger.cancelOrder id).1.accepted = false ↔ ¬ ledger.holds id = true := by
  unfold cancelOrder
  by_cases held : ledger.holds id = true
  · rw [if_pos held]
    exact iff_of_false Bool.noConfusion (not_not_intro held)
  · rw [if_neg held]
    exact iff_of_true rfl held

/-- A plain limit is accepted exactly when its quantity and price are not zero and its id is
new. -/
theorem addOrder_accepted_iff {order : Order} (limit : order.type = .limit)
    (stays : order.tif = .gtc) :
    (ledger.addOrder order).1.accepted = true ↔
      order.quantity ≠ 0 ∧ order.price ≠ 0 ∧ order.id ∉ ledger.known := by
  have plain : order.isMarketOrIoc = false := by simp [Order.isMarketOrIoc, limit, stays]
  simp only [addOrder, plain, validateNewOrder, limit]
  by_cases zero : order.quantity = 0
  · simp [zero, AcceptResult.reject]
  · by_cases free : order.price = 0
    · simp [zero, free, AcceptResult.reject]
    · by_cases listed : order.id ∈ ledger.known <;>
        simp [zero, free, listed, AcceptResult.ok, AcceptResult.reject]

/-- A replacement of a record under its own id is refused exactly when the id is not held, the
new quantity or price is zero, or the new price crosses. -/
theorem Consistent.cancelReplace_refused_iff (consistent : ledger.Consistent)
    (quoted : ledger.Quoted) {id : OrderId} {record : Order}
    (recorded : ledger.records[id]? = some record) (newOrder : Order) (same : newOrder.id = id)
    (kind : newOrder.isMarketOrIoc = record.isMarketOrIoc) :
    (ledger.cancelReplace id newOrder).1.accepted = false ↔
      ¬ ledger.holds id = true ∨ newOrder.quantity = 0 ∨ newOrder.price = 0 ∨
        wouldCross ledger.book newOrder = true := by
  by_cases held : ledger.holds id = true
  · obtain ⟨side, target, member, agrees⟩ := consistent.target_of_holds held recorded
    have plain : newOrder.isMarketOrIoc = false := by
      have agreed := congrArg Order.isMarketOrIoc agrees
      exact kind.trans (agreed.trans (quoted side target member).plain)
    have limit : newOrder.type = .limit := by
      unfold Order.isMarketOrIoc at plain
      cases type : newOrder.type with
      | limit => rfl
      | market => simp [type] at plain
    simp only [cancelReplace, held, same, plain, validateNewOrder, limit]
    by_cases zero : newOrder.quantity = 0
    · simp [zero, AcceptResult.reject]
    · by_cases free : newOrder.price = 0
      · simp [zero, free, AcceptResult.reject]
      · cases clear : wouldCross ledger.book newOrder <;>
          simp [zero, free, AcceptResult.ok, AcceptResult.reject]
  · have refused : ledger.cancelReplace id newOrder = (.reject .orderNotResting, ledger) := by
      simp [cancelReplace, held]
    rw [refused]
    exact iff_of_true rfl (.inl held)

/-- Reducing what is recorded is refused exactly when the id is not held. -/
theorem Consistent.reduce_refused_iff (consistent : ledger.Consistent) (quoted : ledger.Quoted)
    {id : OrderId} {record : Order} (recorded : ledger.records[id]? = some record)
    {left : Quantity} (positive : left ≠ 0) :
    (ledger.cancelReplace id { record with id := id, quantity := left }).1.accepted = false ↔
      ¬ ledger.holds id = true := by
  let reduced : Order := { record with id := id, quantity := left }
  rw [consistent.cancelReplace_refused_iff quoted recorded reduced rfl rfl]
  refine ⟨?_, .inl⟩
  rintro (loose | zero | free | crossed) held
  · exact loose held
  · exact positive zero
  · obtain ⟨side, target, member, agrees⟩ := consistent.target_of_holds held recorded
    exact (quoted side target member).priced (agrees.price.symm.trans free)
  · obtain ⟨side, target, member, agrees⟩ := consistent.target_of_holds held recorded
    have own : reduced.side = side :=
      agrees.side.trans (consistent.sound.sided side target member)
    have price : reduced.price = target.price := agrees.price
    rw [wouldCross, own, List.any_eq_true] at crossed
    obtain ⟨other, inside, reach⟩ := crossed
    rw [price, consistent.sound.not_crosses member inside] at reach
    exact Bool.noConfusion reach

section Immediate

variable {taker : Order} (limit : taker.type = .limit) (immediate : taker.tif = .ioc)

include limit immediate

/-- An immediate-or-cancel limit that crosses nothing leaves the book as it was. -/
theorem enter_clear (clear : wouldCross ledger.book taker = false) :
    (ledger.fillOf taker).trades = [] ∧ (ledger.enter taker).book = ledger.book := by
  have price : taker.matchPrice = taker.price := by simp [Order.matchPrice, limit]
  have filled := fillOf_clear price clear
  have never : ledger.rests taker = false := by simp [rests, Order.mayRest, immediate]
  refine ⟨by rw [filled], ?_⟩
  simp only [enter, never, Bool.false_eq_true, ↓reduceIte]
  rw [swept, filled, Book.setSide_side]

omit immediate in
/-- A limit without an account trades with whatever it crosses. -/
theorem fillOf_crossing (sound : ledger.book.Sound) (nobody : taker.accountId = 0)
    (positive : taker.quantity ≠ 0) (crossed : wouldCross ledger.book taker = true) :
    (ledger.fillOf taker).trades ≠ [] := by
  rw [wouldCross, List.any_eq_true] at crossed
  obtain ⟨other, member, reach⟩ := crossed
  unfold fillOf
  cases orders : ledger.book.side taker.side.opposite with
  | nil =>
    rw [orders] at member
    nomatch member
  | cons maker rest =>
    have head := sound.crosses_head orders member reach
    have open_ : taker.stoppedBy maker = false := by
      simp [Order.stoppedBy, Order.matchPrice, limit, nobody, head]
    by_cases fits : maker.quantity ≤ taker.quantity
    · rw [sweep_consume open_ positive fits]
      exact List.cons_ne_nil _ _
    · rw [sweep_reduce open_ positive fits]
      exact List.cons_ne_nil _ _

/-- An immediate-or-cancel limit without an account trades with nothing exactly when it is not
valid or crosses nothing. -/
theorem matchOrder_untraded_iff (sound : ledger.book.Sound) (nobody : taker.accountId = 0) :
    (ledger.matchOrder taker).1.trades = [] ↔
      taker.quantity = 0 ∨ taker.price = 0 ∨ taker.id ∈ ledger.known ∨
        wouldCross ledger.book taker = false := by
  by_cases zero : taker.quantity = 0
  · simp [matchOrder, validateNewOrder, zero]
  by_cases free : taker.price = 0
  · simp [matchOrder, validateNewOrder, zero, free, limit]
  by_cases listed : taker.id ∈ ledger.known
  · simp [matchOrder, validateNewOrder, zero, free, listed]
  have valid : validateNewOrder taker ledger.known = .none := by
    simp [validateNewOrder, zero, free, listed]
  simp only [matchOrder, valid, zero, free, listed, false_or]
  cases crossed : wouldCross ledger.book taker with
  | true => exact iff_of_false (fillOf_crossing limit sound nobody zero crossed) Bool.noConfusion
  | false => exact iff_of_true (enter_clear limit immediate crossed).1 rfl

/-- An immediate-or-cancel limit without an account that trades with nothing leaves the book as
it was. -/
theorem matchOrder_untraded (sound : ledger.book.Sound) (nobody : taker.accountId = 0)
    (untraded : (ledger.matchOrder taker).1.trades = []) :
    (ledger.matchOrder taker).2.book = ledger.book := by
  cases accepted : validateNewOrder taker ledger.known with
  | none =>
    have positive := (OrderManager.validateNewOrder_none accepted).1
    simp only [matchOrder, accepted] at untraded ⊢
    cases crossed : wouldCross ledger.book taker with
    | true => exact absurd untraded (fillOf_crossing limit sound nobody positive crossed)
    | false => exact (enter_clear limit immediate crossed).2
  | _ => simp only [matchOrder, accepted]

end Immediate

end Ledger

/-- Only quotes rest in any ledger. -/
def Market.Quoted (market : Market) : Prop :=
  ∀ symbol listing, market.listings symbol = some listing → listing.ledger.Quoted

/-- Listing a symbol brings no order. -/
theorem Market.Quoted.list {market : Market} (quoted : market.Quoted) (symbol : Symbol) :
    (market.list symbol).Quoted := by
  cases present : market.listings symbol with
  | some listing =>
    rw [Market.list_listed present]
    exact quoted
  | none =>
    intro other listing listed
    rw [Market.listings_list present] at listed
    by_cases same : other = symbol
    · rw [same, Function.update_self, Option.some.injEq] at listed
      rw [← listed]
      exact Ledger.quoted_empty
    · rw [Function.update_of_ne same] at listed
      exact quoted other listing listed

/-- The book of a symbol, if it is listed. -/
def Market.bookOf (market : Market) (symbol : Symbol) : Option Book :=
  (market.listings symbol).map (fun listing => listing.ledger.book)

/-- A call that leaves the book of its symbol leaves every book. -/
theorem Market.bookOf_call {market : Market} {symbol : Symbol} {request : ManagerCall}
    (same : ∀ listing, market.listings symbol = some listing →
      (callLedger listing.ledger request).2.book = listing.ledger.book) (name : Symbol) :
    (market.call symbol request).2.bookOf name = market.bookOf name := by
  unfold bookOf
  cases present : market.listings symbol with
  | none =>
    have listings : (market.call symbol request).2.listings = market.listings := by
      rw [Market.call, present]
      exact Market.listings_publish _ _
    rw [listings]
  | some listing =>
    rw [(Market.call_listed present request).2]
    by_cases own : name = symbol
    · subst own
      rw [Function.update_self, present, Option.map_some, Option.map_some, same listing present]
    · rw [Function.update_of_ne own]

/-- A snapshot shows the book of its symbol. -/
theorem Market.levels_snapshot (market : Market) (symbol : Symbol) (depth : Nat) :
    (market.snapshot symbol depth).1.bids =
        ((market.bookOf symbol).map (fun book => book.depth .buy depth)).getD [] ∧
      (market.snapshot symbol depth).1.asks =
        ((market.bookOf symbol).map (fun book => book.depth .sell depth)).getD [] := by
  unfold bookOf Market.snapshot
  cases market.listings symbol <;> exact ⟨rfl, rfl⟩

namespace InstrumentRegistry

variable {registry : InstrumentRegistry} {market : Market}

/-- A listed ledger is consistent. -/
theorem Mirrors.consistent (mirrors : registry.Mirrors market) {symbol : Symbol}
    {listing : Listing} (listed : market.listings symbol = some listing) :
    listing.ledger.Consistent := by
  obtain ⟨instrument, _, kept⟩ := mirrors.instrument listed
  exact kept.manager.consistent

/-- The registry keeps a market in which only quotes rest. -/
def Quotes (registry : InstrumentRegistry) : Prop :=
  ∃ market, registry.Mirrors market ∧ market.Quoted

/-- A call for any symbol leaves quotes. -/
theorem Mirrors.quoted_call (mirrors : registry.Mirrors market) (quoted : market.Quoted)
    (symbol : Symbol) (request : ManagerCall) : (market.call symbol request).2.Quoted := by
  cases present : market.listings symbol with
  | none =>
    intro other listing listed
    rw [Market.call, present, Market.listings_publish] at listed
    exact quoted other listing listed
  | some entry =>
    intro other listing listed
    rw [(Market.call_listed present request).2] at listed
    by_cases same : other = symbol
    · rw [same, Function.update_self, Option.some.injEq] at listed
      rw [← listed]
      exact (quoted symbol entry present).call (mirrors.consistent present) request
    · rw [Function.update_of_ne same] at listed
      exact quoted other listing listed

/-- Nothing rests in a new registry. -/
theorem quotes_init (allocator : SlabAllocator) (backend : MatcherBackend) :
    (init allocator backend).Quotes :=
  ⟨Market.empty, mirrors_init allocator backend, fun _ _ listed => nomatch listed⟩

/-- Nothing rests after a reset. -/
theorem quotes_reset (registry : InstrumentRegistry) : registry.reset.Quotes :=
  ⟨Market.empty, Mirrors.reset registry, fun _ _ listed => nomatch listed⟩

/-- Listing a symbol brings no order. -/
theorem Quotes.createInstrument (quotes : registry.Quotes) (symbol : Symbol) :
    (registry.createInstrument symbol).Quotes := by
  obtain ⟨market, mirrors, quoted⟩ := quotes
  exact ⟨_, mirrors.createInstrument symbol, quoted.list symbol⟩

/-- `submitOrder` leaves quotes. -/
theorem Quotes.submitOrder (quotes : registry.Quotes) (symbol : Symbol) (order : Order) :
    (registry.submitOrder symbol order).2.Quotes := by
  obtain ⟨market, mirrors, quoted⟩ := quotes
  exact ⟨_, (mirrors.submitOrder symbol order).2, mirrors.quoted_call quoted symbol _⟩

/-- `cancelOrder` leaves quotes. -/
theorem Quotes.cancelOrder (quotes : registry.Quotes) (symbol : Symbol) (id : OrderId) :
    (registry.cancelOrder symbol id).2.Quotes := by
  obtain ⟨market, mirrors, quoted⟩ := quotes
  exact ⟨_, (mirrors.cancelOrder symbol id).2, mirrors.quoted_call quoted symbol _⟩

/-- `cancelReplace` leaves quotes. -/
theorem Quotes.cancelReplace (quotes : registry.Quotes) (symbol : Symbol) (oldId : OrderId)
    (newOrder : Order) : (registry.cancelReplace symbol oldId newOrder).2.Quotes := by
  obtain ⟨market, mirrors, quoted⟩ := quotes
  exact ⟨_, (mirrors.cancelReplace symbol oldId newOrder).2, mirrors.quoted_call quoted symbol _⟩

/-- `matchOrder` leaves quotes. -/
theorem Quotes.matchOrder (quotes : registry.Quotes) (symbol : Symbol) (order : Order) :
    (registry.matchOrder symbol order).2.Quotes := by
  obtain ⟨market, mirrors, quoted⟩ := quotes
  exact ⟨_, (mirrors.matchOrder symbol order).2, mirrors.quoted_call quoted symbol _⟩

end InstrumentRegistry

end Titan
