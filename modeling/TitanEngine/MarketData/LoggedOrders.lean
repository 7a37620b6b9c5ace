import TitanEngine.Exchange.GreedyFill
import TitanEngine.MarketData.OrderViews

/-!
# What the log says and what is kept

As long as no order that is added crosses the book, the log of a registry is well formed, and what
it says of every order is what the ledger of its symbol keeps of it: the orders it submits are
those that were accepted, what it says is open is the recorded quantity, and an order it cancels
does not rest. An order that is matched and not placed, because a remainder that may not rest is
left over, is the only one that the log shows open and that does not rest.
-/

namespace Titan

open Library Std OrderManager

/-- The quantity of a list of orders, summed as numbers. -/
def openQuantity (makers : List Order) : Nat :=
  (makers.map (fun maker => maker.quantity.toNat)).sum

/-- Nothing of an incoming order is thrown away: the orders that it can reach cover it, or it is a
good-till-cancelled limit order with no order of its own account within reach. -/
def Order.Placed (order : Order) (makers : List Order) : Prop :=
  order.quantity.toNat ≤ openQuantity (order.reachable makers) ∨
    order.type = .limit ∧ order.tif = .gtc ∧ order.reachable makers = order.within makers

instance (order : Order) (makers : List Order) : Decidable (order.Placed makers) :=
  inferInstanceAs (Decidable (_ ∨ _ ∧ _ ∧ _))

/-- A greedy fill leaves nothing of a quantity that the orders cover. -/
theorem fill_covered {taker : OrderId} {quantity : Quantity} {makers : List Order}
    (covered : quantity.toNat ≤ openQuantity makers) : (fill taker quantity makers).left = 0 := by
  induction makers generalizing quantity with
  | nil =>
    have zero : quantity.toNat = 0 := Nat.le_zero.mp covered
    simpa [fill, ← UInt64.toNat_inj] using zero
  | cons maker rest ih =>
    have whole : openQuantity (maker :: rest) = maker.quantity.toNat + openQuantity rest := rfl
    unfold fill
    by_cases zero : quantity = 0
    · simp [zero]
    by_cases fits : maker.quantity ≤ quantity
    · have later : (quantity - maker.quantity).toNat ≤ openQuantity rest := by
        rw [UInt64.toNat_sub_of_le _ _ fits]
        omega
      simp only [zero, fits, ↓reduceIte]
      exact ih later
    · simp only [zero, fits, ↓reduceIte]

/-- A greedy fill takes all orders when they do not cover the quantity. -/
theorem fill_uncovered {taker : OrderId} {quantity : Quantity} {makers : List Order}
    (more : openQuantity makers < quantity.toNat) :
    (fill taker quantity makers).rest = [] ∧ (fill taker quantity makers).left ≠ 0 := by
  induction makers generalizing quantity with
  | nil =>
    have positive : 0 < quantity.toNat := more
    have nonzero : quantity ≠ 0 := by
      rintro rfl
      exact absurd positive (by decide)
    simp [fill, nonzero]
  | cons maker rest ih =>
    have whole : openQuantity (maker :: rest) = maker.quantity.toNat + openQuantity rest := rfl
    have nonzero : quantity ≠ 0 := by
      rintro rfl
      exact absurd (Nat.lt_of_le_of_lt (Nat.zero_le _) more) (by decide)
    have fits : maker.quantity ≤ quantity := UInt64.le_iff_toNat_le.mpr (by omega)
    have later : openQuantity rest < (quantity - maker.quantity).toNat := by
      rw [UInt64.toNat_sub_of_le _ _ fits]
      omega
    unfold fill
    simp only [nonzero, fits, ↓reduceIte]
    exact ih later

/-- Nothing of an order is thrown away exactly when nothing of it is left or what is left rests. -/
theorem Book.Sound.placed_iff {ledger : Ledger} (sound : ledger.book.Sound) (order : Order) :
    order.Placed (ledger.book.side order.side.opposite) ↔
      (ledger.fillOf order).left = 0 ∨ ledger.rests order = true := by
  have left : (ledger.fillOf order).left =
      (order.greedy (ledger.book.side order.side.opposite)).left := by rw [sound.fillOf_eq rfl]
  rw [left, sound.rests_eq rfl]
  generalize ledger.book.side order.side.opposite = makers
  unfold Order.Placed Order.restsAfter Order.leftover Order.greedy
  by_cases covered : order.quantity.toNat ≤ openQuantity (order.reachable makers)
  · simp [covered, fill_covered covered]
  · obtain ⟨taken, nonzero⟩ := @fill_uncovered order.id _ _ (Nat.not_le.mp covered)
    have cut : ((order.within makers).drop (order.reachable makers).length).isEmpty = true ↔
        order.reachable makers = order.within makers := by
      have prefix_ : order.reachable makers <+: order.within makers := List.takeWhile_prefix _
      rw [List.isEmpty_iff, List.drop_eq_nil_iff]
      constructor
      · intro long
        exact prefix_.eq_of_length_le long
      · intro same
        rw [same]
    simp [covered, taken, nonzero, ← cut, and_assoc]

namespace Ledger

variable {ledger next : Ledger}

/-- What is said of the orders of a symbol is what its ledger keeps. -/
structure Told (ledger : Ledger) (tells : OrderId → Option OrderView) : Prop where
  /-- It is said of the accepted ids. -/
  known : ∀ id, (tells id).isSome = true ↔ id ∈ ledger.known
  /-- They are recorded. -/
  recorded : ∀ id, id ∈ ledger.known → (ledger.records[id]?).isSome = true
  /-- What is open is the recorded quantity. -/
  leaves : ∀ id view, tells id = some view →
    recordedQuantity ledger.records[id]? = view.leaves.toNat
  /-- What was cancelled does not rest. -/
  closed : ∀ id view, tells id = some view → view.cancelled = true → ledger.holds id = false

/-- Nothing is said of an empty ledger. -/
theorem told_empty : empty.Told (Views.empty []) where
  known id := by simp [Views.empty, empty]
  recorded id listed := by simp [empty] at listed
  leaves id view known := by cases known
  closed id view known := by cases known

/-- An order is said to be open and does not rest. -/
def Stranded (ledger : Ledger) (tells : OrderId → Option OrderView) (id : OrderId) : Prop :=
  ∃ view, tells id = some view ∧ view.cancelled = false ∧ view.leaves ≠ 0 ∧
    ledger.holds id = false

/-- What the events of an entry say of an order. -/
theorem Consistent.views_entered (consistent : ledger.Consistent) {order : Order}
    (unknown : order.id ∉ ledger.known) (payloads : List EventPayload) (symbol : Symbol)
    (id : OrderId) :
    viewsOf (payloads ++ .orderSubmitted symbol order.id order.side order.price order.quantity ::
        (ledger.fillOf order).trades.map (Trade.event symbol)) symbol id =
      ((viewsOf payloads).put symbol order.id
        (some { leaves := order.quantity, traded := 0, cancelled := false }) symbol id).map
        (fun view => view.settle id (ledger.fillOf order).trades) := by
  rw [viewsOf_append, List.foldl_cons]
  refine Views.settle_trades ?_ id
  intro trade member
  obtain ⟨maker, inside, with_, _⟩ := consistent.trade_maker member
  rw [with_]
  intro same
  have equal : order.id = maker.id := same
  exact unknown (equal ▸ consistent.known _ maker inside)

/-- An entry is logged in good order, as far as the log names the accepted ids. -/
theorem Consistent.formed_entered {payloads : List EventPayload} {symbol : Symbol}
    (consistent : ledger.Consistent) (formed : WellFormed payloads)
    (named : ∀ id, (viewsOf payloads symbol id).isSome = true ↔ id ∈ ledger.known)
    {order : Order} (unknown : order.id ∉ ledger.known) :
    WellFormed (payloads ++
      .orderSubmitted symbol order.id order.side order.price order.quantity ::
        (ledger.fillOf order).trades.map (Trade.event symbol)) := by
  have new : viewsOf payloads symbol order.id = none := by
    have absent := mt (named order.id).mp unknown
    simpa using absent
  have submitted : WellFormed (payloads ++
      [.orderSubmitted symbol order.id order.side order.price order.quantity]) :=
    grows_concat.mpr ⟨formed, new⟩
  have traded : WellFormed (payloads ++
      [.orderSubmitted symbol order.id order.side order.price order.quantity] ++
        (ledger.fillOf order).trades.map (Trade.event symbol)) := by
    refine submitted.trades symbol ?_
    intro trade member
    obtain ⟨maker, inside, with_, _⟩ := consistent.trade_maker member
    have listed := consistent.known _ maker inside
    have apart : order.id ≠ maker.id := fun same => unknown (same ▸ listed)
    rw [with_, viewsOf_concat]
    refine ⟨apart, ?_, Views.isSome_step ((named maker.id).mpr listed) _⟩
    show ((viewsOf payloads).put symbol order.id _ symbol order.id).isSome = true
    rw [Views.put_same]
    rfl
  simpa using traded

/-- What the log says after an entry is what is kept after it. -/
theorem Told.entered {payloads : List EventPayload} {symbol : Symbol}
    (told : ledger.Told (viewsOf payloads symbol)) (consistent : ledger.Consistent) {order : Order}
    (unknown : order.id ∉ ledger.known) :
    (ledger.enter order).Told (viewsOf (payloads ++
      .orderSubmitted symbol order.id order.side order.price order.quantity ::
        (ledger.fillOf order).trades.map (Trade.event symbol)) symbol) := by
  have tells := consistent.views_entered unknown payloads symbol
  constructor
  · intro id
    rw [tells, Option.isSome_map]
    show _ ↔ id ∈ ledger.known.insert order.id
    rw [ExtTreeSet.mem_insert, Std.compare_eq_iff_eq]
    by_cases own : id = order.id
    · subst own
      simp
    · rw [Views.put_of_id_ne _ _ _ own, told.known]
      simp [Ne.symm own]
  · intro id listed
    by_cases own : id = order.id
    · subst own
      rw [getElem?_enter_self]
      rfl
    · cases consistent.enter_effect order own with
      | untouched _ record _ =>
        have before : id ∈ ledger.known := by
          simpa [enter, ExtTreeSet.mem_insert, Ne.symm own] using listed
        rw [record]
        exact told.recorded id before
      | traded _ _ _ settled _ _ _ =>
        rw [settled]
        rfl
  · intro id view said
    rw [tells] at said
    obtain ⟨before, shown, rfl⟩ := Option.map_eq_some_iff.mp said
    have balance : recordedQuantity (ledger.enter order).records[id]? +
        tradedBy id (ledger.fillOf order).trades = before.leaves.toNat := by
      by_cases own : id = order.id
      · subst own
        rw [Views.put_same] at shown
        rw [consistent.quantity_enter_self, ← Option.some.inj shown]
      · rw [Views.put_of_id_ne _ _ _ own] at shown
        rw [consistent.quantity_enter_other order own, told.leaves id before shown]
    have covered : tradedBy id (ledger.fillOf order).trades ≤ before.leaves.toNat := by omega
    have settled := OrderView.leaves_settle covered
    omega
  · intro id view said gone
    rw [tells] at said
    obtain ⟨before, shown, rfl⟩ := Option.map_eq_some_iff.mp said
    have stale : before.cancelled = true := by
      cases live : before.cancelled with
      | true => rfl
      | false =>
        have still := OrderView.cancelled_settle id (ledger.fillOf order).trades live
        rw [gone] at still
        cases still
    by_cases own : id = order.id
    · subst own
      rw [Views.put_same] at shown
      rw [← Option.some.inj shown] at stale
      cases stale
    · rw [Views.put_of_id_ne _ _ _ own] at shown
      have closed := told.closed id before shown stale
      cases consistent.enter_effect order own with
      | untouched _ _ same => rw [same, closed]
      | traded _ _ _ _ held _ _ =>
        rw [closed] at held
        cases held

/-- After an entry an order is stranded when it was, or when its own remainder is thrown away. -/
theorem Told.stranded_entered {payloads : List EventPayload} {symbol : Symbol}
    (told : ledger.Told (viewsOf payloads symbol)) (consistent : ledger.Consistent) {order : Order}
    (unknown : order.id ∉ ledger.known) (id : OrderId) :
    (ledger.enter order).Stranded (viewsOf (payloads ++
        .orderSubmitted symbol order.id order.side order.price order.quantity ::
          (ledger.fillOf order).trades.map (Trade.event symbol)) symbol) id ↔
      ledger.Stranded (viewsOf payloads symbol) id ∨
        id = order.id ∧ (ledger.fillOf order).left ≠ 0 ∧ ledger.rests order = false := by
  have tells := consistent.views_entered unknown payloads symbol
  have after := told.entered consistent unknown
  by_cases own : id = order.id
  · subst own
    have new : ¬ ledger.Stranded (viewsOf payloads symbol) order.id := by
      rintro ⟨view, said, _⟩
      exact unknown ((told.known order.id).mp (by rw [said]; rfl))
    have entered := tells order.id
    rw [Views.put_same, Option.map_some] at entered
    have left := after.leaves order.id _ entered
    rw [getElem?_enter_self] at left
    have same : (ledger.fillOf order).left = _ := UInt64.toNat_inj.mp left
    have live : (OrderView.settle { leaves := order.quantity, traded := 0, cancelled := false }
        order.id (ledger.fillOf order).trades).cancelled = false :=
      OrderView.cancelled_settle _ _ rfl
    rw [Stranded, entered, consistent.holds_enter_self unknown, same]
    simp [new, live]
  · have kept := tells id
    rw [Views.put_of_id_ne _ _ _ own] at kept
    rw [Stranded, Stranded, kept]
    cases consistent.enter_effect order own with
    | untouched alone _ holds =>
      have quiet (view : OrderView) : view.settle id (ledger.fillOf order).trades = view := by
        apply view.settle_of_ne
        intro trade member
        rw [consistent.incoming_trades order trade member]
        exact ⟨Ne.symm own, alone trade member⟩
      simp [quiet, holds, own]
    | @traded trade member resting record found settled held covered holds =>
      simp only [own, held, false_and, or_false, Bool.true_eq_false, and_false, exists_false,
        iff_false]
      rintro ⟨view, said, live, open_, gone⟩
      have quantity := after.leaves id view (kept.trans said)
      rw [settled] at quantity
      have same : record.quantity - trade.quantity = view.leaves := UInt64.toNat_inj.mp quantity
      rw [holds, same, decide_eq_false_iff_not] at gone
      exact gone open_

/-- A request that changes an order that rests, and says so, leaves the others alone and strands
nothing. -/
theorem Told.changed {payloads : List EventPayload} {symbol : Symbol}
    (told : ledger.Told (viewsOf payloads symbol)) {id : OrderId} (held : ledger.holds id = true)
    {payload : EventPayload} {change : OrderView → OrderView}
    (tells : (viewsOf payloads).step payload = (viewsOf payloads).change symbol id change)
    (known : next.known = ledger.known) {record : Order}
    (records : next.records = ledger.records.insert id record)
    (others : ∀ other, other ≠ id → next.holds other = ledger.holds other)
    (leaves : ∀ view, viewsOf payloads symbol id = some view →
      record.quantity = (change view).leaves)
    (fits : ∀ view, (change view).cancelled = !next.holds id) :
    next.Told (viewsOf (payloads ++ [payload]) symbol) ∧
      ∀ other, next.Stranded (viewsOf (payloads ++ [payload]) symbol) other ↔
        ledger.Stranded (viewsOf payloads symbol) other := by
  have own : viewsOf (payloads ++ [payload]) symbol id =
      (viewsOf payloads symbol id).map change := by
    rw [viewsOf_concat, tells, Views.change, Views.put_same]
  have same (other : OrderId) (apart : other ≠ id) :
      viewsOf (payloads ++ [payload]) symbol other = viewsOf payloads symbol other ∧
        next.records[other]? = ledger.records[other]? := by
    rw [viewsOf_concat, tells, Views.change, Views.put_of_id_ne _ _ _ apart, records,
      ExtTreeMap.getElem?_insert, if_neg (by simpa using apart.symm)]
    exact ⟨rfl, rfl⟩
  have recorded : recordedQuantity next.records[id]? = record.quantity.toNat := by
    rw [records, ExtTreeMap.getElem?_insert_self]
    rfl
  constructor
  · constructor
    · intro other
      rw [known, ← told.known]
      by_cases here : other = id
      · rw [here, own, Option.isSome_map]
      · rw [(same other here).1]
    · intro other listed
      by_cases here : other = id
      · rw [here, records, ExtTreeMap.getElem?_insert_self]
        rfl
      · rw [known] at listed
        rw [(same other here).2]
        exact told.recorded other listed
    · intro other view said
      by_cases here : other = id
      · rw [here, own] at said
        obtain ⟨before, shown, rfl⟩ := Option.map_eq_some_iff.mp said
        rw [here, recorded, leaves before shown]
      · rw [(same other here).1] at said
        rw [(same other here).2]
        exact told.leaves other view said
    · intro other view said gone
      by_cases here : other = id
      · rw [here, own] at said
        obtain ⟨before, shown, rfl⟩ := Option.map_eq_some_iff.mp said
        rw [fits before, Bool.not_eq_true'] at gone
        rw [here, gone]
      · rw [(same other here).1] at said
        rw [others other here]
        exact told.closed other view said gone
  · intro other
    by_cases here : other = id
    · subst here
      constructor
      · rintro ⟨view, said, live, _, gone⟩
        rw [own] at said
        obtain ⟨before, shown, rfl⟩ := Option.map_eq_some_iff.mp said
        rw [fits before, gone] at live
        cases live
      · rintro ⟨view, said, live, _, gone⟩
        rw [held] at gone
        cases gone
    · rw [Stranded, Stranded, (same other here).1, others other here]

/-- What the log says after a cancel is what is kept after it. -/
theorem Told.cancelled {payloads : List EventPayload} {symbol : Symbol}
    (told : ledger.Told (viewsOf payloads symbol)) (consistent : ledger.Consistent) {id : OrderId}
    (held : ledger.holds id = true) :
    let next : Ledger := { ledger with
      book := ledger.book.cancel id
      records := ledger.records.insert id { ledger.recordOf id with status := .cancelled } }
    next.Told (viewsOf (payloads ++ [.orderCancelled symbol id]) symbol) ∧
      ∀ other, next.Stranded (viewsOf (payloads ++ [.orderCancelled symbol id]) symbol) other ↔
        ledger.Stranded (viewsOf payloads symbol) other := by
  intro next
  obtain ⟨record, found⟩ := consistent.record_of_holds held
  have recorded : ledger.recordOf id = record := by
    rw [recordOf, ExtTreeMap.getD_eq_getD_getElem?, found]
    rfl
  have gone : next.holds id = false :=
    (not_holds_iff _ _).mpr (Book.fresh_cancel.mpr (.inl rfl))
  have others (other : OrderId) (apart : other ≠ id) : next.holds other = ledger.holds other := by
    refine holds_congr ?_
    rw [Book.fresh_cancel]
    simp [apart]
  have records : next.records =
      ledger.records.insert id { ledger.recordOf id with status := .cancelled } := rfl
  refine told.changed held rfl rfl records others ?_ ?_
  · intro view said
    have quantity := told.leaves id view said
    rw [found] at quantity
    rw [recorded]
    exact UInt64.toNat_inj.mp quantity
  · intro view
    rw [gone]
    rfl

/-- What the log says after an amendment is what is kept after it. -/
theorem Told.amended {payloads : List EventPayload} {symbol : Symbol}
    (told : ledger.Told (viewsOf payloads symbol)) (consistent : ledger.Consistent)
    {newOrder : Order} (held : ledger.holds newOrder.id = true) :
    let next := ledger.amend { newOrder with status := .new }
    let event := EventPayload.orderReplaced symbol newOrder.id newOrder.price newOrder.quantity
    next.Told (viewsOf (payloads ++ [event]) symbol) ∧
      ∀ other, next.Stranded (viewsOf (payloads ++ [event]) symbol) other ↔
        ledger.Stranded (viewsOf payloads symbol) other := by
  intro next event
  let renewed : Order := { newOrder with status := .new }
  have rests : ledger.holds renewed.id = true := held
  have kept (other : OrderId) : next.holds other = ledger.holds other :=
    holds_congr (consistent.fresh_amend rests other)
  have records : next.records = ledger.records.insert newOrder.id renewed := rfl
  refine told.changed held rfl rfl records (fun other _ => kept other) (fun _ _ => rfl) ?_
  intro view
  rw [kept, held]
  rfl

/-- The events that a call of a ledger logs are in good order, and what they say is what is kept.
An order is stranded after the call when it was before, or when the call matches it and throws
its remainder away. -/
theorem Told.step {payloads : List EventPayload} {symbol : Symbol}
    (told : ledger.Told (viewsOf payloads symbol)) (formed : WellFormed payloads)
    (consistent : ledger.Consistent) {call : ManagerCall} {result : MatchResult}
    (step : ledger.Step call result next)
    (clear : ∀ order, call = .addOrder order → result.accept.accepted = true →
      wouldCross ledger.book order = false) :
    WellFormed (payloads ++ eventsOf symbol call result) ∧
      next.Told (viewsOf (payloads ++ eventsOf symbol call result) symbol) ∧
      ∀ id, next.Stranded (viewsOf (payloads ++ eventsOf symbol call result) symbol) id ↔
        ledger.Stranded (viewsOf payloads symbol) id ∨
          result.accept.accepted = true ∧ ∃ order, call = .matchOrder order ∧ id = order.id ∧
            ¬ order.Placed (ledger.book.side order.side.opposite) := by
  cases step with
  | @refused _ reason idle =>
    have events : eventsOf symbol call { trades := [], accept := .reject reason } =
        [.orderRejected symbol call.id reason] := rfl
    have same : viewsOf (payloads ++ [.orderRejected symbol call.id reason]) =
        viewsOf payloads := viewsOf_concat _ _
    rw [events, same]
    refine ⟨grows_concat.mpr ⟨formed, trivial⟩, told, ?_⟩
    simp [AcceptResult.reject]
  | @added order plain valid =>
    have unknown := (validateNewOrder_none valid).2.2
    have filled := fillOf_clear (mayRest_of_plain plain).2 (clear order rfl rfl)
    have events : eventsOf symbol (.addOrder order) { trades := [], accept := .ok } =
        .orderSubmitted symbol order.id order.side order.price order.quantity ::
          (ledger.fillOf order).trades.map (Trade.event symbol) := by
      rw [filled]
      rfl
    have placed := (rests_clear plain valid (clear order rfl rfl)).2
    rw [events]
    refine ⟨consistent.formed_entered formed told.known unknown,
      told.entered consistent unknown, ?_⟩
    intro id
    rw [told.stranded_entered consistent unknown]
    simp [placed]
  | @matched order valid =>
    have unknown := (validateNewOrder_none valid).2.2
    refine ⟨consistent.formed_entered formed told.known unknown,
      told.entered consistent unknown, ?_⟩
    intro id
    refine (told.stranded_entered consistent unknown id).trans ?_
    have placed := consistent.sound.placed_iff order
    refine or_congr Iff.rfl ?_
    constructor
    · rintro ⟨same, left, discarded⟩
      refine ⟨rfl, order, rfl, same, ?_⟩
      rw [placed]
      simp [left, discarded]
    · rintro ⟨-, other, equal, same, discarded⟩
      cases equal
      rw [placed] at discarded
      simpa [same] using discarded
  | @cancelled id held =>
    have follows : (viewsOf payloads).Follows (.orderCancelled symbol id) :=
      (told.known id).mpr (consistent.known_of_holds held)
    obtain ⟨after, stranded⟩ := told.cancelled consistent held
    refine ⟨grows_concat.mpr ⟨formed, follows⟩, after, ?_⟩
    intro other
    refine (stranded other).trans ?_
    simp
  | @amended newOrder held plain valid uncrossed =>
    have follows : (viewsOf payloads).Follows
        (.orderReplaced symbol newOrder.id newOrder.price newOrder.quantity) :=
      (told.known newOrder.id).mpr (consistent.known_of_holds held)
    obtain ⟨after, stranded⟩ := told.amended consistent held
    refine ⟨grows_concat.mpr ⟨formed, follows⟩, after, ?_⟩
    intro other
    refine (stranded other).trans ?_
    simp

end Ledger

end Titan
