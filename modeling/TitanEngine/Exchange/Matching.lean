import TitanEngine.Exchange.Bookkeeping

/-!
# Matching through the order manager

`Tracks` ties a manager to the book that its matcher holds: the shadow queues are the ids of
the book's queues, the active ids are the ids that rest, and the recorded orders cover what
rests. Matching sends one probe after the other into the matcher and settles each trade; the
loop sweeps the other side of the book, and its end enters what the ledger enters.
-/

namespace Titan

open Library Std

namespace OrderManager

variable {M : Type} [LawfulMatcher M] {manager : OrderManager M} {book : Book}

/-- The manager's bookkeeping agrees with the book its matcher holds. -/
structure Tracks (manager : OrderManager M) (book : Book) : Prop where
  /-- The matcher holds the book. -/
  represents : Represents manager.matcher book
  /-- The shadow queues are those of the book. -/
  shadows : manager.Shadows book
  /-- The active ids are those that rest. -/
  active : ∀ id, id ∈ manager.activeOrderIds ↔ ¬ book.Fresh id
  /-- Whatever rests is recorded. -/
  covers : Ledger.Covers manager.orders book

omit [LawfulMatcher M] in
/-- The shadow is all that matters for mirroring. -/
theorem Shadows.of_eq {other : OrderManager M} (shadows : manager.Shadows book)
    (bids : other.restingBidsAt = manager.restingBidsAt)
    (asks : other.restingAsksAt = manager.restingAsksAt) : other.Shadows book := by
  intro side
  cases side with
  | buy =>
    change ∀ price, other.restingBidsAt[price]? = _
    rw [bids]
    exact shadows .buy
  | sell =>
    change ∀ price, other.restingAsksAt[price]? = _
    rw [asks]
    exact shadows .sell


/-- A record of an id that does not rest changes nothing for the orders that do. -/
theorem covers_insert {records : IdMap Order} (covers : Ledger.Covers records book)
    {id : OrderId} (fresh : book.Fresh id) (record : Order) :
    Ledger.Covers (records.insert id record) book := by
  intro side order member
  obtain ⟨snapshot, found, same⟩ := covers side order member
  refine ⟨snapshot, ?_, same⟩
  rw [ExtTreeMap.getElem?_insert, if_neg]
  · exact found
  · have apart := fresh side order member
    simpa using apart.symm

/-- The manager's record of a resting order agrees with it. -/
theorem Tracks.orderAt_agrees (tracks : manager.Tracks book) {side : Side} {order : Order}
    (member : order ∈ book.side side) : (manager.orderAt order.id).Agrees order := by
  obtain ⟨snapshot, found, same⟩ := tracks.covers side order member
  rw [orderAt, ExtTreeMap.getD_eq_getD_getElem?, found]
  exact same

/-- The head of a side that is filled completely leaves the book. -/
theorem fillHead_eq_cancel (sound : book.Sound) {side : Side} {maker : Order} {rest : List Order}
    (orders : book.side side = maker :: rest) {traded : Quantity}
    (done : maker.quantity - traded = 0) :
    book.fillHead side maker rest traded = book.cancel maker.id := by
  have head := sound.cancel_head orders (rfl : maker.id = maker.id)
  rw [← orders, Book.setSide_side] at head
  rw [head, Book.fillHead, afterFill, if_pos done]

/-- The head of a side that is filled in part keeps its place. -/
theorem fillHead_eq_setSide {side : Side} {maker : Order} {rest : List Order} {traded : Quantity}
    (left : ¬ maker.quantity - traded = 0) :
    book.fillHead side maker rest traded =
      book.setSide side ({ maker with quantity := maker.quantity - traded } :: rest) := by
  rw [Book.fillHead, afterFill, if_neg left]

/-- A record of an id that does not rest keeps the bookkeeping. -/
theorem Tracks.record (tracks : manager.Tracks book) {id : OrderId} (fresh : book.Fresh id)
    (record : Order) :
    ({ manager with orders := manager.orders.insert id record } : OrderManager M).Tracks book :=
  ⟨tracks.represents, tracks.shadows.of_eq rfl rfl, tracks.active,
    covers_insert tracks.covers fresh record⟩

/-- Once the matcher has dropped an order, dropping it from the active ids and the shadow brings
the bookkeeping in line. -/
theorem Tracks.remove (tracks : manager.Tracks book) (sound : book.Sound) (id : OrderId)
    {matcher : M} (represents : Represents matcher (book.cancel id)) :
    (({ manager with
      matcher := matcher
      activeOrderIds := manager.activeOrderIds.erase id } :
        OrderManager M).untrackResting id).Tracks (book.cancel id) := by
  constructor
  · rw [matcher_untrackResting]
    exact represents
  · apply Shadows.untrackResting _ sound
    exact tracks.shadows.of_eq rfl rfl
  · intro other
    rw [activeOrderIds_untrackResting, ExtTreeSet.mem_erase, Book.fresh_cancel, tracks.active]
    by_cases same : other = id
    · simp [same]
    · simp [same, Ne.symm same]
  · rw [orders_untrackResting]
    intro side order member
    rw [Book.side_cancel] at member
    exact tracks.covers side order (List.mem_of_mem_filter member)

/-- Once the matcher has left the head of a side with less, a record that says so brings the
bookkeeping in line. -/
theorem Tracks.reduceHead (tracks : manager.Tracks book) (sound : book.Sound) {side : Side}
    {maker : Order} {rest : List Order} (orders : book.side side = maker :: rest)
    (left : Quantity) {record : Order} (agrees : record.Agrees { maker with quantity := left })
    {matcher : M} (represents :
      Represents matcher (book.setSide side ({ maker with quantity := left } :: rest))) :
    ({ manager with
      matcher := matcher
      orders := manager.orders.insert maker.id record } : OrderManager M).Tracks
        (book.setSide side ({ maker with quantity := left } :: rest)) := by
  have member : maker ∈ book.side side := orders ▸ List.mem_cons_self
  have others : ∀ order ∈ rest, order.id ≠ maker.id := by
    have distinct := sound.distinct side
    rw [orders, List.map_cons, List.nodup_cons] at distinct
    exact fun order inside equal => distinct.1 (List.mem_map.mpr ⟨order, inside, equal⟩)
  -- an order with another id keeps its record
  have kept : ∀ other, ∀ order ∈ book.side other, order.id ≠ maker.id →
      ∃ record', (manager.orders.insert maker.id record)[order.id]? = some record' ∧
        record'.Agrees order := by
    intro other order inside apart
    obtain ⟨stored, found, same⟩ := tracks.covers other order inside
    refine ⟨stored, ?_, same⟩
    rw [ExtTreeMap.getElem?_insert, if_neg (by simpa using apart.symm)]
    exact found
  refine ⟨represents, ?_, ?_, ?_⟩
  · refine (tracks.shadows.of_eq rfl rfl).congr ?_
    refine Book.forall_side side ?_ ?_
    · intro price
      rw [orders, Book.side_setSide_same]
      by_cases here : maker.price = price
      · subst here
        simp [group]
      · simp [group, here]
    · intro price
      rw [Book.side_opposite_setSide]
  · intro id
    have ids : ∀ other, ((book.setSide side ({ maker with quantity := left } :: rest)).side
        other).map Order.id = (book.side other).map Order.id := by
      refine Book.forall_side side ?_ ?_
      · rw [orders, Book.side_setSide_same]
        rfl
      · rw [Book.side_opposite_setSide]
    rw [Book.fresh_congr ids]
    exact tracks.active id
  · refine Book.forall_side side ?_ ?_
    · intro order inside
      rw [Book.side_setSide_same] at inside
      rcases List.mem_cons.mp inside with rfl | inside
      · exact ⟨record, ExtTreeMap.getElem?_insert_self, agrees⟩
      · exact kept side order (orders ▸ List.mem_cons_of_mem _ inside) (others order inside)
    · intro order inside
      rw [Book.side_opposite_setSide] at inside
      exact kept side.opposite order inside (sound.id_ne member inside).symm

/-- Once the matcher has filled the head of a side, settling the trade brings the bookkeeping
in line. -/
theorem Tracks.settleTrade (tracks : manager.Tracks book) (sound : book.Sound) {side : Side}
    {maker : Order} {rest : List Order} (orders : book.side side = maker :: rest)
    (taker : OrderId) (traded : Quantity) {matcher : M}
    (represents : Represents matcher (book.fillHead side maker rest traded)) :
    let probed := { manager with matcher := matcher }
    let settled := probed.settleTrade (tradeWith taker maker traded)
    settled.Tracks (book.fillHead side maker rest traded) ∧
      settled.orders = settle manager.orders (tradeWith taker maker traded) ∧
      settled.allKnownOrderIds = manager.allKnownOrderIds ∧
      settled.activeOrderIds = (if maker.quantity - traded = 0
        then manager.activeOrderIds.erase maker.id else manager.activeOrderIds) := by
  intro probed settled
  have member : maker ∈ book.side side := orders ▸ List.mem_cons_self
  obtain ⟨snapshot, found, same⟩ := tracks.covers side maker member
  have lookup : manager.orders[(tradeWith taker maker traded).restingOrderId]? = some snapshot :=
    found
  have lookup' : probed.orders[(tradeWith taker maker traded).restingOrderId]? = some snapshot :=
    found
  have remains : snapshot.quantity - (tradeWith taker maker traded).quantity =
      maker.quantity - traded := by
    rw [same.quantity]
    rfl
  by_cases left : maker.quantity - traded = 0
  · have left' := remains.trans left
    let record := { snapshot with
      quantity := snapshot.quantity - traded
      status := OrderStatus.filled }
    let removed := ({ manager with
      matcher := matcher
      activeOrderIds := manager.activeOrderIds.erase maker.id } :
        OrderManager M).untrackResting maker.id
    have unfolded : settled =
        { removed with orders := manager.orders.insert maker.id record } := by
      simp only [settled, OrderManager.settleTrade, lookup']
      rw [if_pos left']
      exact untrackResting_record { manager with
        matcher := matcher
        activeOrderIds := manager.activeOrderIds.erase maker.id } _ maker.id
    have records : settle manager.orders (tradeWith taker maker traded) =
        manager.orders.insert maker.id record := by
      rw [settle, lookup]
      simp only
      rw [if_pos left']
      rfl
    rw [fillHead_eq_cancel sound orders left] at represents ⊢
    rw [unfolded, if_pos left, records]
    have tracked := tracks.remove sound maker.id represents
    have gone : (book.cancel maker.id).Fresh maker.id := Book.fresh_cancel.mpr (.inl rfl)
    have kept : removed.orders = manager.orders := orders_untrackResting _ _
    refine ⟨?_, rfl, allKnownOrderIds_untrackResting _ _, activeOrderIds_untrackResting _ _⟩
    rw [← kept]
    exact tracked.record gone record
  · have left' : ¬ snapshot.quantity - (tradeWith taker maker traded).quantity = 0 := by
      rw [remains]
      exact left
    let record := { snapshot with
      quantity := snapshot.quantity - traded
      status := OrderStatus.partiallyFilled }
    have unfolded : settled = { manager with
        matcher := matcher
        orders := manager.orders.insert maker.id record } := by
      simp only [settled, OrderManager.settleTrade, lookup', left', ↓reduceIte]
      rfl
    have records : settle manager.orders (tradeWith taker maker traded) =
        manager.orders.insert maker.id record := by
      rw [settle, lookup]
      simp only [left', ↓reduceIte]
      rfl
    have agrees : record.Agrees { maker with quantity := maker.quantity - traded } := by
      rw [← same.quantity]
      exact same.reduce _ _
    rw [fillHead_eq_setSide left] at represents ⊢
    rw [unfolded, if_neg left, records]
    exact ⟨tracks.reduceHead sound orders _ agrees represents, rfl, rfl, rfl⟩

/-- A probe no larger than the head that it crosses trades with the head alone. -/
theorem submit_probe {probe maker : Order} {rest : List Order}
    (orders : book.side probe.side.opposite = maker :: rest)
    (reach : crosses probe.side probe.price maker.price = true) (positive : probe.quantity ≠ 0)
    (fits : probe.quantity ≤ maker.quantity) :
    book.submit probe = ([tradeWith probe.id maker probe.quantity],
      book.fillHead probe.side.opposite maker rest probe.quantity) := by
  have least : min probe.quantity maker.quantity = probe.quantity := by
    rw [UInt64.min_def]
    grind
  have open_ :
      (fun other : Order => !crosses probe.side probe.price other.price) maker = false := by
    simp [reach]
  have filled : sweep probe.id (fun other => !crosses probe.side probe.price other.price)
      probe.quantity (maker :: rest) = _ := sweep_cons open_ positive rest
  simp only [least, UInt64.sub_self, sweep_zero] at filled
  simp only [Book.submit, orders, filled, ↓reduceIte, Book.fillHead]

/-- Trading at most what is left keeps the two counters of `matchWithStp` in step. -/
theorem counters_step {total filled remaining traded : Quantity}
    (step : filled = total - remaining) : filled + traded = total - (remaining - traded) := by
  grind

/-- The loop of `matchWithStp` at a book whose other side is the given one. -/
structure Sweeping (incoming : Order) (records : IdMap Order) (known : IdSet) (book : Book)
    (state : StpState M) (orders : List Order) : Prop where
  /-- The book is sound. -/
  sound : (book.setSide incoming.side.opposite orders).Sound
  /-- The bookkeeping is in step. -/
  tracks : state.manager.Tracks (book.setSide incoming.side.opposite orders)
  /-- The incoming id does not rest. -/
  fresh : (book.setSide incoming.side.opposite orders).Fresh incoming.id
  /-- The records are the old ones with the trades settled. -/
  records : state.manager.orders = state.allTrades.foldl settle records
  /-- The accepted ids are not touched. -/
  known : state.manager.allKnownOrderIds = known
  /-- What is not remaining was filled. -/
  counted : state.filled = incoming.quantity - state.remaining

/-- What ends the loop of `matchWithStp`, for an order whose price was already set. -/
def stpStops (incoming maker : Order) : Bool :=
  !crosses incoming.side incoming.price maker.price ||
    (decide (incoming.accountId ≠ 0) && decide (maker.accountId = incoming.accountId))

/-- A probe that crosses the head, and is no larger than it, trades with it alone. -/
theorem Sweeping.submit_head {incoming maker : Order} {records : IdMap Order} {known : IdSet}
    {book : Book} {state : StpState M} {rest : List Order}
    (sweeping : Sweeping incoming records known book state (maker :: rest))
    (positive : state.remaining ≠ 0)
    (reach : crosses incoming.side incoming.price maker.price = true) :
    let side := incoming.side.opposite
    let traded := min state.remaining maker.quantity
    (book.setSide side (maker :: rest)).submit { incoming with quantity := traded } =
      ([tradeWith incoming.id maker traded],
        (book.setSide side (maker :: rest)).fillHead side maker rest traded) := by
  intro side traded
  have current := Book.side_setSide_same book incoming.side.opposite (maker :: rest)
  have member : maker ∈ (book.setSide side (maker :: rest)).side side := by
    rw [current]
    exact List.mem_cons_self
  have makerPositive : maker.quantity ≠ 0 := sweeping.sound.positive side maker member
  have tradedPositive : traded ≠ 0 := by
    simp only [traded, UInt64.min_def]
    grind
  have tradedFits : traded ≤ maker.quantity := by
    simp only [traded, UInt64.min_def]
    grind
  let probe : Order := { incoming with quantity := traded }
  have crossed : crosses probe.side probe.price maker.price = true := reach
  exact submit_probe current crossed tradedPositive tradedFits

/-- A pass of the loop of `matchWithStp` trades with the head of the other side. -/
theorem stpPass_spec (incoming : Order) (records : IdMap Order) (known : IdSet) (book : Book) :
    SweepPass incoming.id (stpStops incoming) (Sweeping (M := M) incoming records known book)
      (fun state => state.remaining) (fun state => state.allTrades)
      (fun state => state.manager.activeOrderIds.size) (stpPass incoming) where
  filled state orders _ zero := by
    simp [stpPass, zero]
  bare state sweeping := by
    have empty := sweeping.tracks.shadows.bestLevel_nil (Book.side_setSide_same _ _ _)
    simp [stpPass, empty]
  stopped state maker rest sweeping stop := by
    have current := Book.side_setSide_same book incoming.side.opposite (maker :: rest)
    have best := sweeping.tracks.shadows.bestLevel_cons sweeping.sound current
    have member : maker ∈ (book.setSide incoming.side.opposite (maker :: rest)).side
        incoming.side.opposite := by
      rw [current]
      exact List.mem_cons_self
    have account := (sweeping.tracks.orderAt_agrees member).accountId
    simp only [stpPass, best]
    cases reach : crosses incoming.side incoming.price maker.price with
    | false => simp
    | true =>
      simp only [stpStops, reach, Bool.not_true, Bool.false_or, Bool.and_eq_true,
        decide_eq_true_eq] at stop
      simp only [↓reduceIte, account, stop.1, stop.2, ne_eq, not_false_eq_true, and_self, ite_self]
  trade state maker rest sweeping positive open_ := by
    let side := incoming.side.opposite
    let traded := min state.remaining maker.quantity
    have current := Book.side_setSide_same book incoming.side.opposite (maker :: rest)
    have best := sweeping.tracks.shadows.bestLevel_cons sweeping.sound current
    have member : maker ∈ (book.setSide side (maker :: rest)).side side := by
      rw [current]
      exact List.mem_cons_self
    have recorded := sweeping.tracks.orderAt_agrees member
    have account := recorded.accountId
    have quantity := recorded.quantity
    simp only [stpStops, Bool.or_eq_false_iff, Bool.and_eq_false_imp,
      decide_eq_true_eq, decide_eq_false_iff_not] at open_
    have reach : crosses incoming.side incoming.price maker.price = true := by
      simpa using open_.1
    have other : ¬ (incoming.accountId ≠ 0 ∧ maker.accountId = incoming.accountId) :=
      fun both => open_.2 both.1 both.2
    let probe : Order := { incoming with quantity := traded }
    have submitted : (book.setSide side (maker :: rest)).submit probe =
        ([tradeWith incoming.id maker traded],
          (book.setSide side (maker :: rest)).fillHead side maker rest traded) :=
      sweeping.submit_head positive reach
    obtain ⟨trades, represents⟩ := LawfulMatcher.matchOrder_spec probe sweeping.tracks.represents
      sweeping.sound sweeping.fresh
    have soundNext : ((book.setSide side (maker :: rest)).submit probe).2.Sound :=
      sweeping.sound.submit sweeping.fresh
    rw [submitted] at trades represents soundNext
    obtain ⟨tracks, settled, accepted, active⟩ := sweeping.tracks.settleTrade sweeping.sound current
      incoming.id traded represents
    have replaced : (book.setSide side (maker :: rest)).fillHead side maker rest traded =
        book.setSide side (afterFill maker rest traded) := by
      simp only [Book.fillHead, side]
      cases incoming.side <;> rfl
    rw [replaced] at tracks soundNext
    let next : StpState M :=
      { manager := ({ state.manager with
          matcher := (IMatcher.matchOrder state.manager.matcher probe).2 } :
            OrderManager M).settleTrade (tradeWith incoming.id maker traded)
        allTrades := state.allTrades ++ [tradeWith incoming.id maker traded]
        filled := state.filled + traded
        remaining := state.remaining - traded }
    have inside : maker.id ∈ state.manager.activeOrderIds := by
      rw [sweeping.tracks.active]
      exact fun fresh => fresh side maker member rfl
    refine ⟨next, ?_, ⟨soundNext, tracks, ?_, ?_, ?_, ?_⟩, rfl, rfl, ?_, ?_⟩
    · have guard : state.remaining > 0 := by grind
      simp only [stpPass, guard, ↓reduceIte, best, reach]
      rw [if_neg (by rw [account]; exact other), quantity]
      rw [show (IMatcher.matchOrder state.manager.matcher probe).1 = _ from trades]
      rfl
    · have kept := (sweeping.tracks.active incoming.id).not
      have gone := (tracks.active incoming.id).not
      rw [not_not] at kept gone
      refine gone.mp ?_
      rw [active]
      intro listed
      refine kept.mpr sweeping.fresh ?_
      split at listed
      · exact ExtTreeSet.mem_of_mem_erase listed
      · exact listed
    · rw [settled, sweeping.records, List.foldl_append]
      rfl
    · exact accepted.trans sweeping.known
    · exact counters_step sweeping.counted
    · have nonempty : state.manager.activeOrderIds.size ≠ 0 := by
        intro empty
        rw [← ExtTreeSet.eq_empty_iff_size_eq_zero] at empty
        simp [empty] at inside
      omega
    · intro fits
      have least : traded = maker.quantity := by
        simp only [traded, UInt64.min_def]
        grind
      have erased : next.manager.activeOrderIds = state.manager.activeOrderIds.erase maker.id := by
        change (OrderManager.settleTrade _ _).activeOrderIds = _
        rw [active, if_pos (by rw [least, UInt64.sub_self])]
      have nonempty : state.manager.activeOrderIds.size ≠ 0 := by
        intro empty
        rw [← ExtTreeSet.eq_empty_iff_size_eq_zero] at empty
        simp [empty] at inside
      rw [erased, ExtTreeSet.size_erase, if_pos (ExtTreeSet.contains_iff_mem.mpr inside)]
      omega

/-- An order that crosses nothing rests without a trade. -/
theorem submit_of_not_cross {order : Order} (positive : order.quantity ≠ 0)
    (clear : Ledger.wouldCross book order = false) : book.submit order = ([], book.rest order) := by
  have stopped : sweep order.id (fun maker => !crosses order.side order.price maker.price)
      order.quantity (book.side order.side.opposite) =
        { trades := [], rest := book.side order.side.opposite, left := order.quantity } := by
    unfold Ledger.wouldCross at clear
    cases orders : book.side order.side.opposite with
    | nil => exact sweep_nil _
    | cons maker rest =>
      rw [orders, List.any_eq_false] at clear
      apply sweep_stop
      simpa using clear maker List.mem_cons_self
  simp only [Book.submit, stopped, Book.setSide_side, positive, ↓reduceIte]

/-- An order enters a matcher that holds a book, under a new id and without crossing it. -/
structure EntersClear (matcher : M) (book : Book) (order : Order) : Prop where
  /-- The matcher holds the book. -/
  represents : Represents matcher book
  /-- The book is sound. -/
  sound : book.Sound
  /-- The id is new. -/
  fresh : book.Fresh order.id
  /-- The order is not empty. -/
  positive : order.quantity ≠ 0
  /-- It crosses nothing. -/
  clear : Ledger.wouldCross book order = false

/-- An order that enters clear trades nothing. -/
theorem EntersClear.trades {matcher : M} {order : Order} (enters : EntersClear matcher book order) :
    (IMatcher.matchOrder matcher order).1 = [] := by
  have trades :=
    (LawfulMatcher.matchOrder_spec order enters.represents enters.sound enters.fresh).1
  rw [submit_of_not_cross enters.positive enters.clear] at trades
  exact trades

/-- An order that enters clear rests. -/
theorem EntersClear.rests {matcher : M} {order : Order} (enters : EntersClear matcher book order) :
    Represents (IMatcher.addOrder matcher order) (book.rest order) := by
  have spec := LawfulMatcher.addOrder_spec order enters.represents enters.sound enters.fresh
  rw [submit_of_not_cross enters.positive enters.clear] at spec
  exact spec

/-- An order that crosses nothing crosses none of the orders. -/
theorem not_crosses_of_clear {order : Order} (clear : Ledger.wouldCross book order = false) :
    ∀ other ∈ book.side order.side.opposite,
      crosses order.side order.price other.price = false := by
  intro other member
  have none_ := List.any_eq_false.mp clear other member
  simpa using none_

/-- A record that agrees with an arrival covers it. -/
theorem covers_rest {records : IdMap Order} (covers : Ledger.Covers records book)
    {order record : Order} (fresh : book.Fresh order.id) (agrees : record.Agrees order) :
    Ledger.Covers (records.insert order.id record) (book.rest order) := by
  have old := covers_insert covers fresh record
  refine Book.forall_side order.side ?_ ?_
  · intro other member
    rcases (Book.mem_side_rest rfl).mp member with rfl | member
    · exact ⟨record, ExtTreeMap.getElem?_insert_self, agrees⟩
    · exact old order.side other member
  · intro other member
    rw [Book.side_opposite_rest] at member
    exact old _ other member

/-- Entering an order that crosses nothing into the matcher, the shadow, the active ids and the
records. -/
theorem Tracks.rest (tracks : manager.Tracks book) (sound : book.Sound) {order record : Order}
    (fresh : book.Fresh order.id) (positive : order.quantity ≠ 0)
    (clear : Ledger.wouldCross book order = false) (agrees : record.Agrees order)
    {next : OrderManager M}
    (matcher : next.matcher = IMatcher.addOrder manager.matcher order)
    (shadows : next.Shadows (book.rest order))
    (active : next.activeOrderIds = manager.activeOrderIds.insert order.id)
    (orders : next.orders = manager.orders.insert order.id record) :
    next.Tracks (book.rest order) := by
  constructor
  · have enters : EntersClear manager.matcher book order :=
      ⟨tracks.represents, sound, fresh, positive, clear⟩
    rw [matcher]
    exact enters.rests
  · exact shadows
  · intro id
    rw [active, ExtTreeSet.mem_insert, tracks.active, Book.fresh_rest, Std.compare_eq_iff_eq]
    by_cases same : order.id = id
    · simp [same]
    · simp [same, Ne.symm same]
  · rw [orders]
    exact covers_rest tracks.covers fresh agrees

/-- The manager keeps the ledger. -/
structure Mirrors (manager : OrderManager M) (ledger : Ledger) : Prop where
  /-- The ledger is consistent. -/
  consistent : ledger.Consistent
  /-- The bookkeeping is in step with its book. -/
  tracks : manager.Tracks ledger.book
  /-- The accepted ids are those of the ledger. -/
  known : manager.allKnownOrderIds = ledger.known
  /-- The recorded orders are those of the ledger. -/
  records : manager.orders = ledger.records

/-- A manager over a matcher that holds nothing keeps the empty ledger. -/
theorem mirrors_init {matcher : M} (represents : Represents matcher Book.empty) :
    (init matcher).Mirrors Ledger.empty where
  consistent := Ledger.consistent_empty
  tracks :=
    { represents := represents
      shadows := shadows_init matcher
      active := by
        intro id
        have fresh : Ledger.empty.book.Fresh id := by
          intro side order member
          cases side <;> simp [Ledger.empty, Book.empty, Book.side] at member
        simp [init, fresh]
      covers := Ledger.consistent_empty.covers }
  known := rfl
  records := rfl

variable {ledger : Ledger}

/-- An id that was never accepted does not rest. -/
theorem Mirrors.fresh_of_unknown (mirrors : manager.Mirrors ledger) {id : OrderId}
    (unknown : id ∉ ledger.known) : ledger.book.Fresh id := by
  intro side order member same
  exact unknown (same ▸ mirrors.consistent.known side order member)

/-- The checks of a new order that was accepted. -/
theorem validateNewOrder_none {order : Order} {known : IdSet}
    (accepted : validateNewOrder order known = .none) :
    order.quantity ≠ 0 ∧ ¬ (order.type = .limit ∧ order.price = 0) ∧ order.id ∉ known := by
  unfold validateNewOrder at accepted
  by_cases zero : order.quantity = 0
  · simp [zero] at accepted
  by_cases free : order.type = .limit ∧ order.price = 0
  · simp [zero, free] at accepted
  by_cases listed : order.id ∈ known
  · simp [zero, free, listed] at accepted
  · exact ⟨zero, free, listed⟩

/-- The loop of `matchWithStp` starts at the other side of the book. -/
theorem Mirrors.sweeping_start (mirrors : manager.Mirrors ledger) {order : Order}
    (fresh : ledger.book.Fresh order.id) (known : IdSet) :
    Sweeping { order with price := order.matchPrice } ledger.records known ledger.book
      { manager := ({ manager with allKnownOrderIds := known } : OrderManager M)
        allTrades := []
        filled := 0
        remaining := order.quantity } (ledger.book.side order.side.opposite) := by
  have tracks := mirrors.tracks
  constructor
  · rw [Book.setSide_side]
    exact mirrors.consistent.sound
  · rw [Book.setSide_side]
    exact ⟨tracks.represents, tracks.shadows.of_eq rfl rfl, tracks.active, tracks.covers⟩
  · rw [Book.setSide_side]
    exact fresh
  · exact mirrors.records
  · rfl
  · exact (UInt64.sub_self _).symm

/-- `matchWithStp` sweeps the other side. -/
theorem Mirrors.matchWithStp (mirrors : manager.Mirrors ledger) {order : Order}
    (fresh : ledger.book.Fresh order.id) (known : IdSet) :
    let toMatch := { order with price := order.matchPrice }
    let final := ({ manager with allKnownOrderIds := known } : OrderManager M).matchWithStp toMatch
    Sweeping toMatch ledger.records known ledger.book final (ledger.fillOf order).rest ∧
      final.remaining = (ledger.fillOf order).left ∧
      final.allTrades = (ledger.fillOf order).trades := by
  intro toMatch final
  exact (stpPass_spec toMatch ledger.records known ledger.book).sweeps
    (mirrors.sweeping_start fresh known) _ (Nat.lt_succ_self _)

/-- Bookkeeping in step with a sound book of accepted ids makes a ledger. -/
theorem Tracks.mirrors (tracks : manager.Tracks ledger.book) (sound : ledger.book.Sound)
    (accepted : ∀ side, ∀ order ∈ ledger.book.side side, order.id ∈ ledger.known)
    (known : manager.allKnownOrderIds = ledger.known) (records : manager.orders = ledger.records) :
    manager.Mirrors ledger where
  consistent :=
    { sound := sound
      covers := records ▸ tracks.covers
      known := accepted }
  tracks := tracks
  known := known
  records := records

/-- `finishMatch` on a sweep: the remainder rests exactly when the ledger says so. -/
theorem finishMatch_eq {order : Order} {matched : StpState M} {left : Quantity} {rests : Bool}
    (filled : matched.filled = order.quantity - left)
    (decided : rests = (order.mayRest && decide (left ≠ 0) && !matched.manager.wouldCross order)) :
    finishMatch order matched =
      let resting : Order := { order with
        quantity := left
        status := if order.quantity - left > 0 then .partiallyFilled else .new }
      let rested : OrderManager M :=
        if rests then
          ({ matched.manager with
            matcher := IMatcher.addOrder matched.manager.matcher resting
            activeOrderIds := matched.manager.activeOrderIds.insert order.id } :
              OrderManager M).trackResting resting
        else matched.manager
      { rested with
        orders := rested.orders.insert order.id { order with
          quantity := left
          status := statusAfter left (order.quantity - left) rests } } := by
  have remaining : order.quantity - matched.filled = left := by
    rw [filled]
    grind
  have positive : decide (left > 0) = decide (left ≠ 0) := by
    apply decide_eq_decide.mpr
    grind
  subst decided
  simp only [finishMatch, remaining, positive]
  simp only [filled]

/-- The sweep behind an accepted `matchOrder`, and what its end decides. -/
structure Matched (manager : OrderManager M) (ledger : Ledger) (order : Order)
    (final : StpState M) : Prop where
  /-- The state the loop ended in. -/
  ended : final = ({ manager with
    allKnownOrderIds := manager.allKnownOrderIds.insert order.id } :
      OrderManager M).matchWithStp { order with price := order.matchPrice }
  /-- The loop swept the other side. -/
  sweeping : Sweeping { order with price := order.matchPrice } ledger.records
    (ledger.known.insert order.id) ledger.book final (ledger.fillOf order).rest
  /-- The trades are those of the sweep. -/
  trades : final.allTrades = (ledger.fillOf order).trades
  /-- What was filled. -/
  filled : final.filled = order.quantity - (ledger.fillOf order).left
  /-- Whether the remainder rests. -/
  decided : ledger.rests order = (order.mayRest &&
    decide ((ledger.fillOf order).left ≠ 0) && !final.manager.wouldCross order)
  /-- What the call returns. -/
  result : manager.matchOrder order =
    ({ trades := final.allTrades, accept := .ok }, finishMatch order final)

/-- An accepted `matchOrder` sweeps and decides as the ledger does. -/
theorem Mirrors.matched (mirrors : manager.Mirrors ledger) {order : Order}
    (accepted : validateNewOrder order ledger.known = .none) :
    ∃ final, Matched manager ledger order final := by
  have fresh := mirrors.fresh_of_unknown (validateNewOrder_none accepted).2.2
  let known := manager.allKnownOrderIds.insert order.id
  let final := ({ manager with allKnownOrderIds := known } : OrderManager M).matchWithStp
    { order with price := order.matchPrice }
  obtain ⟨sweeping, remaining, trades⟩ := mirrors.matchWithStp fresh known
  have filled : final.filled = order.quantity - (ledger.fillOf order).left := by
    have counted := sweeping.counted
    rw [remaining] at counted
    exact counted
  have crossed : final.manager.wouldCross order = Ledger.wouldCross (ledger.swept order) order :=
    sweeping.tracks.shadows.wouldCross_eq sweeping.sound order
  have reason : validateNewOrder order manager.allKnownOrderIds = .none := by
    rw [mirrors.known]
    exact accepted
  refine ⟨final, rfl, ?_, trades, filled, ?_, ?_⟩
  · rw [← mirrors.known]
    exact sweeping
  · rw [crossed]
    rfl
  · simp only [OrderManager.matchOrder, reason]
    rfl

/-- Matching an accepted order: the trades of the sweep, and the ledger with the order entered. -/
theorem Mirrors.enter (mirrors : manager.Mirrors ledger) {order : Order}
    (accepted : validateNewOrder order ledger.known = .none) :
    (manager.matchOrder order).1 = { trades := (ledger.fillOf order).trades, accept := .ok } ∧
      (manager.matchOrder order).2.Mirrors (ledger.enter order) := by
  obtain ⟨final, matched⟩ := mirrors.matched accepted
  have sweeping := matched.sweeping
  rw [matched.result, finishMatch_eq matched.filled matched.decided]
  refine ⟨by rw [matched.trades], ?_⟩
  have sweptKnown : ∀ side, ∀ other ∈ (ledger.swept order).side side,
      other.id ∈ ledger.known.insert order.id := by
    intro side other member
    obtain ⟨maker, old, equal⟩ := Ledger.mem_swept member
    have listed := mirrors.consistent.known side maker old
    rw [← equal]
    exact ExtTreeSet.mem_insert.mpr (.inr listed)
  have recordsAfter : final.manager.orders =
      (ledger.fillOf order).trades.foldl settle ledger.records := by
    rw [← matched.trades]
    exact sweeping.records
  have sound : (ledger.swept order).Sound := sweeping.sound
  have unused : (ledger.swept order).Fresh order.id := sweeping.fresh
  cases resting : ledger.rests order with
  | false =>
    have book : (ledger.enter order).book = ledger.swept order := by
      simp only [Ledger.enter, resting, Bool.false_eq_true, ↓reduceIte]
    simp only [Bool.false_eq_true, ↓reduceIte]
    apply Tracks.mirrors
    · rw [book]
      exact ⟨sweeping.tracks.represents, sweeping.tracks.shadows.of_eq rfl rfl,
        sweeping.tracks.active, covers_insert sweeping.tracks.covers unused _⟩
    · rw [book]
      exact sound
    · rw [book]
      exact sweptKnown
    · exact sweeping.known
    · simp only [Ledger.enter, resting, recordsAfter]
  | true =>
    have book : (ledger.enter order).book =
        (ledger.swept order).rest (ledger.remainder order) := by
      simp only [Ledger.enter, resting, ↓reduceIte]
    have rested := resting
    simp only [Ledger.rests, Bool.and_eq_true, decide_eq_true_eq, Bool.not_eq_true'] at resting
    obtain ⟨⟨_, left⟩, clear⟩ := resting
    have clearRest : Ledger.wouldCross (ledger.swept order) (ledger.remainder order) = false :=
      clear
    have soundRest : ((ledger.swept order).rest (ledger.remainder order)).Sound :=
      sound.rest unused left (not_crosses_of_clear clearRest)
    have freshRest : (ledger.swept order).Fresh (ledger.remainder order).id := unused
    have leftRest : (ledger.remainder order).quantity ≠ 0 := left
    let record : Order := { order with
      quantity := (ledger.fillOf order).left
      status := statusAfter (ledger.fillOf order).left
        (order.quantity - (ledger.fillOf order).left) true }
    have agrees : record.Agrees (ledger.remainder order) := rfl
    have untracked : ({ final.manager with
        matcher := IMatcher.addOrder final.manager.matcher (ledger.remainder order)
        activeOrderIds := final.manager.activeOrderIds.insert order.id } :
          OrderManager M).Shadows (ledger.swept order) := sweeping.tracks.shadows.of_eq rfl rfl
    have shadows := untracked.trackResting sound (ledger.remainder order)
    simp only [↓reduceIte]
    apply Tracks.mirrors
    · rw [book]
      apply sweeping.tracks.rest sound freshRest leftRest clearRest agrees
      · rw [matcher_trackResting]
        rfl
      · exact shadows.of_eq rfl rfl
      · rw [activeOrderIds_trackResting]
        rfl
      · rw [orders_trackResting]
        rfl
    · rw [book]
      exact soundRest
    · rw [book]
      refine Book.forall_side order.side ?_ ?_
      · intro other member
        rcases (Book.mem_side_rest rfl).mp member with rfl | member
        · exact ExtTreeSet.mem_insert_self
        · exact sweptKnown order.side other member
      · intro other member
        have opposite := Book.side_opposite_rest (ledger.swept order) (ledger.remainder order)
        exact sweptKnown order.side.opposite other (opposite ▸ member)
    · rw [allKnownOrderIds_trackResting]
      exact sweeping.known
    · rw [orders_trackResting, recordsAfter]
      simp only [Ledger.enter, rested]

end OrderManager

end Titan
