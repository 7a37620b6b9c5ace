import TitanEngine.Exchange.Lifecycle

/-!
# Nobody jumps the queue

Of two orders that rest on one side the one ahead has the better price, or the same price and was
there first. Whatever other orders come and go, it stays ahead: nothing is traded with the second
before all of the first is, unless the first is cancelled or one of the two is amended.
-/

namespace Titan

open Library Std OrderManager

/-- The quantity that trades take from a resting order. -/
def takenFrom (id : OrderId) (trades : List Trade) : Nat :=
  totalTraded (trades.filter (fun trade => trade.restingOrderId == id))

theorem takenFrom_append (id : OrderId) (early late : List Trade) :
    takenFrom id (early ++ late) = takenFrom id early + takenFrom id late := by
  simp only [takenFrom, totalTraded, List.filter_append, List.map_append, List.sum_append]

theorem takenFrom_cons (id : OrderId) (trade : Trade) (trades : List Trade) :
    takenFrom id (trade :: trades) =
      (if trade.restingOrderId = id then trade.quantity.toNat else 0) + takenFrom id trades := by
  by_cases own : trade.restingOrderId = id
  · simp [takenFrom, totalTraded, own]
  · simp [takenFrom, totalTraded, own]

/-- A trade of an incoming order takes its quantity from the resting one. -/
theorem takenFrom_tradeWith (id taker : OrderId) (maker : Order) (quantity : Quantity)
    (trades : List Trade) :
    takenFrom id (tradeWith taker maker quantity :: trades) =
      (if maker.id = id then quantity.toNat else 0) + takenFrom id trades :=
  takenFrom_cons id (tradeWith taker maker quantity) trades

/-- Trades with other orders take nothing. -/
theorem takenFrom_none {id : OrderId} {trades : List Trade}
    (none_ : ∀ trade ∈ trades, trade.restingOrderId ≠ id) : takenFrom id trades = 0 := by
  have empty : trades.filter (fun trade => trade.restingOrderId == id) = [] := by
    rw [List.filter_eq_nil_iff]
    intro trade member
    simpa using none_ trade member
  rw [takenFrom, empty]
  rfl

/-- The call neither cancels the first order nor amends one of the two. -/
def ManagerCall.Spares (first second : OrderId) : ManagerCall → Prop
  | addOrder _ => True
  | matchOrder _ => True
  | cancelOrder id => id ≠ first
  | cancelReplace oldId _ => oldId ≠ first ∧ oldId ≠ second

instance (first second : OrderId) : (call : ManagerCall) → Decidable (call.Spares first second)
  | .addOrder _ => .isTrue trivial
  | .matchOrder _ => .isTrue trivial
  | .cancelOrder id => inferInstanceAs (Decidable (id ≠ first))
  | .cancelReplace oldId _ => inferInstanceAs (Decidable (oldId ≠ first ∧ oldId ≠ second))

/-- Trades take all of the first order before they take anything of the second. -/
def Precedes (first second : Order) (trades : List Trade) : Prop :=
  ∃ early late, trades = early ++ late ∧
    (∀ trade ∈ early, trade.restingOrderId ≠ second.id) ∧
    takenFrom first.id early = first.quantity.toNat ∧
    ∀ trade ∈ late, trade.restingOrderId ≠ first.id

section Sweep

variable {taker : OrderId} {stops : Order → Bool} {first second : Order}

/-- A trade with another order changes nothing about what precedes. -/
theorem Precedes.cons {trades : List Trade} (precedes : Precedes first second trades)
    {trade : Trade} (notFirst : trade.restingOrderId ≠ first.id)
    (notSecond : trade.restingOrderId ≠ second.id) : Precedes first second (trade :: trades) := by
  obtain ⟨early, late, rfl, spared, whole, done⟩ := precedes
  refine ⟨trade :: early, late, rfl, ?_, ?_, done⟩
  · intro other member
    rcases List.mem_cons.mp member with rfl | member
    · exact notSecond
    · exact spared other member
  · rw [takenFrom_cons, if_neg notFirst, Nat.zero_add, whole]

/-- Every trade of a sweep is with one of the orders. -/
theorem restingOrderId_sweep {quantity : Quantity} {makers : List Order} {trade : Trade}
    (member : trade ∈ (sweep taker stops quantity makers).trades) :
    ∃ maker ∈ makers, maker.id = trade.restingOrderId :=
  List.mem_map.mp ((sweep_trades_in_order quantity makers).subset (List.mem_map_of_mem member))

/-- A sweep comes to the first order first: it leaves the second alone, or it consumes all of the
first before. -/
theorem sweep_priority (taker : OrderId) (stops : Order → Bool) (quantity : Quantity)
    {makers : List Order} (distinct : (makers.map Order.id).Nodup)
    (ahead : [first, second].Sublist makers) :
    (∃ kept : Order, kept.id = first.id ∧
        [kept, second].Sublist (sweep taker stops quantity makers).rest ∧
        kept.quantity.toNat + takenFrom first.id (sweep taker stops quantity makers).trades =
          first.quantity.toNat ∧
        ∀ trade ∈ (sweep taker stops quantity makers).trades,
          trade.restingOrderId ≠ second.id) ∨
      (Precedes first second (sweep taker stops quantity makers).trades ∧
        ∀ other ∈ (sweep taker stops quantity makers).rest, other.id ≠ first.id) := by
  induction makers generalizing quantity with
  | nil => cases ahead
  | cons maker rest ih =>
    obtain ⟨different, distinctRest⟩ := List.nodup_cons.mp distinct
    have apart : ∀ other ∈ rest, other.id ≠ maker.id :=
      fun other inside same => different (List.mem_map.mpr ⟨other, inside, same⟩)
    by_cases zero : quantity = 0
    · left
      rw [zero, sweep_zero]
      exact ⟨first, rfl, ahead, rfl, by simp⟩
    cases stop : stops maker with
    | true =>
      left
      rw [sweep_stop stop]
      exact ⟨first, rfl, ahead, rfl, by simp⟩
    | false =>
      by_cases fits : maker.quantity ≤ quantity
      · rw [sweep_consume stop zero fits]
        cases ahead with
        | cons _ below =>
          have notFirst := (apart first (below.subset List.mem_cons_self)).symm
          have notSecond := (apart second (below.subset (by simp))).symm
          rcases ih (quantity - maker.quantity) distinctRest below with
            ⟨kept, same, sub, left, spared⟩ | ⟨precedes, gone⟩
          · refine .inl ⟨kept, same, sub, ?_, ?_⟩
            · rw [takenFrom_tradeWith, if_neg notFirst, Nat.zero_add]
              exact left
            · intro trade member
              rcases List.mem_cons.mp member with rfl | member
              · exact notSecond
              · exact spared trade member
          · exact .inr ⟨precedes.cons notFirst notSecond, gone⟩
        | cons_cons _ behind =>
          have second_ : second ∈ rest := behind.subset List.mem_cons_self
          refine .inr ⟨⟨[tradeWith taker first first.quantity], _, rfl, ?_, ?_, ?_⟩, ?_⟩
          · intro trade member
            rw [List.mem_singleton] at member
            subst member
            exact (apart second second_).symm
          · rw [takenFrom_tradeWith, if_pos rfl]
            rfl
          · intro trade member
            obtain ⟨other, inside, with_⟩ := restingOrderId_sweep member
            rw [← with_]
            exact apart other inside
          · intro other member
            obtain ⟨old, inside, equal⟩ := exists_mem_of_mem_sweep_rest member
            rw [← equal]
            exact apart old inside
      · left
        rw [sweep_reduce stop zero fits]
        cases ahead with
        | cons _ below =>
          have notFirst := (apart first (below.subset List.mem_cons_self)).symm
          have notSecond := (apart second (below.subset (by simp))).symm
          refine ⟨first, rfl, below.cons _, ?_, ?_⟩
          · rw [takenFrom_tradeWith, if_neg notFirst]
            rfl
          · intro trade member
            rw [List.mem_singleton] at member
            subst member
            exact notSecond
        | cons_cons _ behind =>
          have second_ : second ∈ rest := behind.subset List.mem_cons_self
          have less := UInt64.le_of_lt (UInt64.not_le.mp fits)
          refine ⟨{ first with quantity := first.quantity - quantity }, rfl,
            behind.cons_cons _, ?_, ?_⟩
          · have small := UInt64.le_iff_toNat_le.mp less
            have taken : takenFrom first.id [tradeWith taker first quantity] = quantity.toNat := by
              rw [takenFrom_tradeWith, if_pos rfl]
              rfl
            rw [taken]
            show (first.quantity - quantity).toNat + quantity.toNat = _
            rw [UInt64.toNat_sub_of_le _ _ less]
            omega
          · intro trade member
            rw [List.mem_singleton] at member
            subst member
            exact (apart second second_).symm

end Sweep

namespace Ledger

/-- The id was accepted and rests no more. -/
def Gone (ledger : Ledger) (id : OrderId) : Prop := id ∈ ledger.known ∧ ledger.book.Fresh id

/-- What becomes of two orders of a side, the first ahead of the second. -/
inductive Priority (side : Side) (first second : Order) (trades : List Trade) (next : Ledger) :
    Prop
  /-- Both rest as they stood, and only the first may have been traded with. -/
  | waits {kept behind : Order} (sameFirst : kept.id = first.id)
      (sameSecond : behind.id = second.id)
      (ahead : [kept, behind].Sublist (next.book.side side))
      (left : kept.quantity.toNat + takenFrom first.id trades = first.quantity.toNat)
      (spared : ∀ trade ∈ trades, trade.restingOrderId ≠ second.id)
  /-- The second left untraded. -/
  | withdrawn (gone : next.Gone second.id)
      (spared : ∀ trade ∈ trades, trade.restingOrderId ≠ second.id)
  /-- The first was consumed before the second was traded with. -/
  | filled (gone : next.Gone first.id) (precedes : Precedes first second trades)

variable {ledger next : Ledger} {side : Side} {first second : Order}

/-- What nothing is traded with waits. -/
theorem Priority.untraded {trades : List Trade} {kept behind : Order}
    (ahead : [kept, behind].Sublist (next.book.side side)) (sameFirst : kept.id = first.id)
    (sameSecond : behind.id = second.id) (quantity : kept.quantity = first.quantity)
    (notFirst : ∀ trade ∈ trades, trade.restingOrderId ≠ first.id)
    (notSecond : ∀ trade ∈ trades, trade.restingOrderId ≠ second.id) :
    Priority side first second trades next :=
  .waits sameFirst sameSecond ahead (by rw [takenFrom_none notFirst, quantity, Nat.add_zero])
    notSecond

/-- An arrival moves nothing. -/
theorem sublist_rest (book : Book) (order : Order) (side : Side) :
    (book.side side).Sublist ((book.rest order).side side) := by
  revert side
  refine Book.forall_side order.side ?_ ?_
  · rw [Book.rest, Book.side_setSide_same]
    exact sublist_arrive _ _
  · rw [Book.side_opposite_rest]

/-- A cancel moves no other order. -/
theorem sublist_cancel {book : Book} {id : OrderId}
    (ahead : [first, second].Sublist (book.side side)) (notFirst : id ≠ first.id)
    (notSecond : id ≠ second.id) : [first, second].Sublist ((book.cancel id).side side) := by
  have kept : [first, second].filter (fun order => order.id != id) = [first, second] := by
    simp [notFirst.symm, notSecond.symm]
  rw [Book.side_cancel, ← kept]
  exact ahead.filter _

/-- An entry moves nothing on its own side. -/
theorem sublist_enter_own (ledger : Ledger) (order : Order) :
    (ledger.book.side order.side).Sublist ((ledger.enter order).book.side order.side) := by
  have swept : (ledger.swept order).side order.side = ledger.book.side order.side :=
    Book.side_setSide_opposite _ _ _
  rw [← swept]
  unfold enter
  cases ledger.rests order with
  | true => exact sublist_rest (ledger.swept order) (ledger.remainder order) order.side
  | false => exact List.Sublist.refl _

/-- The other side after an entry is what the sweep left. -/
theorem side_enter_opposite (ledger : Ledger) (order : Order) :
    (ledger.enter order).book.side order.side.opposite = (ledger.fillOf order).rest := by
  have swept : (ledger.swept order).side order.side.opposite = (ledger.fillOf order).rest :=
    Book.side_setSide_same _ _ _
  rw [← swept]
  unfold enter
  cases ledger.rests order with
  | true => exact Book.side_opposite_rest (ledger.swept order) (ledger.remainder order)
  | false => rfl

/-- An entry lets the first of two orders go first. -/
theorem Consistent.priority_enter (consistent : ledger.Consistent) {order : Order}
    (unknown : order.id ∉ ledger.known) (ahead : [first, second].Sublist (ledger.book.side side)) :
    Priority side first second (ledger.fillOf order).trades (ledger.enter order) := by
  have sound := consistent.sound
  have either : ∀ side, [first, second].Sublist (ledger.book.side side) →
      Priority side first second (ledger.fillOf order).trades (ledger.enter order) := by
    refine Book.forall_side order.side ?_ ?_
    · intro ahead
      have apart : ∀ other ∈ ledger.book.side order.side,
          ∀ trade ∈ (ledger.fillOf order).trades, trade.restingOrderId ≠ other.id := by
        intro other resting trade member
        obtain ⟨maker, inside, with_, _⟩ := consistent.trade_maker member
        rw [with_]
        exact (sound.id_ne resting inside).symm
      exact .untraded (ahead.trans (ledger.sublist_enter_own order)) rfl rfl rfl
        (apart first (ahead.subset List.mem_cons_self)) (apart second (ahead.subset (by simp)))
    · intro ahead
      have firstRests := ahead.subset List.mem_cons_self
      rcases sweep_priority order.id order.stoppedBy order.quantity
          (sound.distinct order.side.opposite) ahead with
        ⟨kept, same, sub, left, spared⟩ | ⟨precedes, gone⟩
      · refine .waits same rfl ?_ left spared
        rw [side_enter_opposite]
        exact sub
      · have known := consistent.known _ first firstRests
        refine .filled ⟨?_, ?_⟩ precedes
        · exact ExtTreeSet.mem_insert.mpr (.inr known)
        · refine (fresh_enter ledger order first.id).mpr ⟨fun _ same => unknown (same ▸ known), ?_⟩
          refine (fresh_swept ledger order first.id).mpr ⟨?_, gone⟩
          exact fun other own => sound.id_ne own firstRests
  exact either side ahead

/-- A call leaves what is gone gone, and trades with it no more. -/
theorem Step.gone {call : ManagerCall} {result : MatchResult}
    (step : ledger.Step call result next) (consistent : ledger.Consistent) {id : OrderId}
    (gone : ledger.Gone id) :
    next.Gone id ∧ ∀ trade ∈ tradesOf ledger call, trade.restingOrderId ≠ id := by
  obtain ⟨known, fresh⟩ := gone
  have still : id ∈ next.known := (step.mem_known id).mpr (.inl known)
  have entered : ∀ order, validateNewOrder order ledger.known = .none →
      (ledger.enter order).book.Fresh id ∧
        ∀ trade ∈ (ledger.fillOf order).trades, trade.restingOrderId ≠ id := by
    intro order valid
    have unknown := (validateNewOrder_none valid).2.2
    refine ⟨?_, ?_⟩
    · refine (fresh_enter ledger order id).mpr ⟨fun _ same => unknown (same ▸ known), ?_⟩
      refine (fresh_swept ledger order id).mpr ⟨fresh order.side, ?_⟩
      intro other member
      obtain ⟨maker, inside, equal⟩ := exists_mem_of_mem_sweep_rest member
      rw [← equal]
      exact fresh order.side.opposite maker inside
    · intro trade member
      obtain ⟨maker, inside, with_, _⟩ := consistent.trade_maker member
      rw [with_]
      exact fresh order.side.opposite maker inside
  cases step with
  | refused idle =>
    rw [idle]
    exact ⟨⟨known, fresh⟩, by simp⟩
  | @added order plain valid =>
    rw [tradesOf_added plain valid]
    exact ⟨⟨still, (entered order valid).1⟩, (entered order valid).2⟩
  | @matched order valid =>
    rw [tradesOf_matched valid]
    exact ⟨⟨still, (entered order valid).1⟩, (entered order valid).2⟩
  | cancelled held =>
    exact ⟨⟨still, Book.fresh_cancel.mpr (.inr fresh)⟩, List.forall_mem_nil _⟩
  | @amended newOrder held plain valid clear =>
    have rests : ledger.holds ({ newOrder with status := .new } : Order).id = true := held
    exact ⟨⟨still, (consistent.fresh_amend rests id).mpr fresh⟩, List.forall_mem_nil _⟩

/-- Orders of one face agree in id and quantity. -/
theorem fields_of_face_eq {left right : Order} (same : left.face = right.face) :
    left.id = right.id ∧ left.quantity = right.quantity :=
  ⟨(congrArg Order.id same : left.face.id = _),
    (congrArg Order.quantity same : left.face.quantity = _)⟩

/-- An amendment of another order moves neither of two. -/
theorem Consistent.priority_amend (consistent : ledger.Consistent) {renewed : Order}
    (ahead : [first, second].Sublist (ledger.book.side side)) (notFirst : renewed.id ≠ first.id)
    (notSecond : renewed.id ≠ second.id) :
    Priority side first second [] (ledger.amend renewed) := by
  have nothing : ∀ id, ∀ trade ∈ ([] : List Trade), trade.restingOrderId ≠ id := by simp
  unfold amend
  by_cases keeps : renewed.price = (ledger.recordOf renewed.id).price ∧
      renewed.quantity ≤ (ledger.recordOf renewed.id).quantity
  · simp only [if_pos keeps]
    by_cases own : side = renewed.side
    · subst own
      -- the level is read back from the records, which show both orders as they rest
      let change := rereadOrder (ledger.records.insert renewed.id renewed) renewed.price
      obtain ⟨firstId, firstQuantity⟩ := fields_of_face_eq (consistent.face_rereadOrder
        (ahead.subset List.mem_cons_self) notFirst.symm renewed.price)
      obtain ⟨secondId, _⟩ := fields_of_face_eq (consistent.face_rereadOrder
        (ahead.subset (by simp)) notSecond.symm renewed.price)
      have changed : [change first, change second].Sublist
          ((reread ledger.book (ledger.records.insert renewed.id renewed) renewed.side
            renewed.price).side renewed.side) := by
        rw [reread, Book.side_setSide_same]
        exact ahead.map change
      exact .untraded changed firstId secondId firstQuantity (nothing _) (nothing _)
    · have other : side = renewed.side.opposite := by
        revert own
        cases side <;> cases renewed.side <;> simp [Side.opposite]
      subst other
      refine .untraded ?_ rfl rfl rfl (nothing _) (nothing _)
      rw [reread, Book.side_opposite_setSide]
      exact ahead
  · simp only [if_neg keeps]
    exact .untraded ((sublist_cancel ahead notFirst notSecond).trans
      (sublist_rest (ledger.book.cancel renewed.id) renewed side)) rfl rfl rfl (nothing _)
      (nothing _)

/-- A call that spares two orders lets the first of them go first. -/
theorem Step.priority {call : ManagerCall} {result : MatchResult}
    (step : ledger.Step call result next) (consistent : ledger.Consistent)
    (ahead : [first, second].Sublist (ledger.book.side side))
    (spares : call.Spares first.id second.id) :
    Priority side first second (tradesOf ledger call) next := by
  have untraded : ∀ {next : Ledger}, [first, second].Sublist (next.book.side side) →
      Priority side first second [] next :=
    fun stands => .untraded stands rfl rfl rfl (by simp) (by simp)
  cases step with
  | refused idle =>
    rw [idle]
    exact untraded ahead
  | @added order plain valid =>
    rw [tradesOf_added plain valid]
    exact consistent.priority_enter (validateNewOrder_none valid).2.2 ahead
  | @matched order valid =>
    rw [tradesOf_matched valid]
    exact consistent.priority_enter (validateNewOrder_none valid).2.2 ahead
  | @cancelled id held =>
    by_cases own : id = second.id
    · subst own
      have known := consistent.known_of_holds held
      exact .withdrawn ⟨known, Book.fresh_cancel.mpr (.inl rfl)⟩ (List.forall_mem_nil _)
    · exact untraded (sublist_cancel ahead spares own)
  | @amended newOrder held plain valid clear =>
    exact consistent.priority_amend ahead spares.1 spares.2

/-- The trades that calls execute. -/
def tradesAlong (ledger : Ledger) : List ManagerCall → List Trade
  | [] => []
  | call :: rest => tradesOf ledger call ++ tradesAlong (callLedger ledger call).2 rest

end Ledger

namespace OrderManager

open Ledger

section Lawful

variable {M : Type} [LawfulMatcher M] {manager : OrderManager M} {ledger : Ledger} {side : Side}
  {first second : Order}

/-- Calls leave what is gone gone, and trade with it no more. -/
theorem Mirrors.gone_run (mirrors : manager.Mirrors ledger) (calls : List ManagerCall)
    {id : OrderId}
    (gone : ledger.Gone id) :
    (Library.run callLedger ledger calls).2.Gone id ∧
      ∀ trade ∈ ledger.tradesAlong calls, trade.restingOrderId ≠ id := by
  induction calls generalizing manager ledger with
  | nil => exact ⟨gone, List.forall_mem_nil _⟩
  | cons call rest ih =>
    obtain ⟨still, spared⟩ := (ledger.step_of_call call).gone mirrors.consistent gone
    obtain ⟨final, later⟩ := ih (mirrors.call call).2 still
    exact ⟨final, List.forall_mem_append.mpr ⟨spared, later⟩⟩

/-- Calls that spare two orders let the first of them go first. -/
theorem Mirrors.priority_run (mirrors : manager.Mirrors ledger) (calls : List ManagerCall)
    (ahead : [first, second].Sublist (ledger.book.side side))
    (spares : ∀ call ∈ calls, call.Spares first.id second.id) :
    Priority side first second (ledger.tradesAlong calls)
      (Library.run callLedger ledger calls).2 := by
  induction calls generalizing manager ledger first second with
  | nil =>
    have nothing : ∀ id, ∀ trade ∈ ledger.tradesAlong [], trade.restingOrderId ≠ id :=
      fun _ => List.forall_mem_nil _
    exact .untraded ahead rfl rfl rfl (nothing _) (nothing _)
  | cons call rest ih =>
    have next := (mirrors.call call).2
    have step := (ledger.step_of_call call).priority mirrors.consistent ahead
      (spares call List.mem_cons_self)
    have later := fun other member => spares other (List.mem_cons_of_mem call member)
    have both : ∀ {id : OrderId}, (∀ trade ∈ tradesOf ledger call, trade.restingOrderId ≠ id) →
        (∀ trade ∈ (callLedger ledger call).2.tradesAlong rest, trade.restingOrderId ≠ id) →
        ∀ trade ∈ ledger.tradesAlong (call :: rest), trade.restingOrderId ≠ id :=
      fun now then_ => List.forall_mem_append.mpr ⟨now, then_⟩
    cases step with
    | @waits kept behind sameFirst sameSecond stands left spared =>
      rw [← sameFirst, ← sameSecond] at later
      have rest_ := ih next stands later
      cases rest_ with
      | @waits kept' behind' sameFirst' sameSecond' stands' left' spared' =>
        rw [sameSecond] at spared'
        rw [sameFirst] at left'
        refine .waits (sameFirst'.trans sameFirst) (sameSecond'.trans sameSecond) stands' ?_
          (both spared spared')
        rw [tradesAlong, takenFrom_append]
        omega
      | withdrawn gone spared' =>
        rw [sameSecond] at gone spared'
        exact .withdrawn gone (both spared spared')
      | filled gone precedes =>
        rw [sameFirst] at gone
        obtain ⟨early, late, split, spared', whole, done⟩ := precedes
        rw [sameSecond] at spared'
        rw [sameFirst] at whole done
        refine .filled gone ⟨tradesOf ledger call ++ early, late, ?_, ?_, ?_, done⟩
        · rw [tradesAlong, split, List.append_assoc]
        · exact List.forall_mem_append.mpr ⟨spared, spared'⟩
        · rw [takenFrom_append]
          omega
    | withdrawn gone spared =>
      obtain ⟨final, spared'⟩ := next.gone_run rest gone
      exact .withdrawn final (both spared spared')
    | filled gone precedes =>
      obtain ⟨final, done'⟩ := next.gone_run rest gone
      obtain ⟨early, late, split, spared, whole, done⟩ := precedes
      refine .filled final ⟨early, late ++ (callLedger ledger call).2.tradesAlong rest, ?_, spared,
        whole, ?_⟩
      · rw [tradesAlong, split, List.append_assoc]
      · exact List.forall_mem_append.mpr ⟨done, done'⟩

/-- The trades that calls execute go onto the tape. -/
theorem Mirrors.executed_run {manager : OrderManager (Recorded M)}
    (mirrors : manager.Mirrors ledger) (calls : List ManagerCall) :
    (Library.run callManager manager calls).2.matcher.executed =
      manager.matcher.executed ++ ledger.tradesAlong calls := by
  induction calls generalizing manager ledger with
  | nil => exact (List.append_nil _).symm
  | cons call rest ih =>
    obtain ⟨_, next⟩ := mirrors.call call
    show (Library.run callManager (callManager manager call).2 rest).2.matcher.executed = _
    rw [ih next, mirrors.executed_call call, List.append_assoc]
    rfl

end Lawful

/-- Two orders rest on one side, the first ahead of the second. Along any calls that neither cancel
the first nor amend one of the two, over either matcher, nothing is traded with the second, or
the first was consumed before; and while both rest, the first stays ahead. -/
theorem price_time_priority (allocator : SlabAllocator) (backend : MatcherBackend)
    (before calls : List ManagerCall) (side : Side) (first second : Order)
    (ahead : [first, second].Sublist (resting (run callManager
      (init (Recorded.start (makeMatcher allocator backend))) before).2.matcher side))
    (spares : ∀ call ∈ calls, call.Spares first.id second.id) :
    let manager := (run callManager (init (Recorded.start (makeMatcher allocator backend)))
      before).2
    let final := (run callManager manager calls).2
    ∃ trades, final.matcher.executed = manager.matcher.executed ++ trades ∧
      ((∀ trade ∈ trades, trade.restingOrderId ≠ second.id) ∨ Precedes first second trades) ∧
      (IsResting final.matcher first.id → IsResting final.matcher second.id →
        [first.id, second.id].Sublist ((resting final.matcher side).map Order.id)) := by
  intro manager final
  have mirrors : manager.Mirrors (run callLedger Ledger.empty before).2 :=
    mirrors_run (M := Recorded Matcher) (Matcher.holds_makeMatcher allocator backend) before
  obtain ⟨_, last⟩ := mirrors.run calls
  have book := resting_eq mirrors.tracks.represents mirrors.consistent.sound side
  have lastBook := resting_eq last.tracks.represents last.consistent.sound side
  have rests := fun id => isResting_iff last.tracks.represents last.consistent.sound id
  rw [book] at ahead
  refine ⟨(run callLedger Ledger.empty before).2.tradesAlong calls, mirrors.executed_run calls, ?_⟩
  cases mirrors.priority_run calls ahead spares with
  | @waits kept behind sameFirst sameSecond stands left spared =>
    refine ⟨.inl spared, fun _ _ => ?_⟩
    rw [lastBook, ← sameFirst, ← sameSecond]
    exact stands.map Order.id
  | withdrawn gone spared => exact ⟨.inl spared, fun _ still => absurd gone.2 ((rests _).mp still)⟩
  | filled gone precedes =>
    exact ⟨.inr precedes, fun still _ => absurd gone.2 ((rests _).mp still)⟩

/-- Two offers of one price, a third that comes between by its price, and buys that take the first
offer in two parts and some of the second. -/
theorem price_time_priority_two_parts :
    let before : List ManagerCall :=
      [.addOrder { id := 1, side := .sell, price := 10, quantity := 5, accountId := 7 },
        .addOrder { id := 2, side := .sell, price := 10, quantity := 4, accountId := 8 }]
    let calls : List ManagerCall :=
      [.matchOrder { id := 3, side := .buy, price := 10, quantity := 3 },
        .addOrder { id := 4, side := .sell, price := 9, quantity := 1 },
        .matchOrder { id := 5, side := .buy, price := 10, quantity := 4 }]
    let manager := (run callManager (init (Recorded.start
      (makeMatcher (.consecutive 2 (by decide)) .optimized))) before).2
    let final := (run callManager manager calls).2
    ∃ trades, final.matcher.executed = manager.matcher.executed ++ trades ∧
      ((∀ trade ∈ trades, trade.restingOrderId ≠ 2) ∨
        Precedes { id := 1, side := .sell, price := 10, quantity := 5, accountId := 7 }
          { id := 2, side := .sell, price := 10, quantity := 4, accountId := 8 } trades) := by
  intro before calls manager final
  obtain ⟨trades, tape, priority, _⟩ := price_time_priority (.consecutive 2 (by decide)) .optimized
    before calls .sell { id := 1, side := .sell, price := 10, quantity := 5, accountId := 7 }
    { id := 2, side := .sell, price := 10, quantity := 4, accountId := 8 } (by decide +kernel)
    (by decide)
  exact ⟨trades, tape, priority⟩

end OrderManager

end Titan
