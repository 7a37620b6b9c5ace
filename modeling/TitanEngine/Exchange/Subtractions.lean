import TitanEngine.Exchange.LedgerSteps

/-!
# Subtractions of quantities

The matchers take the traded quantity off the incoming and off the resting order; the manager
takes it off what remains of the incoming order and off the record of the resting one, and at
the end subtracts what was filled from the whole. All of these are unsigned. This module lists
each of them with both its operands, pass by pass as the loops of the source run, and shows that
none wraps: in the matchers because the smaller of the two is traded, in the manager because its
records and its counters are in step with the matcher.
-/

namespace Titan

open Library Std

/-- The operands of an unsigned subtraction. -/
structure Subtraction where
  /-- What is subtracted from. -/
  minuend : Quantity
  /-- What is subtracted. -/
  subtrahend : Quantity
  deriving DecidableEq, Repr

/-- The result is below zero. -/
def Subtraction.Wraps (subtraction : Subtraction) : Prop :=
  subtraction.minuend < subtraction.subtrahend

/-- The subtractions of one trade in the loop of a `cross`. -/
def tradeSubtractions (incoming resting : Order) : List Subtraction :=
  let traded := min incoming.quantity resting.quantity
  [{ minuend := resting.quantity, subtrahend := traded },
    { minuend := incoming.quantity, subtrahend := traded }]

/-- The smaller of two quantities can be taken off both. -/
theorem tradeSubtractions_exact (incoming resting : Order) :
    ∀ subtraction ∈ tradeSubtractions incoming resting, ¬ subtraction.Wraps := by
  intro subtraction member
  simp only [tradeSubtractions, List.mem_cons, List.not_mem_nil, or_false] at member
  rcases member with rfl | rfl
  · simp only [Subtraction.Wraps, UInt64.min_def]
    grind
  · simp only [Subtraction.Wraps, UInt64.min_def]
    grind

/-- The subtractions of one pass of `ReferenceMatcher::cross`. -/
def ReferenceMatcher.crossSubtractions (state : CrossState ReferenceMatcher) :
    List Subtraction :=
  if crossGuard state.matcher state.incoming then
    let side := state.incoming.side.opposite
    let price := state.matcher.oppositeBest state.incoming.side
    match (state.matcher.levels side).getD price [] with
    | [] => []
    | front :: _ => tradeSubtractions state.incoming front.order
  else []

/-- The subtractions of one pass of `OptimizedMatcher::cross`. -/
def OptimizedMatcher.crossSubtractions (state : CrossState OptimizedMatcher) :
    List Subtraction :=
  let side := state.incoming.side.opposite
  let opposite := state.matcher.levels side
  if state.incoming.quantity > 0 then
    match bestLevel side opposite with
    | none => []
    | some (levelPrice, level) =>
      if crosses state.incoming.side state.incoming.price levelPrice then
        match (frontLive level).1 with
        | none => []
        | some address =>
          tradeSubtractions state.incoming ((state.matcher.orderPool.read address).getD default)
      else []
  else []

/-- No pass of the reference matcher wraps, in whatever state. -/
theorem ReferenceMatcher.crossSubtractions_exact (state : CrossState ReferenceMatcher) :
    ∀ subtraction ∈ crossSubtractions state, ¬ subtraction.Wraps := by
  intro subtraction member
  simp only [crossSubtractions] at member
  split at member
  · split at member
    · simp at member
    · exact tradeSubtractions_exact _ _ subtraction member
  · simp at member

/-- No pass of the optimized matcher wraps, in whatever state. -/
theorem OptimizedMatcher.crossSubtractions_exact (state : CrossState OptimizedMatcher) :
    ∀ subtraction ∈ crossSubtractions state, ¬ subtraction.Wraps := by
  intro subtraction member
  simp only [crossSubtractions] at member
  split at member
  · split at member
    · simp at member
    · split at member
      · split at member
        · simp at member
        · exact tradeSubtractions_exact _ _ subtraction member
      · simp at member
  · simp at member

namespace OrderManager

variable {M : Type}

/-- The probe that a pass of the loop of `matchWithStp` sends to the matcher, if it sends one. -/
def probeOf (incoming : Order) (state : StpState M) : Option Order :=
  let manager := state.manager
  let side := incoming.side.opposite
  if state.remaining > 0 then
    match bestLevel side (manager.shadow side) with
    | none => none
    | some (levelPrice, ids) =>
      if crosses incoming.side incoming.price levelPrice then
        match ids with
        | [] => none
        | frontId :: _ =>
          let resting := manager.orderAt frontId
          if incoming.accountId ≠ 0 ∧ resting.accountId = incoming.accountId then none
          else some { incoming with quantity := min state.remaining resting.quantity }
      else none
  else none

/-- The subtractions of the loop over the trades of a probe. -/
def settleSubtractions (state : StpState M) : List Trade → List Subtraction
  | [] => []
  | trade :: rest =>
    { minuend := state.remaining, subtrahend := trade.quantity } ::
      (state.manager.orders[trade.restingOrderId]?).toList.map
        (fun snapshot => { minuend := snapshot.quantity, subtrahend := trade.quantity }) ++
      settleSubtractions (recordTrade state trade) rest

/-- The subtractions of one pass of the loop of `matchWithStp`. -/
def passSubtractions [IMatcher M] (incoming : Order) (state : StpState M) : List Subtraction :=
  match probeOf incoming state with
  | none => []
  | some probe =>
    settleSubtractions (probed state probe) (IMatcher.matchOrder state.manager.matcher probe).1

/-- The subtractions of `matchWithStp`. -/
def stpSubtractions [IMatcher M] (manager : OrderManager M) (incoming : Order) :
    List Subtraction :=
  notes (stpPass incoming) (passSubtractions incoming) (manager.activeOrderIds.size + 1)
    { manager := manager, allTrades := [], filled := 0, remaining := incoming.quantity }

/-- The subtractions of `matchOrder`: those of the loop, and what was filled from the whole. -/
def matchSubtractions [IMatcher M] (manager : OrderManager M) (order : Order) :
    List Subtraction :=
  match validateNewOrder order manager.allKnownOrderIds with
  | .none =>
    let toMatch := { order with price := order.matchPrice }
    let entered := { manager with
      allKnownOrderIds := manager.allKnownOrderIds.insert order.id }
    stpSubtractions entered toMatch ++
      [{ minuend := order.quantity, subtrahend := (entered.matchWithStp toMatch).filled }]
  | _ => []

/-- The subtractions of a call of the manager. -/
def subtractions [IMatcher M] (manager : OrderManager M) : ManagerCall → List Subtraction
  | .addOrder order => if order.isMarketOrIoc then [] else matchSubtractions manager order
  | .matchOrder order => matchSubtractions manager order
  | .cancelOrder _ => []
  | .cancelReplace _ _ => []

section Lawful

variable [LawfulMatcher M]

/-- A probe is cut to the head of the other side, which it crosses. -/
theorem Sweeping.probe_head {incoming probe : Order} {records : IdMap Order} {known : IdSet}
    {book : Book} {state : StpState M} {orders : List Order}
    (sweeping : Sweeping incoming records known book state orders)
    (sent : probeOf incoming state = some probe) :
    ∃ maker rest, orders = maker :: rest ∧ state.remaining ≠ 0 ∧
      crosses incoming.side incoming.price maker.price = true ∧
      probe = { incoming with quantity := min state.remaining maker.quantity } := by
  cases orders with
  | nil =>
    have empty := sweeping.tracks.shadows.bestLevel_nil (Book.side_setSide_same _ _ _)
    simp [probeOf, empty] at sent
  | cons maker rest =>
    have current := Book.side_setSide_same book incoming.side.opposite (maker :: rest)
    have best := sweeping.tracks.shadows.bestLevel_cons sweeping.sound current
    have member : maker ∈ (book.setSide incoming.side.opposite (maker :: rest)).side
        incoming.side.opposite := by
      rw [current]
      exact List.mem_cons_self
    have quantity := (sweeping.tracks.orderAt_agrees member).quantity
    simp only [probeOf, best, quantity] at sent
    split_ifs at sent with positive reach
    refine ⟨maker, rest, rfl, ?_, reach, (Option.some.inj sent).symm⟩
    grind

/-- No pass of the loop wraps while its records and counters are in step with the matcher. -/
theorem Sweeping.passSubtractions_exact {incoming : Order} {records : IdMap Order} {known : IdSet}
    {book : Book} {state : StpState M} {orders : List Order}
    (sweeping : Sweeping incoming records known book state orders) :
    ∀ subtraction ∈ passSubtractions incoming state, ¬ subtraction.Wraps := by
  intro subtraction noted
  cases sent : probeOf incoming state with
  | none => simp [passSubtractions, sent] at noted
  | some probe =>
    obtain ⟨maker, rest, rfl, positive, reach, rfl⟩ := sweeping.probe_head sent
    let traded := min state.remaining maker.quantity
    have submitted := sweeping.submit_head positive reach
    obtain ⟨trades, _⟩ := LawfulMatcher.matchOrder_spec { incoming with quantity := traded }
      sweeping.tracks.represents sweeping.sound sweeping.fresh
    rw [submitted] at trades
    have member : maker ∈ (book.setSide incoming.side.opposite (maker :: rest)).side
        incoming.side.opposite := by
      rw [Book.side_setSide_same]
      exact List.mem_cons_self
    obtain ⟨record, found, agrees⟩ := sweeping.tracks.covers _ maker member
    have lookup : (probed state { incoming with quantity := traded }).manager.orders[maker.id]? =
        some record := found
    have remains : traded ≤ state.remaining := by
      simp only [traded, UInt64.min_def]
      grind
    have fits : traded ≤ record.quantity := by
      rw [agrees.quantity]
      simp only [traded, UInt64.min_def]
      grind
    have passes : passSubtractions incoming state =
        settleSubtractions (probed state { incoming with quantity := traded })
          [tradeWith incoming.id maker traded] := by
      simp only [passSubtractions, sent]
      rw [trades]
    simp only [passes, settleSubtractions, tradeWith, lookup, Option.toList_some, List.map_cons,
      List.map_nil, List.append_nil, List.mem_cons, List.not_mem_nil, or_false] at noted
    rcases noted with rfl | rfl
    · exact UInt64.not_lt.mpr remains
    · exact UInt64.not_lt.mpr fits

/-- `matchWithStp` wraps nowhere. -/
theorem Mirrors.stpSubtractions_exact {manager : OrderManager M} {ledger : Ledger}
    (mirrors : manager.Mirrors ledger) {order : Order} (fresh : ledger.book.Fresh order.id)
    (known : IdSet) :
    ∀ subtraction ∈ stpSubtractions ({ manager with allKnownOrderIds := known } : OrderManager M)
      { order with price := order.matchPrice }, ¬ subtraction.Wraps := by
  let toMatch : Order := { order with price := order.matchPrice }
  let Inv : StpState M → Prop := fun state =>
    ∃ orders, Sweeping toMatch ledger.records known ledger.book state orders
  refine forall_notes Inv ?_ ?_ _ ⟨_, mirrors.sweeping_start fresh known⟩
  · rintro state next ⟨orders, sweeping⟩ passed
    obtain ⟨maker, rest, _, _, _, held, _⟩ :=
      (stpPass_spec toMatch ledger.records known ledger.book).yields sweeping passed
    exact ⟨_, held⟩
  · rintro state ⟨orders, sweeping⟩
    exact sweeping.passSubtractions_exact

/-- What was filled can be taken off the whole. -/
theorem filled_le {quantity filled left : Quantity} (less : left ≤ quantity)
    (counted : filled = quantity - left) : filled ≤ quantity := by
  grind

/-- No subtraction of a call of the manager wraps. -/
theorem Mirrors.subtractions_exact {manager : OrderManager M} {ledger : Ledger}
    (mirrors : manager.Mirrors ledger) (call : ManagerCall) :
    ∀ subtraction ∈ manager.subtractions call, ¬ subtraction.Wraps := by
  have entered : ∀ order, ∀ subtraction ∈ manager.matchSubtractions order,
      ¬ subtraction.Wraps := by
    intro order
    unfold matchSubtractions
    rw [mirrors.known]
    cases valid : validateNewOrder order ledger.known with
    | none =>
      have fresh := mirrors.fresh_of_unknown (validateNewOrder_none valid).2.2
      obtain ⟨sweeping, remaining, _⟩ := mirrors.matchWithStp fresh (ledger.known.insert order.id)
      have total := ledger.fillOf_total order
      have less : (ledger.fillOf order).left ≤ order.quantity := by
        rw [UInt64.le_iff_toNat_le]
        exact Nat.le.intro total.symm
      intro subtraction noted
      rcases List.mem_append.mp noted with inside | last
      · exact mirrors.stpSubtractions_exact fresh _ subtraction inside
      · rw [List.mem_singleton.mp last]
        have counted := sweeping.counted
        rw [remaining] at counted
        exact UInt64.not_lt.mpr (filled_le less counted)
    | _ => simp
  cases call with
  | addOrder order =>
    simp only [subtractions]
    split
    · simp
    · exact entered order
  | matchOrder order => exact entered order
  | cancelOrder id => simp [subtractions]
  | cancelReplace oldId newOrder => simp [subtractions]

end Lawful

end OrderManager

end Titan
