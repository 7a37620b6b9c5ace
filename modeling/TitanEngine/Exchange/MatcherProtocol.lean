import TitanEngine.Book.Parity
import TitanEngine.Exchange.Subtractions

/-!
# What the manager asks of its matcher

A matcher crosses and rests whatever it is given, and the manager throws away the trades of
`addOrder`. So the manager relies on its shadow: it adds only what crosses nothing, and a probe of
`matchWithStp` is cut to the front order so that one trade consumes it. Along every run no id
enters that rests, no probe rests, no added order trades, and the branches of the loop that are
there for a shadow out of step are never taken. The tape of a recorded matcher holds all calls that
it received, so what is said of them covers every place that calls the matcher.
-/

namespace Titan

open Library Std

/-- What a matcher may be asked. An id that enters does not rest, an order that is added trades
nothing, and a probe trades once with all its quantity and does not rest. -/
def InProtocol {M : Type} [IMatcher M] [RestingLevels M] (matcher : M) : MatcherCall → Prop
  | .addOrder order =>
    ¬ IsResting matcher order.id ∧ (IMatcher.matchOrder matcher order).1 = [] ∧
      ∀ side, ∀ other ∈ resting matcher side,
        other ∈ resting (IMatcher.addOrder matcher order) side
  | .matchOrder probe =>
    ¬ IsResting matcher probe.id ∧
      (∃ trade, (IMatcher.matchOrder matcher probe).1 = [trade] ∧
        trade.incomingOrderId = probe.id ∧ trade.quantity = probe.quantity) ∧
      ¬ IsResting (IMatcher.matchOrder matcher probe).2 probe.id
  | .cancelOrder _ => True

/-- The tape of a matcher leads to it from the start, by calls that may be asked. -/
structure Recorded.Follows {M : Type} [LawfulMatcher M] (start : M) (recorded : Recorded M) :
    Prop where
  /-- The calls lead to the matcher. -/
  replayed : (run callMatcher start (recorded.tape.map Prod.fst)).2 = recorded.matcher
  /-- They may be asked. -/
  proper : Admissible InProtocol callMatcher start (recorded.tape.map Prod.fst)

namespace Recorded

variable {M : Type} [LawfulMatcher M] {start : M} {recorded next : Recorded M}

/-- An empty tape leads nowhere. -/
theorem follows_start (matcher : M) : (Recorded.start matcher).Follows matcher := ⟨rfl, trivial⟩

/-- One more call that may be asked. -/
theorem Follows.receive (follows : recorded.Follows start) {call : MatcherCall}
    (proper : InProtocol recorded.matcher call) {trades : List Trade}
    (matcher : next.matcher = (callMatcher recorded.matcher call).2)
    (tape : next.tape = recorded.tape ++ [(call, trades)]) : next.Follows start := by
  have calls : next.tape.map Prod.fst = recorded.tape.map Prod.fst ++ [call] := by
    rw [tape, List.map_append]
    rfl
  constructor
  · rw [calls, run_append, follows.replayed, matcher]
    rfl
  · rw [calls, admissible_append, follows.replayed]
    exact ⟨follows.proper, proper, trivial⟩

/-- Cancelling may be asked at any time, however often. -/
theorem Follows.cancelAll (follows : recorded.Follows start) (ids : List OrderId) :
    (ids.foldl IMatcher.cancelOrder recorded).Follows start := by
  induction ids generalizing recorded with
  | nil => exact follows
  | cons id rest ih =>
    have cancelled : (IMatcher.cancelOrder recorded id).Follows start :=
      @Follows.receive _ _ _ _ _ follows (.cancelOrder id) trivial _ rfl rfl
    exact ih cancelled

end Recorded

namespace OrderManager

section Lawful

variable {M : Type} [LawfulMatcher M] {start : M} {book : Book}

/-- An order that enters clear may be added. -/
theorem EntersClear.inProtocol {matcher : M} {order : Order}
    (enters : EntersClear matcher book order) : InProtocol matcher (.addOrder order) := by
  have rested : (book.rest order).Sound :=
    enters.sound.rest enters.fresh enters.positive (not_crosses_of_clear enters.clear)
  refine ⟨?_, enters.trades, ?_⟩
  · rw [isResting_iff enters.represents enters.sound, not_not]
    exact enters.fresh
  · intro side other member
    rw [resting_eq enters.represents enters.sound] at member
    rw [resting_eq enters.rests rested]
    revert member
    revert side
    refine Book.forall_side order.side ?_ ?_
    · exact fun member => (Book.mem_side_rest rfl).mpr (.inr member)
    · intro member
      rw [Book.side_opposite_rest]
      exact member

/-- An order that enters clear is added in protocol. -/
theorem EntersClear.follows {recorded : Recorded M} {order : Order}
    (enters : EntersClear recorded book order) (follows : recorded.Follows start) :
    (IMatcher.addOrder recorded order).Follows start := by
  have clear : EntersClear recorded.matcher book order :=
    ⟨enters.represents, enters.sound, enters.fresh, enters.positive, enters.clear⟩
  exact follows.receive clear.inProtocol rfl rfl

/-- Orders that enter clear one after the other are added in protocol. -/
theorem follows_addAll {recorded : Recorded M} (follows : recorded.Follows start)
    {orders : List Order}
    (clear : ∀ front order back, orders = front ++ order :: back →
      ∃ between, EntersClear (front.foldl IMatcher.addOrder recorded) between order) :
    (orders.foldl IMatcher.addOrder recorded).Follows start := by
  induction orders generalizing recorded with
  | nil => exact follows
  | cons first rest ih =>
    obtain ⟨between, enters⟩ := clear [] first rest rfl
    refine ih (enters.follows follows) ?_
    intro front order back parts
    exact clear (first :: front) order back (by rw [parts]; rfl)

end Lawful

section Passes

variable {M : Type} [IMatcher M]

/-- A pass that sends a probe ends the loop when nothing trades, and else records the trades. -/
theorem stpPass_of_probe {incoming probe : Order} {state : StpState M}
    (sent : probeOf incoming state = some probe) :
    stpPass incoming state =
      let trades := (IMatcher.matchOrder state.manager.matcher probe).1
      if trades.isEmpty then .done (probed state probe)
      else .yield (trades.foldl recordTrade (probed state probe)) := by
  unfold probeOf at sent
  unfold stpPass
  simp only at sent ⊢
  by_cases open_ : state.remaining > 0
  case neg =>
    rw [if_neg open_] at sent
    cases sent
  rw [if_pos open_] at sent ⊢
  cases best : bestLevel incoming.side.opposite
      (state.manager.shadow incoming.side.opposite) with
  | none =>
    rw [best] at sent
    cases sent
  | some found =>
    obtain ⟨levelPrice, ids⟩ := found
    simp only [best] at sent ⊢
    by_cases reach : crosses incoming.side incoming.price levelPrice = true
    case neg =>
      rw [if_neg reach] at sent
      cases sent
    rw [if_pos reach] at sent ⊢
    cases ids with
    | nil => cases sent
    | cons frontId behind =>
      simp only at sent ⊢
      by_cases same : incoming.accountId ≠ 0 ∧
          (state.manager.orderAt frontId).accountId = incoming.accountId
      case pos =>
        rw [if_pos same] at sent
        cases sent
      rw [if_neg same] at sent ⊢
      obtain rfl := Option.some.inj sent
      rfl

/-- A pass that sends no probe ends the loop, unless it drops an empty level. -/
theorem stpPass_of_silent {incoming : Order} {state : StpState M}
    (occupied : ∀ price ids, bestLevel incoming.side.opposite
      (state.manager.shadow incoming.side.opposite) = some (price, ids) → ids ≠ [])
    (silent : probeOf incoming state = none) : stpPass incoming state = .done state := by
  unfold probeOf at silent
  unfold stpPass
  simp only at silent ⊢
  split
  case isFalse => rfl
  rename_i open_
  simp only [open_, ↓reduceIte] at silent
  split
  case h_1 => rfl
  rename_i levelPrice ids best
  simp only [best] at silent
  split
  case isFalse => rfl
  rename_i reach
  simp only [reach, ↓reduceIte] at silent
  split
  case h_1 => exact absurd rfl (occupied levelPrice [] best)
  simp only at silent
  split
  case isTrue => rfl
  rename_i other
  simp only [other, ↓reduceIte] at silent
  cases silent

/-- A pass of the loop of `matchWithStp` finds no empty level, and a record of the front order. It
sends nothing and ends the loop, or it sends a probe, which trades once with the front order and
with all its quantity, and records that trade. -/
structure Guarded (incoming : Order) (state : StpState M) : Prop where
  /-- The best level is not empty. -/
  occupied : ∀ price ids, bestLevel incoming.side.opposite
    (state.manager.shadow incoming.side.opposite) = some (price, ids) → ids ≠ []
  /-- Its front order is recorded. -/
  recorded : ∀ price frontId ids, bestLevel incoming.side.opposite
    (state.manager.shadow incoming.side.opposite) = some (price, frontId :: ids) →
      state.manager.orders[frontId]?.isSome = true
  /-- A pass that sends nothing is the last. -/
  ends : probeOf incoming state = none → stpPass incoming state = .done state
  /-- A probe trades once with the front order. -/
  probes : ∀ probe, probeOf incoming state = some probe → ∃ price frontId ids trade,
    bestLevel incoming.side.opposite (state.manager.shadow incoming.side.opposite) =
      some (price, frontId :: ids) ∧
    (IMatcher.matchOrder state.manager.matcher probe).1 = [trade] ∧
    trade.incomingOrderId = probe.id ∧ trade.restingOrderId = frontId ∧
    trade.quantity = probe.quantity ∧
    stpPass incoming state = .yield (recordTrade (probed state probe) trade)

end Passes

section Lawful

variable {M : Type} [LawfulMatcher M]

/-- What a pass relies on holds while the shadow is in step. -/
theorem Sweeping.guarded {incoming : Order} {records : IdMap Order} {known : IdSet} {book : Book}
    {state : StpState M} {orders : List Order}
    (sweeping : Sweeping incoming records known book state orders) : Guarded incoming state := by
  have best : bestLevel incoming.side.opposite (state.manager.shadow incoming.side.opposite) =
      match orders with
      | [] => none
      | maker :: rest => some (maker.price, (maker ::
          group (fun order : Order => order.price) rest maker.price).map Order.id) := by
    cases orders with
    | nil => exact sweeping.tracks.shadows.bestLevel_nil (Book.side_setSide_same _ _ _)
    | cons maker rest =>
      exact sweeping.tracks.shadows.bestLevel_cons sweeping.sound (Book.side_setSide_same _ _ _)
  have occupied : ∀ price ids, bestLevel incoming.side.opposite
      (state.manager.shadow incoming.side.opposite) = some (price, ids) → ids ≠ [] := by
    intro price ids found
    rw [best] at found
    cases orders with
    | nil => cases found
    | cons maker rest =>
      obtain ⟨_, rfl⟩ := Prod.mk.inj (Option.some.inj found)
      simp
  refine ⟨occupied, ?_, stpPass_of_silent occupied, ?_⟩
  · intro price frontId ids found
    rw [best] at found
    cases orders with
    | nil => cases found
    | cons maker rest =>
      have member : maker ∈ (book.setSide incoming.side.opposite (maker :: rest)).side
          incoming.side.opposite := by
        rw [Book.side_setSide_same]
        exact List.mem_cons_self
      obtain ⟨record, stored, _⟩ := sweeping.tracks.covers _ maker member
      obtain ⟨_, front⟩ := Prod.mk.inj (Option.some.inj found)
      obtain ⟨rfl, _⟩ := List.cons.inj front
      rw [stored]
      rfl
  · intro probe sent
    obtain ⟨maker, rest, rfl, positive, reach, rfl⟩ := sweeping.probe_head sent
    obtain ⟨trades, _⟩ := LawfulMatcher.matchOrder_spec
      { incoming with quantity := min state.remaining maker.quantity }
      sweeping.tracks.represents sweeping.sound sweeping.fresh
    rw [sweeping.submit_head positive reach] at trades
    refine ⟨_, _, _, _, best, trades, rfl, rfl, rfl, ?_⟩
    rw [stpPass_of_probe sent, trades]
    rfl

/-- A probe is sent in protocol. -/
theorem Sweeping.follows {incoming : Order} {records : IdMap Order} {known : IdSet} {book : Book}
    {start : M} {state next : StpState (Recorded M)} {orders : List Order}
    (sweeping : Sweeping incoming records known book state orders)
    (follows : state.manager.matcher.Follows start)
    (passed : stpPass incoming state = .yield next) :
    (∃ left, Sweeping incoming records known book next left) ∧
      next.manager.matcher.Follows start := by
  obtain ⟨maker, rest, _, _, _, held, _⟩ :=
    (stpPass_spec incoming records known book).yields sweeping passed
  refine ⟨⟨_, held⟩, ?_⟩
  have guarded := sweeping.guarded
  cases sent : probeOf incoming state with
  | none =>
    rw [guarded.ends sent] at passed
    cases passed
  | some probe =>
    obtain ⟨price, frontId, ids, trade, _, trades, taker, _, whole, yields⟩ :=
      guarded.probes probe sent
    rw [yields] at passed
    cases passed
    have named : probe.id = incoming.id := by
      obtain ⟨_, _, _, _, _, rfl⟩ := sweeping.probe_head sent
      rfl
    have matcher : (recordTrade (probed state probe) trade).manager.matcher =
        (IMatcher.matchOrder state.manager.matcher probe).2 := by
      simp [recordTrade, probed]
    have before : ¬ IsResting state.manager.matcher probe.id := by
      rw [isResting_iff sweeping.tracks.represents sweeping.sound, not_not, named]
      exact sweeping.fresh
    have after : ¬ IsResting (IMatcher.matchOrder state.manager.matcher probe).2 probe.id := by
      rw [← matcher, isResting_iff held.tracks.represents held.sound, not_not, named]
      exact held.fresh
    have proper : InProtocol state.manager.matcher.matcher (.matchOrder probe) :=
      ⟨before, ⟨trade, trades, taker, whole⟩, after⟩
    rw [matcher]
    exact follows.receive proper rfl rfl

variable {start : M} {manager : OrderManager (Recorded M)} {ledger : Ledger}

/-- An order is matched in protocol. -/
theorem Mirrors.follows_matchOrder (mirrors : manager.Mirrors ledger)
    (follows : manager.matcher.Follows start) {order : Order}
    (accepted : validateNewOrder order ledger.known = .none) :
    (manager.matchOrder order).2.matcher.Follows start := by
  have fresh := mirrors.fresh_of_unknown (validateNewOrder_none accepted).2.2
  let toMatch : Order := { order with price := order.matchPrice }
  let known := manager.allKnownOrderIds.insert order.id
  let Inv : StpState (Recorded M) → Prop := fun state =>
    (∃ orders, Sweeping toMatch ledger.records known ledger.book state orders) ∧
      state.manager.matcher.Follows start
  have swept : (({ manager with allKnownOrderIds := known } :
      OrderManager (Recorded M)).matchWithStp toMatch).manager.matcher.Follows start := by
    refine (loop_invariant Inv ?_ ?_ _ ⟨⟨_, mirrors.sweeping_start fresh known⟩, follows⟩).2
    · rintro state next ⟨⟨orders, sweeping⟩, followed⟩ passed
      exact sweeping.follows followed passed
    · rintro state final ⟨⟨orders, sweeping⟩, followed⟩ broke
      have guarded := sweeping.guarded
      cases sent : probeOf toMatch state with
      | none =>
        rw [guarded.ends sent] at broke
        cases broke
        exact ⟨⟨orders, sweeping⟩, followed⟩
      | some probe =>
        obtain ⟨_, _, _, _, _, _, _, _, _, yields⟩ := guarded.probes probe sent
        rw [yields] at broke
        cases broke
  obtain ⟨final, matched⟩ := mirrors.matched accepted
  have ended : final.manager.matcher.Follows start := by
    rw [matched.ended]
    exact swept
  rw [matched.result, finishMatch_eq matched.filled matched.decided]
  cases resting : ledger.rests order with
  | false => exact ended
  | true =>
    simp only [Ledger.rests, Bool.and_eq_true, decide_eq_true_eq, Bool.not_eq_true'] at resting
    obtain ⟨⟨_, left⟩, clear⟩ := resting
    have sweeping := matched.sweeping
    have enters : EntersClear final.manager.matcher (ledger.swept order)
        (ledger.remainder order) :=
      ⟨sweeping.tracks.represents, sweeping.sound, sweeping.fresh, left, clear⟩
    simp only [↓reduceIte, matcher_trackResting]
    exact enters.follows ended

/-- An order is amended in protocol. -/
theorem Mirrors.follows_amend (mirrors : manager.Mirrors ledger)
    (follows : manager.matcher.Follows start) {newOrder : Order}
    (held : ledger.holds newOrder.id = true) (positive : newOrder.quantity ≠ 0)
    (clear : Ledger.wouldCross ledger.book newOrder = false) :
    (manager.amended newOrder).matcher.Follows start := by
  have sound := mirrors.consistent.sound
  rcases mirrors.amended_cases held clear with
    ⟨_, inPlace, target, member, own, price⟩ | ⟨_, moved⟩
  · obtain ⟨_, _, clearly⟩ := mirrors.represents_reread positive member own price clear
    rw [inPlace, mirrors.matcher_rebuildLevel member price]
    exact follows_addAll (follows.cancelAll _) clearly
  · have cancelled := LawfulMatcher.cancelOrder_spec newOrder.id mirrors.tracks.represents sound
    have enters : EntersClear (IMatcher.cancelOrder manager.matcher newOrder.id)
        (ledger.book.cancel newOrder.id) newOrder :=
      ⟨cancelled, sound.cancel newOrder.id, Book.fresh_cancel.mpr (.inl rfl), positive,
        wouldCross_cancel clear newOrder.id⟩
    rw [moved, matcher_moveOrder]
    exact enters.follows (follows.cancelAll [newOrder.id])

/-- A call of the manager keeps to the protocol. -/
theorem Mirrors.follows_call (mirrors : manager.Mirrors ledger)
    (follows : manager.matcher.Follows start) (call : ManagerCall) :
    (callManager manager call).2.matcher.Follows start := by
  cases call with
  | addOrder order =>
    simp only [callManager, OrderManager.addOrder, mirrors.known]
    cases refused : order.isMarketOrIoc with
    | true => exact follows
    | false =>
      cases reason : validateNewOrder order ledger.known with
      | none => exact mirrors.follows_matchOrder follows reason
      | _ => exact follows
  | matchOrder order =>
    simp only [callManager]
    cases reason : validateNewOrder order ledger.known with
    | none => exact mirrors.follows_matchOrder follows reason
    | _ =>
      simp only [OrderManager.matchOrder, mirrors.known, reason]
      exact follows
  | cancelOrder id =>
    simp only [callManager, OrderManager.cancelOrder, validateCancel]
    cases manager.activeOrderIds.contains id with
    | false => exact follows
    | true =>
      simp only [↓reduceIte, matcher_untrackResting]
      exact follows.cancelAll [id]
  | cancelReplace oldId newOrder =>
    simp only [callManager]
    rcases mirrors.cancelReplace_cases oldId newOrder with
      ⟨reason, refused, _⟩ | ⟨_, held, positive, clear, accepted, _⟩
    · rw [refused]
      exact follows
    · rw [accepted]
      exact @Mirrors.follows_amend _ _ _ _ _ mirrors follows { newOrder with status := .new } held
        positive clear

end Lawful

section Calls

variable {M : Type} [IMatcher M]

/-- The lookups `orders_.at` of a call outside the loop of `matchWithStp`: the records and the
id. -/
def lookups (manager : OrderManager M) : ManagerCall → List (IdMap Order × OrderId)
  | .addOrder _ => []
  | .matchOrder _ => []
  | .cancelOrder id =>
    if (manager.cancelOrder id).1.accepted then [(manager.orders, id)] else []
  | .cancelReplace oldId newOrder =>
    if (manager.cancelReplace oldId newOrder).1.accepted then
      let existing := manager.orderAt oldId
      (manager.orders, oldId) ::
        if newOrder.price = existing.price ∧ newOrder.quantity ≤ existing.quantity then
          ((manager.shadow newOrder.side).getD newOrder.price []).map (fun id =>
            (manager.orders.insert oldId { newOrder with status := .new }, id))
        else []
    else []

omit [IMatcher M] in
/-- The order that `matchOrder` hands to `matchWithStp`, and where its loop starts. -/
def sweepStart (manager : OrderManager M) (order : Order) : Option (Order × StpState M) :=
  match validateNewOrder order manager.allKnownOrderIds with
  | .none => some
      ({ order with price := order.matchPrice },
        { manager := { manager with
            allKnownOrderIds := manager.allKnownOrderIds.insert order.id }
          allTrades := []
          filled := 0
          remaining := order.quantity })
  | _ => none

/-- The loop of `matchWithStp` that a call runs, if it runs one. -/
def sweepOf (manager : OrderManager M) : ManagerCall → Option (Order × StpState M)
  | .addOrder order => if order.isMarketOrIoc then none else manager.sweepStart order
  | .matchOrder order => manager.sweepStart order
  | .cancelOrder _ => none
  | .cancelReplace _ _ => none

/-- A call finds what it looks up, and its loop is guarded at every pass and ends. -/
structure Conforms (manager : OrderManager M) (call : ManagerCall) : Prop where
  /-- What is looked up is there. -/
  lookups : ∀ lookup ∈ manager.lookups call, lookup.1[lookup.2]?.isSome = true
  /-- Every pass is guarded. -/
  passes : ∀ incoming start, manager.sweepOf call = some (incoming, start) →
    ∀ state, Reaches (stpPass incoming) start state → Guarded incoming state
  /-- The loop ends, with what `matchWithStp` returns. -/
  ends : ∀ incoming start, manager.sweepOf call = some (incoming, start) →
    Ends (stpPass incoming) start (start.manager.matchWithStp incoming)

end Calls

section Lawful

variable {M : Type} [LawfulMatcher M] {manager : OrderManager M} {ledger : Ledger}

/-- The order under an active id is recorded. -/
theorem Mirrors.recorded_of_holds (mirrors : manager.Mirrors ledger) {id : OrderId}
    (held : ledger.holds id = true) : manager.orders[id]?.isSome = true := by
  obtain ⟨side, order, member, rfl, _⟩ := mirrors.resting_of_holds held
  obtain ⟨record, found, _⟩ := mirrors.tracks.covers side order member
  rw [found]
  rfl

/-- The orders of a shadow level are recorded. -/
theorem Mirrors.recorded_of_shadow (mirrors : manager.Mirrors ledger) {side : Side} {price : Price}
    {id : OrderId} (listed : id ∈ (manager.shadow side).getD price []) :
    manager.orders[id]?.isSome = true := by
  rw [ExtTreeMap.getD_eq_getD_getElem?, mirrors.tracks.shadows side price, getD_occupied] at listed
  obtain ⟨order, inQueue, rfl⟩ := List.mem_map.mp listed
  obtain ⟨record, found, _⟩ := mirrors.tracks.covers side order (mem_group.mp inQueue).1
  rw [found]
  rfl

/-- Every lookup of a call succeeds. -/
theorem Mirrors.lookups_succeed (mirrors : manager.Mirrors ledger) (call : ManagerCall) :
    ∀ lookup ∈ manager.lookups call, lookup.1[lookup.2]?.isSome = true := by
  cases call with
  | addOrder order => simp [lookups]
  | matchOrder order => simp [lookups]
  | cancelOrder id =>
    intro lookup listed
    have held : ledger.holds id = true := by
      rw [lookups, (mirrors.cancelOrder id).1] at listed
      cases holds : ledger.holds id with
      | true => rfl
      | false => simp [Ledger.cancelOrder, holds, AcceptResult.reject] at listed
    simp only [lookups] at listed
    split at listed
    · rw [List.mem_singleton.mp listed]
      exact mirrors.recorded_of_holds held
    · cases listed
  | cancelReplace oldId newOrder =>
    intro lookup listed
    rcases mirrors.cancelReplace_cases oldId newOrder with
      ⟨reason, refused, _⟩ | ⟨same, held, positive, clear, accepted, _⟩
    · simp [lookups, refused, AcceptResult.reject] at listed
    · subst same
      simp only [lookups, accepted, AcceptResult.ok, ↓reduceIte, List.mem_cons] at listed
      rcases listed with rfl | inQueue
      · exact mirrors.recorded_of_holds held
      · split at inQueue
        · obtain ⟨id, listed, rfl⟩ := List.mem_map.mp inQueue
          rw [ExtTreeMap.getElem?_insert]
          split
          · rfl
          · exact mirrors.recorded_of_shadow listed
        · cases inQueue

/-- The loop that an order is matched in is guarded at every pass and ends. -/
theorem Mirrors.sweepStart_spec (mirrors : manager.Mirrors ledger) {order incoming : Order}
    {start : StpState M} (starts : manager.sweepStart order = some (incoming, start)) :
    (∀ state, Reaches (stpPass incoming) start state → Guarded incoming state) ∧
      Ends (stpPass incoming) start (start.manager.matchWithStp incoming) := by
  unfold sweepStart at starts
  rw [mirrors.known] at starts
  cases valid : validateNewOrder order ledger.known with
  | none =>
    simp only [valid, Option.some.injEq, Prod.mk.injEq] at starts
    obtain ⟨rfl, rfl⟩ := starts
    have fresh := mirrors.fresh_of_unknown (validateNewOrder_none valid).2.2
    let toMatch : Order := { order with price := order.matchPrice }
    let known := ledger.known.insert order.id
    let Inv : StpState M → Prop := fun state =>
      ∃ orders, Sweeping toMatch ledger.records known ledger.book state orders
    have sweeping := mirrors.sweeping_start fresh known
    have pass := stpPass_spec (M := M) toMatch ledger.records known ledger.book
    have kept : ∀ state next, Inv state → stpPass toMatch state = .yield next → Inv next := by
      rintro state next ⟨orders, held⟩ passed
      obtain ⟨_, _, _, _, _, later, _⟩ := pass.yields held passed
      exact ⟨_, later⟩
    constructor
    · intro state reaches
      obtain ⟨orders, held⟩ := reaches.invariant Inv kept ⟨_, sweeping⟩
      exact held.guarded
    · exact pass.ends sweeping _ (Nat.lt_succ_self _)
  | _ => simp [valid] at starts

/-- Every call conforms. -/
theorem Mirrors.conforms (mirrors : manager.Mirrors ledger) (call : ManagerCall) :
    manager.Conforms call := by
  have loops : ∀ incoming start, manager.sweepOf call = some (incoming, start) →
      (∀ state, Reaches (stpPass incoming) start state → Guarded incoming state) ∧
        Ends (stpPass incoming) start (start.manager.matchWithStp incoming) := by
    intro incoming start runs
    cases call with
    | addOrder order =>
      simp only [sweepOf] at runs
      split at runs
      · cases runs
      · exact mirrors.sweepStart_spec runs
    | matchOrder order => exact mirrors.sweepStart_spec runs
    | cancelOrder id => cases runs
    | cancelReplace oldId newOrder => cases runs
  exact ⟨mirrors.lookups_succeed call, fun incoming start runs => (loops incoming start runs).1,
    fun incoming start runs => (loops incoming start runs).2⟩

end Lawful

/-- Along every run of calls over either matcher, the matcher is asked only what the protocol
allows, every lookup of the manager succeeds, and every loop of `matchWithStp` is guarded at each of
its passes and ends. -/
theorem manager_matcher_protocol (allocator : SlabAllocator) (backend : MatcherBackend)
    (calls : List ManagerCall) :
    let matcher := makeMatcher allocator backend
    let start := init (Recorded.start matcher)
    Admissible InProtocol callMatcher matcher
        ((run callManager start calls).2.matcher.tape.map Prod.fst) ∧
      Admissible Conforms callManager start calls := by
  intro matcher start
  have represents : Represents (Recorded.start matcher) Book.empty :=
    Matcher.holds_makeMatcher allocator backend
  let Inv : OrderManager (Recorded Matcher) → Prop := fun manager =>
    (∃ ledger, manager.Mirrors ledger) ∧ manager.matcher.Follows matcher
  have kept : ∀ manager call, Inv manager → True → Inv (callManager manager call).2 := by
    rintro manager call ⟨⟨ledger, mirrors⟩, follows⟩ -
    exact ⟨⟨_, (mirrors.call call).2⟩, mirrors.follows_call follows call⟩
  have begun : Inv start := ⟨⟨_, mirrors_init represents⟩, Recorded.follows_start matcher⟩
  have all := admissible_true callManager start calls
  constructor
  · exact (run_invariant Inv kept begun all).2.proper
  · have conforms : ∀ manager call, Inv manager → True → (True ↔ manager.Conforms call) := by
      rintro manager call ⟨⟨ledger, mirrors⟩, _⟩ -
      exact iff_of_true trivial (mirrors.conforms call)
    exact (admissible_congr Inv kept conforms begun all).mp all

end OrderManager

end Titan
