import TitanEngine.Exchange.LedgerSteps

/-!
# The lifecycle of an order

Status, activity, accepted ids and book membership are kept apart; along every run they agree.
An id has a record once it was accepted and never before. The record is live exactly while the
order rests, and once it is filled or cancelled nothing touches the id again.
-/

namespace Titan

open Library Std OrderManager

/-- The order may still trade. -/
def OrderStatus.Live (status : OrderStatus) : Prop := status = .new ∨ status = .partiallyFilled

/-- The order is done. -/
def OrderStatus.Final (status : OrderStatus) : Prop := status = .filled ∨ status = .cancelled

/-- The id a call enters, if it enters one. -/
def ManagerCall.entry : ManagerCall → Option OrderId
  | addOrder order => some order.id
  | matchOrder order => some order.id
  | cancelOrder _ => none
  | cancelReplace _ _ => none

/-- An accepted call of the run entered the id. -/
def WasAccepted (id : OrderId) (calls : List ManagerCall) (results : List MatchResult) : Prop :=
  ∃ pair ∈ calls.zip results, pair.1.entry = some id ∧ pair.2.accept.accepted = true

namespace Ledger

variable {ledger : Ledger}

/-- The records agree with the accepted ids and with the book. -/
structure Lifecycle (ledger : Ledger) : Prop where
  /-- The accepted ids are the recorded ones. -/
  known : ∀ id, id ∈ ledger.known ↔ (ledger.records[id]?).isSome = true
  /-- A record is live while its order rests. -/
  live : ∀ (id : OrderId) (record : Order), ledger.records[id]? = some record →
    (ledger.holds id = true ↔ record.status.Live)
  /-- No record is of a rejected order. -/
  proper : ∀ (id : OrderId) (record : Order), ledger.records[id]? = some record →
    record.status ≠ .rejected

/-- Nothing is recorded at first. -/
theorem lifecycle_empty : empty.Lifecycle where
  known id := by simp [empty]
  live id record found := by simp [empty] at found
  proper id record found := by simp [empty] at found

/-- What rests after a trade is partially filled, what does not is filled. -/
theorem live_settled (record : Order) (traded : Quantity) :
    decide (record.quantity - traded ≠ 0) = true ↔ (record.settled traded).status.Live := by
  by_cases zero : record.quantity - traded = 0
  · simp [Order.settled, OrderStatus.Live, zero]
  · simp [Order.settled, OrderStatus.Live, zero]

/-- The status of an entered order is live exactly when its remainder rests. -/
theorem live_statusAfter {left filled : Quantity} {rests : Bool} (some_ : rests = true → left ≠ 0) :
    rests = true ↔ (OrderManager.statusAfter left filled rests).Live := by
  unfold OrderManager.statusAfter OrderStatus.Live
  cases rests with
  | true =>
    have nonzero : left ≠ 0 := some_ rfl
    by_cases traded : filled > 0
    · simp [nonzero, traded]
    · simp [nonzero, traded]
  | false =>
    by_cases zero : left = 0
    · simp [zero]
    · by_cases traded : filled > 0
      · simp [zero, traded]
      · simp [zero, traded]

/-- No entered order is recorded as rejected. -/
theorem statusAfter_proper (left filled : Quantity) (rests : Bool) :
    OrderManager.statusAfter left filled rests ≠ .rejected := by
  unfold OrderManager.statusAfter
  split_ifs <;> decide

/-- A remainder that rests is not empty. -/
theorem left_of_rests {order : Order} (rests : ledger.rests order = true) :
    (ledger.fillOf order).left ≠ 0 := by
  simp only [Ledger.rests, Bool.and_eq_true, decide_eq_true_eq] at rests
  exact rests.1.2

/-- The entered order rests exactly when its remainder does. -/
theorem Consistent.holds_enter_self (consistent : ledger.Consistent) {order : Order}
    (unknown : order.id ∉ ledger.known) :
    (ledger.enter order).holds order.id = ledger.rests order := by
  have fresh := consistent.fresh_of_unknown unknown
  have swept : (ledger.swept order).Fresh order.id := Book.fresh_sweep fresh _ _
  rw [Bool.eq_iff_iff, holds_iff, fresh_enter]
  simp [swept]

/-- An entry keeps the lifecycle. -/
theorem Lifecycle.enter (life : ledger.Lifecycle) (consistent : ledger.Consistent) {order : Order}
    (valid : validateNewOrder order ledger.known = .none) : (ledger.enter order).Lifecycle := by
  have unknown := (validateNewOrder_none valid).2.2
  have own := consistent.holds_enter_self unknown
  have some_ : ledger.rests order = true → (ledger.fillOf order).left ≠ 0 := left_of_rests
  constructor
  · intro id
    show id ∈ ledger.known.insert order.id ↔ _
    rw [ExtTreeSet.mem_insert, Std.compare_eq_iff_eq]
    by_cases same : order.id = id
    · subst same
      simp [getElem?_enter_self]
    · cases consistent.enter_effect order (Ne.symm same) with
      | untouched _ record _ => simp [same, record, life.known id]
      | traded _ _ found settled _ _ _ => simp [same, settled, life.known id, found]
  · intro id record recorded
    by_cases same : id = order.id
    · subst same
      rw [getElem?_enter_self] at recorded
      obtain rfl := Option.some.inj recorded
      rw [own]
      exact live_statusAfter some_
    · cases consistent.enter_effect order same with
      | untouched _ kept holds =>
        rw [kept] at recorded
        rw [holds]
        exact life.live id record recorded
      | traded _ _ _ settled _ _ holds =>
        rw [settled] at recorded
        obtain rfl := Option.some.inj recorded
        rw [holds]
        exact live_settled _ _
  · intro id record recorded
    by_cases same : id = order.id
    · subst same
      rw [getElem?_enter_self] at recorded
      obtain rfl := Option.some.inj recorded
      exact statusAfter_proper _ _ _
    · cases consistent.enter_effect order same with
      | untouched _ kept holds =>
        rw [kept] at recorded
        exact life.proper id record recorded
      | traded _ _ _ settled _ _ holds =>
        rw [settled] at recorded
        obtain rfl := Option.some.inj recorded
        simp only [Order.settled]
        split_ifs <;> decide

/-- Replacing the record of a recorded id keeps the lifecycle when its status fits the book. -/
theorem Lifecycle.update (life : ledger.Lifecycle) {next : Ledger} {id : OrderId} {record : Order}
    (known : next.known = ledger.known) (listed : id ∈ ledger.known)
    (records : next.records = ledger.records.insert id record)
    (own : next.holds id = true ↔ record.status.Live) (proper : record.status ≠ .rejected)
    (others : ∀ other, other ≠ id → next.holds other = ledger.holds other) : next.Lifecycle := by
  have lookup : ∀ other, next.records[other]? =
      if id = other then some record else ledger.records[other]? := by
    intro other
    simp only [records, ExtTreeMap.getElem?_insert, Std.compare_eq_iff_eq]
  constructor
  · intro other
    rw [known, lookup]
    split
    · rename_i same
      simpa [← same] using listed
    · exact life.known other
  · intro other stored found
    rw [lookup] at found
    split at found
    · rename_i same
      obtain rfl := Option.some.inj found
      rw [← same]
      exact own
    · rename_i apart
      rw [others other (Ne.symm apart)]
      exact life.live other stored found
  · intro other stored found
    rw [lookup] at found
    split at found
    · obtain rfl := Option.some.inj found
      exact proper
    · exact life.proper other stored found

/-- An id that is held was accepted. -/
theorem Consistent.known_of_holds (consistent : ledger.Consistent) {id : OrderId}
    (held : ledger.holds id = true) : id ∈ ledger.known := by
  by_contra unknown
  exact (ledger.holds_iff id).mp held (consistent.fresh_of_unknown unknown)

/-- A call keeps the lifecycle. -/
theorem Step.lifecycle {call : ManagerCall} {result : MatchResult} {next : Ledger}
    (step : ledger.Step call result next) (life : ledger.Lifecycle)
    (consistent : ledger.Consistent) : next.Lifecycle := by
  cases step with
  | refused idle => exact life
  | added plain valid => exact life.enter consistent valid
  | matched valid => exact life.enter consistent valid
  | @cancelled id held =>
    refine life.update rfl (consistent.known_of_holds held) rfl ?_ (by simp) ?_
    · have gone : (ledger.book.cancel id).Fresh id := Book.fresh_cancel.mpr (.inl rfl)
      simp [holds_iff, gone, OrderStatus.Live]
    · intro other apart
      refine holds_congr ?_
      rw [Book.fresh_cancel]
      simp [apart]
  | @amended newOrder held plain valid clear =>
    let renewed : Order := { newOrder with status := .new }
    have rests : ledger.holds renewed.id = true := held
    have kept : ∀ other, (ledger.amend renewed).holds other = ledger.holds other :=
      fun other => holds_congr (consistent.fresh_amend rests other)
    refine life.update rfl (consistent.known_of_holds held) rfl ?_ (by simp)
      (fun other _ => kept other)
    rw [kept, held]
    simp [OrderStatus.Live]

/-- The accepted ids after a call are the earlier ones and the one it entered. -/
theorem Step.mem_known {call : ManagerCall} {result : MatchResult} {next : Ledger}
    (step : ledger.Step call result next) (id : OrderId) :
    id ∈ next.known ↔
      id ∈ ledger.known ∨ call.entry = some id ∧ result.accept.accepted = true := by
  cases step with
  | refused idle => simp [AcceptResult.reject]
  | added plain valid =>
    simp [enter, ManagerCall.entry, AcceptResult.ok, ExtTreeSet.mem_insert, or_comm]
  | matched valid =>
    simp [enter, ManagerCall.entry, AcceptResult.ok, ExtTreeSet.mem_insert, or_comm]
  | cancelled held => simp [ManagerCall.entry]
  | amended held plain valid clear => simp [ManagerCall.entry, amend]

/-- The accepted ids after a run are those that its accepted calls entered. -/
theorem mem_known_run (ledger : Ledger) (calls : List ManagerCall) (id : OrderId) :
    id ∈ (run callLedger ledger calls).2.known ↔
      id ∈ ledger.known ∨ WasAccepted id calls (run callLedger ledger calls).1 := by
  induction calls generalizing ledger with
  | nil => simp [run, WasAccepted]
  | cons call rest ih =>
    have later := ih (callLedger ledger call).2
    rw [(ledger.step_of_call call).mem_known] at later
    simp only [run, WasAccepted, List.zip_cons_cons, List.mem_cons, exists_eq_or_imp] at later ⊢
    rw [later, or_assoc]

/-- A call leaves an id that is done alone: it keeps its record, is in no trade, and is refused
whatever is asked for it. -/
theorem Step.frozen {call : ManagerCall} {result : MatchResult} {next : Ledger}
    (step : ledger.Step call result next) (life : ledger.Lifecycle)
    (consistent : ledger.Consistent) {id : OrderId} {record : Order}
    (found : ledger.records[id]? = some record) (final : record.status.Final) :
    next.records[id]? = some record ∧
      (∀ trade ∈ tradesOf ledger call, trade.incomingOrderId ≠ id ∧ trade.restingOrderId ≠ id) ∧
      (call.id = id → result.accept.accepted = false) := by
  have gone : ledger.holds id = false := by
    rw [← Bool.not_eq_true, life.live id record found]
    rcases final with done | done <;> simp [OrderStatus.Live, done]
  have listed : id ∈ ledger.known := (life.known id).mpr (by simp [found])
  have entered : ∀ order, validateNewOrder order ledger.known = .none →
      (ledger.enter order).records[id]? = some record ∧
        (∀ trade ∈ (ledger.fillOf order).trades,
          trade.incomingOrderId ≠ id ∧ trade.restingOrderId ≠ id) ∧ order.id ≠ id := by
    intro order valid
    have unknown := (validateNewOrder_none valid).2.2
    have apart : id ≠ order.id := fun same => unknown (same ▸ listed)
    cases consistent.enter_effect order apart with
    | untouched alone kept _ =>
      refine ⟨kept.trans found, ?_, apart.symm⟩
      intro trade member
      obtain ⟨maker, _, with_, _⟩ := consistent.trade_maker member
      refine ⟨?_, alone trade member⟩
      rw [with_]
      exact apart.symm
    | traded _ _ _ _ held _ _ =>
      rw [gone] at held
      exact absurd held Bool.false_ne_true
  cases step with
  | refused idle =>
    rw [idle]
    exact ⟨found, by simp, fun _ => rfl⟩
  | @added order plain valid =>
    obtain ⟨kept, alone, apart⟩ := entered order valid
    refine ⟨kept, ?_, fun same => absurd same apart⟩
    rw [tradesOf_added plain valid]
    exact alone
  | @matched order valid =>
    obtain ⟨kept, alone, apart⟩ := entered order valid
    refine ⟨kept, ?_, fun same => absurd same apart⟩
    rw [tradesOf_matched valid]
    exact alone
  | @cancelled other held =>
    have apart : other ≠ id := by
      rintro rfl
      rw [gone] at held
      exact Bool.false_ne_true held
    refine ⟨?_, by simp [tradesOf, OrderManager.enteredBy], fun same => absurd same apart⟩
    show (ledger.records.insert other _)[id]? = _
    rw [ExtTreeMap.getElem?_insert, if_neg (by simpa using apart), found]
  | @amended newOrder held plain valid clear =>
    have apart : newOrder.id ≠ id := by
      intro same
      rw [same, gone] at held
      exact Bool.false_ne_true held
    refine ⟨?_, by simp [tradesOf, OrderManager.enteredBy], fun same => absurd same apart⟩
    show (ledger.records.insert newOrder.id _)[id]? = _
    rw [ExtTreeMap.getElem?_insert, if_neg (by simpa using apart), found]

end Ledger

namespace OrderManager

section Lawful

variable {M : Type} [LawfulMatcher M] {manager : OrderManager (Recorded M)} {ledger : Ledger}

/-- Every run keeps the lifecycle. -/
theorem Mirrors.lifecycle_run (mirrors : manager.Mirrors ledger) (life : ledger.Lifecycle)
    (calls : List ManagerCall) : (Library.run callLedger ledger calls).2.Lifecycle := by
  induction calls generalizing manager ledger with
  | nil => exact life
  | cons call rest ih =>
    exact ih (mirrors.call call).2
      ((ledger.step_of_call call).lifecycle life mirrors.consistent)

/-- A run leaves an id that is done alone. -/
theorem Mirrors.frozen_run (mirrors : manager.Mirrors ledger) (life : ledger.Lifecycle)
    {id : OrderId} {record : Order} (found : ledger.records[id]? = some record)
    (final : record.status.Final) (later : List ManagerCall) :
    (Library.run callManager manager later).2.find id = some record ∧
      (∃ trades, (Library.run callManager manager later).2.matcher.executed =
          manager.matcher.executed ++ trades ∧
        ∀ trade ∈ trades, trade.incomingOrderId ≠ id ∧ trade.restingOrderId ≠ id) ∧
      ∀ pair ∈ later.zip (Library.run callManager manager later).1,
        pair.1.id = id → pair.2.accept.accepted = false := by
  induction later generalizing manager ledger with
  | nil =>
    refine ⟨?_, ⟨[], by simp [Library.run], by simp⟩, by simp⟩
    show manager.orders[id]? = some record
    rw [mirrors.records, found]
  | cons call rest ih =>
    obtain ⟨same, next⟩ := mirrors.call call
    have step := ledger.step_of_call call
    obtain ⟨kept, alone, refused⟩ := step.frozen life mirrors.consistent found final
    obtain ⟨stays, ⟨trades, executed, apart⟩, answers⟩ :=
      ih next (step.lifecycle life mirrors.consistent) kept
    refine ⟨stays, ⟨tradesOf ledger call ++ trades, ?_, ?_⟩, ?_⟩
    · show (Library.run callManager (callManager manager call).2 rest).2.matcher.executed = _
      rw [executed, mirrors.executed_call call, List.append_assoc]
    · intro trade member
      rcases List.mem_append.mp member with first | second
      · exact alone trade first
      · exact apart trade second
    · intro pair member about
      rcases List.mem_cons.mp member with rfl | inside
      · show (callManager manager call).1.accept.accepted = false
        rw [same]
        exact refused about
      · exact answers pair inside about

end Lawful

/-- The lifecycle of an order along every run: an id is active exactly while it is new or
partially filled, it is never recorded as rejected, and it has a status exactly once it was
accepted. When it is filled or cancelled, whatever is called later keeps its record, executes no
trade with it and refuses every request for it. -/
theorem order_lifecycle (allocator : SlabAllocator) (backend : MatcherBackend)
    (calls later : List ManagerCall) (id : OrderId) :
    let reached := run callManager (init (Recorded.start (makeMatcher allocator backend))) calls
    let manager := reached.2
    let ended := run callManager manager later
    (id ∈ manager.activeOrderIds ↔
        manager.statusOf id = some .new ∨ manager.statusOf id = some .partiallyFilled) ∧
      manager.statusOf id ≠ some .rejected ∧
      (manager.statusOf id = none ↔ ¬ WasAccepted id calls reached.1) ∧
      (manager.statusOf id = some .filled ∨ manager.statusOf id = some .cancelled →
        ended.2.find id = manager.find id ∧
          (∀ trade ∈ ended.2.matcher.executed.drop manager.matcher.executed.length,
            trade.incomingOrderId ≠ id ∧ trade.restingOrderId ≠ id) ∧
          ∀ pair ∈ later.zip ended.1, pair.1.id = id → pair.2.accept.accepted = false) := by
  intro reached manager ended
  have represents : Represents (Recorded.start (makeMatcher allocator backend)) Book.empty :=
    Matcher.holds_makeMatcher allocator backend
  have start := mirrors_init represents
  obtain ⟨answers, mirrors⟩ := start.run calls
  have life := start.lifecycle_run Ledger.lifecycle_empty calls
  have accepted := Ledger.mem_known_run Ledger.empty calls id
  let ledger := (run callLedger Ledger.empty calls).2
  have records : manager.orders[id]? = ledger.records[id]? := by
    rw [show manager.orders = ledger.records from mirrors.records]
  have active : id ∈ manager.activeOrderIds ↔ ledger.holds id = true := by
    rw [← ExtTreeSet.contains_iff_mem]
    rw [show manager.activeOrderIds.contains id = _ from mirrors.contains_active id]
  have nobody : id ∉ Ledger.empty.known := by simp [Ledger.empty]
  have listed : WasAccepted id calls reached.1 ↔ (ledger.records[id]?).isSome = true := by
    rw [← life.known id, accepted, show reached.1 = _ from answers]
    simp [nobody]
  cases found : ledger.records[id]? with
  | none =>
    have status : manager.statusOf id = none := by rw [statusOf, records, found, Option.map_none]
    have absent : ledger.holds id ≠ true := by
      intro held
      have known := mirrors.consistent.known_of_holds held
      rw [life.known id, found] at known
      exact Bool.false_ne_true known
    rw [status, active, listed, found]
    simp [absent]
  | some record =>
    have status : manager.statusOf id = some record.status := by
      rw [statusOf, records, found, Option.map_some]
    have live := life.live id record found
    have proper := life.proper id record found
    rw [status, active, listed, found]
    refine ⟨?_, ?_, ?_, ?_⟩
    · rw [live]
      simp [OrderStatus.Live]
    · simpa using proper
    · simp
    · intro done
      have final : record.status.Final := by simpa [OrderStatus.Final] using done
      obtain ⟨kept, ⟨trades, executed, apart⟩, refused⟩ :=
        mirrors.frozen_run life found final later
      refine ⟨?_, ?_, refused⟩
      · show ended.2.find id = manager.orders[id]?
        rw [records, found]
        exact kept
      · rw [show ended.2.matcher.executed = _ from executed, List.drop_left]
        exact apart

/-- A bid that was filled is not cancelled afterwards, and its id is not entered again. -/
theorem order_lifecycle_filled :
    let reached := run callManager
      (init (Recorded.start (makeMatcher (.consecutive 2 (by decide)) .optimized)))
      [.addOrder { id := 1, side := .buy, price := 10, quantity := 5 },
        .matchOrder { id := 2, side := .sell, price := 10, quantity := 5 }]
    let later : List ManagerCall :=
      [.cancelOrder 1, .addOrder { id := 1, side := .buy, price := 9, quantity := 3 }]
    reached.2.statusOf 1 = some .filled ∧
      ∀ pair ∈ later.zip (run callManager reached.2 later).1,
        pair.1.id = 1 → pair.2.accept.accepted = false := by
  intro reached later
  have filled : reached.2.statusOf 1 = some .filled := by decide
  have facts := order_lifecycle (.consecutive 2 (by decide)) .optimized
    [.addOrder { id := 1, side := .buy, price := 10, quantity := 5 },
      .matchOrder { id := 2, side := .sell, price := 10, quantity := 5 }] later 1
  exact ⟨filled, (facts.2.2.2 (.inl filled)).2.2⟩

end OrderManager

end Titan
