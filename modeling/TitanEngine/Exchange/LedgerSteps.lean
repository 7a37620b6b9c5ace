import TitanEngine.Exchange.SelfTrades
import TitanEngine.Spec.Moves
import TitanEngine.Spec.Sweeps

/-!
# What one call does to a ledger

A call is refused and changes nothing, or it enters an order, or it cancels one, or it amends
one. `Ledger.Step` says this once, with what each case has checked; `Ledger.Effect` says what an
entry does to every order but the one that enters.
-/

namespace Titan

open Library Std OrderManager

namespace Ledger

/-- The trades of an accepted `addOrder` are those of the sweep. -/
theorem tradesOf_added {ledger : Ledger} {order : Order} (plain : order.isMarketOrIoc = false)
    (valid : validateNewOrder order ledger.known = .none) :
    tradesOf ledger (.addOrder order) = (ledger.fillOf order).trades := by
  simp [tradesOf, OrderManager.enteredBy, plain, valid]

/-- The trades of an accepted `matchOrder` are those of the sweep. -/
theorem tradesOf_matched {ledger : Ledger} {order : Order}
    (valid : validateNewOrder order ledger.known = .none) :
    tradesOf ledger (.matchOrder order) = (ledger.fillOf order).trades := by
  simp [tradesOf, OrderManager.enteredBy, valid]

/-- Everything a call can do. -/
inductive Step (ledger : Ledger) : ManagerCall → MatchResult → Ledger → Prop
  /-- The call is refused. -/
  | refused {call : ManagerCall} {reason : RejectReason} (idle : tradesOf ledger call = []) :
      Step ledger call { trades := [], accept := .reject reason } ledger
  /-- `addOrder` enters an order; its trades are not returned. -/
  | added {order : Order} (plain : order.isMarketOrIoc = false)
      (valid : validateNewOrder order ledger.known = .none) :
      Step ledger (.addOrder order) { trades := [], accept := .ok } (ledger.enter order)
  /-- `matchOrder` enters an order. -/
  | matched {order : Order} (valid : validateNewOrder order ledger.known = .none) :
      Step ledger (.matchOrder order) { trades := (ledger.fillOf order).trades, accept := .ok }
        (ledger.enter order)
  /-- An order that rests is cancelled. -/
  | cancelled {id : OrderId} (held : ledger.holds id = true) :
      Step ledger (.cancelOrder id) { trades := [], accept := .ok } { ledger with
        book := ledger.book.cancel id
        records := ledger.records.insert id { ledger.recordOf id with status := .cancelled } }
  /-- An order that rests is amended. -/
  | amended {newOrder : Order} (held : ledger.holds newOrder.id = true)
      (plain : newOrder.isMarketOrIoc = false)
      (valid : validateNewOrder newOrder (ledger.known.erase newOrder.id) = .none)
      (clear : wouldCross ledger.book newOrder = false) :
      Step ledger (.cancelReplace newOrder.id newOrder) { trades := [], accept := .ok }
        (ledger.amend { newOrder with status := .new })

/-- A call does one of these. -/
theorem step_of_call (ledger : Ledger) (call : ManagerCall) :
    ledger.Step call (callLedger ledger call).1 (callLedger ledger call).2 := by
  cases call with
  | addOrder order =>
    simp only [callLedger, addOrder]
    cases plain : order.isMarketOrIoc with
    | true => exact .refused (by simp [tradesOf, OrderManager.enteredBy, plain])
    | false =>
      cases valid : validateNewOrder order ledger.known with
      | none => exact .added plain valid
      | _ => exact .refused (by simp [tradesOf, OrderManager.enteredBy, plain, valid])
  | matchOrder order =>
    simp only [callLedger, matchOrder]
    cases valid : validateNewOrder order ledger.known with
    | none => exact .matched valid
    | _ => exact .refused (by simp [tradesOf, OrderManager.enteredBy, valid])
  | cancelOrder id =>
    simp only [callLedger, cancelOrder]
    cases held : ledger.holds id with
    | false => exact .refused rfl
    | true => exact .cancelled held
  | cancelReplace oldId newOrder =>
    simp only [callLedger, cancelReplace]
    cases held : ledger.holds oldId with
    | false => exact .refused rfl
    | true =>
      by_cases same : newOrder.id = oldId
      · subst same
        simp only [Bool.not_true, Bool.false_eq_true, ne_eq, not_true_eq_false, ↓reduceIte]
        cases plain : newOrder.isMarketOrIoc with
        | true => exact .refused rfl
        | false =>
          cases valid : validateNewOrder newOrder (ledger.known.erase newOrder.id) with
          | none =>
            cases clear : wouldCross ledger.book newOrder with
            | true => exact .refused rfl
            | false => exact .amended held plain valid clear
          | _ => exact .refused rfl
      · simp only [same, ne_eq, not_false_eq_true, ↓reduceIte]
        exact .refused rfl

variable {ledger : Ledger}

/-- An id that is not held rests nowhere. -/
theorem not_holds_iff (ledger : Ledger) (id : OrderId) :
    ledger.holds id = false ↔ ledger.book.Fresh id := by
  rw [← Bool.not_eq_true, holds_iff, not_not]

/-- An unknown id is not held. -/
theorem Consistent.fresh_of_unknown (consistent : ledger.Consistent) {id : OrderId}
    (unknown : id ∉ ledger.known) : ledger.book.Fresh id :=
  fun side order member same => unknown (same ▸ consistent.known side order member)

/-- What an entry does to an order that is not the one entered. -/
inductive Effect (ledger next : Ledger) (trades : List Trade) (id : OrderId) : Prop
  /-- Nothing. -/
  | untouched (alone : ∀ trade ∈ trades, trade.restingOrderId ≠ id)
      (record : next.records[id]? = ledger.records[id]?) (holds : next.holds id = ledger.holds id)
  /-- One trade lowers it, and it rests unless nothing is left. -/
  | traded {trade : Trade} (member : trade ∈ trades) (resting : trade.restingOrderId = id)
      {record : Order} (found : ledger.records[id]? = some record)
      (settled : next.records[id]? = some (record.settled trade.quantity))
      (held : ledger.holds id = true) (covered : trade.quantity ≤ record.quantity)
      (holds : next.holds id = decide (record.quantity - trade.quantity ≠ 0))

/-- An entered order rests exactly when its remainder does; for any other id the sweep decides. -/
theorem fresh_enter (ledger : Ledger) (order : Order) (id : OrderId) :
    (ledger.enter order).book.Fresh id ↔
      (ledger.rests order = true → id ≠ order.id) ∧ (ledger.swept order).Fresh id := by
  cases resting : ledger.rests order with
  | true =>
    have book : (ledger.enter order).book =
        (ledger.swept order).rest (ledger.remainder order) := by
      simp only [enter, resting, ↓reduceIte]
    rw [book, Book.fresh_rest]
    simp [remainder]
  | false =>
    have book : (ledger.enter order).book = ledger.swept order := by
      simp only [enter, resting, Bool.false_eq_true, ↓reduceIte]
    rw [book]
    simp

/-- An id rests after a sweep when it rests on the order's own side, or in what the sweep left. -/
theorem fresh_swept (ledger : Ledger) (order : Order) (id : OrderId) :
    (ledger.swept order).Fresh id ↔
      (∀ other ∈ ledger.book.side order.side, other.id ≠ id) ∧
        ∀ other ∈ (ledger.fillOf order).rest, other.id ≠ id := by
  constructor
  · intro fresh
    refine ⟨?_, ?_⟩
    · intro other member
      refine fresh order.side other ?_
      simpa [swept] using member
    · intro other member
      refine fresh order.side.opposite other ?_
      simpa [swept] using member
  · rintro ⟨own, left⟩
    refine Book.forall_side order.side ?_ ?_
    · intro other member
      refine own other ?_
      simpa [swept] using member
    · intro other member
      refine left other ?_
      simpa [swept] using member

/-- Two ledgers hold an id alike when it is fresh in both or in neither. -/
theorem holds_congr {left right : Ledger} {id : OrderId}
    (same : left.book.Fresh id ↔ right.book.Fresh id) : left.holds id = right.holds id := by
  rw [Bool.eq_iff_iff, holds_iff, holds_iff, same]

/-- An entry leaves an order alone, or one of its trades lowers it. -/
theorem Consistent.enter_effect (consistent : ledger.Consistent) (order : Order) {id : OrderId}
    (other : id ≠ order.id) :
    Effect ledger (ledger.enter order) (ledger.fillOf order).trades id := by
  have sound := consistent.sound
  have after : (ledger.enter order).book.Fresh id ↔ (ledger.swept order).Fresh id := by
    rw [fresh_enter]
    simp [other]
  by_cases listed : ∃ maker ∈ ledger.book.side order.side.opposite, maker.id = id
  · obtain ⟨maker, member, rfl⟩ := listed
    have held : ledger.holds maker.id = true :=
      (ledger.holds_iff maker.id).mpr (fun fresh => fresh _ maker member rfl)
    obtain ⟨record, found, agrees⟩ := consistent.covers _ maker member
    have quantity := agrees.quantity
    have distinct := consistent.distinct_trades order
    have resting : ∀ traded, (tradeWith order.id maker traded).restingOrderId = maker.id :=
      fun _ => rfl
    have settled : ∀ traded, tradeWith order.id maker traded ∈ (ledger.fillOf order).trades →
        (ledger.enter order).records[maker.id]? = some (record.settled traded) := by
      intro traded inside
      have step := getElem?_settleAll_of_mem distinct inside ledger.records
      rw [getElem?_enter_of_ne other]
      rw [resting, found] at step
      exact step
    have fate : Swept order.id (ledger.fillOf order) maker :=
      swept_of_mem (sound.distinct order.side.opposite) member
    cases fate with
    | untouched alone rests =>
      refine .untouched alone ?_ ?_
      · rw [getElem?_enter_of_ne other, getElem?_settleAll_of_ne alone]
      · rw [held, holds_iff, after, fresh_swept]
        exact fun fresh => fresh.2 maker rests rfl
    | consumed traded gone =>
      refine .traded traded rfl found (settled _ traded) held ?_ ?_
      · rw [quantity]
        exact UInt64.le_refl _
      · have nothing : record.quantity - maker.quantity = 0 := by rw [quantity, UInt64.sub_self]
        show _ = decide (record.quantity - maker.quantity ≠ 0)
        rw [nothing]
        refine (not_holds_iff _ _).mpr (after.mpr ((fresh_swept _ _ _).mpr ⟨?_, gone⟩))
        exact fun own inside => sound.id_ne inside member
    | reduced traded part inside rests =>
      have less : traded ≤ record.quantity := by
        rw [quantity]
        exact UInt64.le_of_lt part
      refine .traded inside rfl found (settled _ inside) held less ?_
      have something : record.quantity - traded ≠ 0 := by
        rw [quantity]
        grind
      show _ = decide (record.quantity - traded ≠ 0)
      rw [decide_eq_true something, holds_iff, after, fresh_swept]
      exact fun fresh => fresh.2 _ rests rfl
  · have absent : ∀ maker ∈ ledger.book.side order.side.opposite, maker.id ≠ id :=
      fun maker member same => listed ⟨maker, member, same⟩
    have alone : ∀ trade ∈ (ledger.fillOf order).trades, trade.restingOrderId ≠ id := by
      intro trade member
      obtain ⟨maker, inside, with_, _⟩ := consistent.trade_maker member
      rw [with_]
      exact absent maker inside
    have left : ∀ rest ∈ (ledger.fillOf order).rest, rest.id ≠ id := by
      intro rest member
      obtain ⟨maker, inside, equal⟩ := exists_mem_of_mem_sweep_rest member
      rw [← equal]
      exact absent maker inside
    refine .untouched alone ?_ ?_
    · rw [getElem?_enter_of_ne other, getElem?_settleAll_of_ne alone]
    · refine holds_congr (after.trans ?_)
      rw [fresh_swept]
      constructor
      · rintro ⟨own, _⟩
        exact Book.forall_side order.side own absent
      · exact fun fresh => ⟨fresh order.side, left⟩

/-- Reading a level back changes no id. -/
theorem Consistent.id_rereadOrder (consistent : ledger.Consistent) {side : Side}
    {order : Order} (newOrder : Order) (member : order ∈ ledger.book.side side) (price : Price) :
    (rereadOrder (ledger.records.insert newOrder.id newOrder) price order).id = order.id := by
  by_cases own : order.id = newOrder.id
  · unfold rereadOrder
    split
    · rw [own, ExtTreeMap.getD_insert_self]
    · rfl
  · have same := congrArg Order.id (consistent.face_rereadOrder member own price)
    exact same

/-- An amendment keeps the same ids resting. -/
theorem Consistent.fresh_amend (consistent : ledger.Consistent) {newOrder : Order}
    (held : ledger.holds newOrder.id = true) (id : OrderId) :
    (ledger.amend newOrder).book.Fresh id ↔ ledger.book.Fresh id := by
  unfold amend
  by_cases keeps : newOrder.price = (ledger.recordOf newOrder.id).price ∧
      newOrder.quantity ≤ (ledger.recordOf newOrder.id).quantity
  · simp only [if_pos keeps]
    refine Book.fresh_congr (Book.forall_side newOrder.side ?_ ?_) id
    · rw [reread, Book.side_setSide_same, List.map_map]
      exact List.map_congr_left
        (fun order member => consistent.id_rereadOrder newOrder member newOrder.price)
    · rw [reread, Book.side_opposite_setSide]
  · simp only [if_neg keeps]
    rw [Book.fresh_rest, Book.fresh_cancel]
    rw [holds_iff] at held
    by_cases own : id = newOrder.id
    · subst own
      simp [held]
    · simp [own]

end Ledger

end Titan
