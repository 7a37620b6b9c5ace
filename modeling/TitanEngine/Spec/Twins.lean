import TitanEngine.Exchange.Lifecycle
import TitanEngine.Spec.Sweeps

/-!
# Ledgers that differ in foreign ids

Two ledgers are twins when they hold the same book and agree on every id of a kind that covers
whatever rests. A call that enters an id of that kind, or none, is answered alike by both; an
immediate-or-cancel order may even enter each of them under a foreign id of its own.
-/

namespace Titan

open Library Std

/-- The taker's id is all that a sweep has of the taker. -/
theorem sweep_rename (taker other : OrderId) (stops : Order → Bool) (quantity : Quantity)
    (makers : List Order) :
    sweep other stops quantity makers =
      { sweep taker stops quantity makers with
        trades := (sweep taker stops quantity makers).trades.map
          (fun trade => { trade with incomingOrderId := other }) } := by
  induction makers generalizing quantity with
  | nil => simp
  | cons maker rest ih =>
    by_cases zero : quantity = 0
    · simp [zero]
    cases stop : stops maker with
    | true => simp [sweep_stop stop]
    | false =>
      by_cases fits : maker.quantity ≤ quantity
      · rw [sweep_consume stop zero fits, sweep_consume stop zero fits, ih]
        simp [tradeWith]
      · rw [sweep_reduce stop zero fits, sweep_reduce stop zero fits]
        simp [tradeWith]

/-- Trades of resting orders on which two records agree leave them in agreement. -/
theorem settleAll_congr {own : OrderId → Prop} {left right : IdMap Order} {trades : List Trade}
    (mine : ∀ trade ∈ trades, own trade.restingOrderId)
    (same : ∀ id, own id → left[id]? = right[id]?) :
    ∀ id, own id → (trades.foldl settle left)[id]? = (trades.foldl settle right)[id]? := by
  induction trades generalizing left right with
  | nil => exact same
  | cons trade rest ih =>
    refine ih (fun later member => mine later (List.mem_cons_of_mem trade member)) ?_
    intro id owned
    have entry := same trade.restingOrderId (mine trade List.mem_cons_self)
    unfold settle
    rw [entry]
    cases right[trade.restingOrderId]? with
    | none => exact same id owned
    | some snapshot => rw [ExtTreeMap.getElem?_insert, ExtTreeMap.getElem?_insert, same id owned]

/-- An order is checked against its own id alone. -/
theorem validateNewOrder_congr {order : Order} {left right : IdSet}
    (same : order.id ∈ left ↔ order.id ∈ right) :
    validateNewOrder order left = validateNewOrder order right := by
  have contained : left.contains order.id = right.contains order.id := by
    rw [Bool.eq_iff_iff]
    simpa using same
  unfold validateNewOrder
  rw [contained]

namespace Ledger

/-- The ledgers hold the same book and agree on the ids of a kind that covers it. -/
structure Twins (own : OrderId → Prop) (left right : Ledger) : Prop where
  /-- The books are equal. -/
  book : left.book = right.book
  /-- Only ids of the kind rest. -/
  owned : ∀ id, ¬ own id → left.book.Fresh id
  /-- The same of them were accepted. -/
  known : ∀ id, own id → (id ∈ left.known ↔ id ∈ right.known)
  /-- Their records are the same. -/
  records : ∀ id, own id → left.records[id]? = right.records[id]?

namespace Twins

variable {own : OrderId → Prop} {left right : Ledger}

/-- Nothing was accepted by either. -/
theorem empty : Twins own Ledger.empty Ledger.empty where
  book := rfl
  owned _ _ := by
    intro side order member
    cases side <;> simp [Ledger.empty, Book.empty, Book.side] at member
  known _ _ := Iff.rfl
  records _ _ := rfl

/-- Whatever rests has an id of the kind. -/
theorem own_of_mem (twins : Twins own left right) {side : Side} {order : Order}
    (member : order ∈ left.book.side side) : own order.id := by
  by_contra foreign
  exact twins.owned order.id foreign side order member rfl

/-- Both hold the same ids. -/
theorem holds (twins : Twins own left right) (id : OrderId) : left.holds id = right.holds id := by
  unfold Ledger.holds
  rw [twins.book]

/-- What is held has an id of the kind. -/
theorem own_of_holds (twins : Twins own left right) {id : OrderId} (held : left.holds id = true) :
    own id := by
  by_contra foreign
  exact (left.holds_iff id).mp held (twins.owned id foreign)

/-- An order is swept alike, whatever its id. -/
theorem fillOf (twins : Twins own left right) (order : Order) (id : OrderId) :
    right.fillOf { order with id := id } =
      { left.fillOf order with
        trades := (left.fillOf order).trades.map
          (fun trade => { trade with incomingOrderId := id }) } := by
  unfold Ledger.fillOf
  rw [← twins.book]
  exact sweep_rename order.id id order.stoppedBy order.quantity _

/-- A sweep leaves only ids of the kind. -/
theorem owned_swept (twins : Twins own left right) (order : Order) {id : OrderId}
    (foreign : ¬ own id) : (left.swept order).Fresh id := by
  intro side other member
  obtain ⟨maker, inside, same⟩ := mem_swept member
  rw [← same]
  exact twins.owned id foreign side maker inside

/-- The records agree once a sweep is settled. -/
theorem settled (twins : Twins own left right) (consistent : left.Consistent) (order : Order)
    (other : OrderId) {id : OrderId} (owned : own id) :
    ((left.fillOf order).trades.foldl settle left.records)[id]? =
      ((right.fillOf { order with id := other }).trades.foldl settle right.records)[id]? := by
  have mine : ∀ trade ∈ (left.fillOf order).trades, own trade.restingOrderId := by
    intro trade member
    obtain ⟨maker, inside, with_, _⟩ := consistent.trade_maker member
    rw [with_]
    exact twins.own_of_mem inside
  rw [twins.fillOf, List.foldl_map]
  exact settleAll_congr mine twins.records id owned

/-- Both enter an order of the kind. -/
theorem enter (twins : Twins own left right) (consistent : left.Consistent) {order : Order}
    (owned : own order.id) : Twins own (left.enter order) (right.enter order) := by
  have fills : right.fillOf order = left.fillOf order := by
    unfold Ledger.fillOf
    rw [twins.book]
  have swept : right.swept order = left.swept order := by
    unfold Ledger.swept
    rw [twins.book, fills]
  have rests : right.rests order = left.rests order := by
    unfold Ledger.rests
    rw [fills, swept]
  have remainder : right.remainder order = left.remainder order := by
    unfold Ledger.remainder
    rw [fills]
  constructor
  · simp only [Ledger.enter, swept, rests, remainder]
  · intro id foreign
    refine (fresh_enter left order id).mpr ⟨?_, twins.owned_swept order foreign⟩
    rintro _ rfl
    exact foreign owned
  · intro id mine
    simp only [Ledger.enter, ExtTreeSet.mem_insert, twins.known id mine]
  · intro id mine
    have settled := twins.settled consistent order order.id mine
    simp only [Ledger.enter, rests, fills] at settled ⊢
    rw [ExtTreeMap.getElem?_insert, ExtTreeMap.getElem?_insert, settled]

/-- Each enters an order that never rests under a foreign id of its own. -/
theorem enter_foreign (twins : Twins own left right) (consistent : left.Consistent)
    {order : Order} (never : order.mayRest = false) (foreign : ¬ own order.id) {other : OrderId}
    (foreignOther : ¬ own other) :
    Twins own (left.enter order) (right.enter { order with id := other }) := by
  have fills := twins.fillOf order other
  have gone : left.rests order = false := by simp [Ledger.rests, never]
  have goneOther : right.rests { order with id := other } = false := by
    have same : ({ order with id := other } : Order).mayRest = false := never
    simp [Ledger.rests, same]
  have swept : right.swept { order with id := other } = left.swept order := by
    unfold Ledger.swept
    rw [fills, twins.book]
  have book : (left.enter order).book = left.swept order := by
    simp only [Ledger.enter, gone, Bool.false_eq_true, ↓reduceIte]
  constructor
  · rw [book]
    simp only [Ledger.enter, goneOther, Bool.false_eq_true, ↓reduceIte, swept]
  · intro id notMine
    rw [book]
    exact twins.owned_swept order notMine
  · intro id mine
    have apart : order.id ≠ id := fun same => foreign (same ▸ mine)
    have apartOther : other ≠ id := fun same => foreignOther (same ▸ mine)
    simp [Ledger.enter, ExtTreeSet.mem_insert, apart, apartOther, twins.known id mine]
  · intro id mine
    have apart : id ≠ order.id := fun same => foreign (same ▸ mine)
    have apartOther : id ≠ ({ order with id := other } : Order).id := by
      intro same
      subst same
      exact foreignOther mine
    rw [getElem?_enter_of_ne apart, getElem?_enter_of_ne apartOther]
    exact twins.settled consistent order other mine

/-- Both amend an order that rests. -/
theorem amend (twins : Twins own left right) (consistent : left.Consistent) {newOrder : Order}
    (held : left.holds newOrder.id = true) :
    Twins own (left.amend newOrder) (right.amend newOrder) := by
  have owned := twins.own_of_holds held
  have records : ∀ id, own id → (left.records.insert newOrder.id newOrder)[id]? =
      (right.records.insert newOrder.id newOrder)[id]? := by
    intro id mine
    rw [ExtTreeMap.getElem?_insert, ExtTreeMap.getElem?_insert, twins.records id mine]
  have existing : left.recordOf newOrder.id = right.recordOf newOrder.id := by
    unfold Ledger.recordOf
    rw [ExtTreeMap.getD_eq_getD_getElem?, ExtTreeMap.getD_eq_getD_getElem?,
      twins.records newOrder.id owned]
  have reread : Ledger.reread left.book (left.records.insert newOrder.id newOrder) newOrder.side
      newOrder.price = Ledger.reread right.book (right.records.insert newOrder.id newOrder)
      newOrder.side newOrder.price := by
    unfold Ledger.reread
    rw [← twins.book]
    congr 1
    refine List.map_congr_left (fun order member => ?_)
    unfold rereadOrder
    rw [ExtTreeMap.getD_eq_getD_getElem?, ExtTreeMap.getD_eq_getD_getElem?,
      records order.id (twins.own_of_mem member)]
  constructor
  · simp only [Ledger.amend, existing, reread]
    rw [twins.book]
  · intro id foreign
    exact (consistent.fresh_amend held id).mpr (twins.owned id foreign)
  · exact twins.known
  · exact records

/-- Both cancel an order that rests. -/
theorem cancel (twins : Twins own left right) {id : OrderId} (held : left.holds id = true) :
    Twins own
      { left with
        book := left.book.cancel id
        records := left.records.insert id { left.recordOf id with status := .cancelled } }
      { right with
        book := right.book.cancel id
        records := right.records.insert id { right.recordOf id with status := .cancelled } } := by
  have existing : left.recordOf id = right.recordOf id := by
    unfold Ledger.recordOf
    rw [ExtTreeMap.getD_eq_getD_getElem?, ExtTreeMap.getD_eq_getD_getElem?,
      twins.records id (twins.own_of_holds held)]
  constructor
  · exact congrArg (fun book => Book.cancel book id) twins.book
  · intro other foreign
    exact Book.fresh_cancel.mpr (.inr (twins.owned other foreign))
  · exact twins.known
  · intro other mine
    show (left.records.insert id _)[other]? = (right.records.insert id _)[other]?
    rw [ExtTreeMap.getElem?_insert, ExtTreeMap.getElem?_insert, existing, twins.records other mine]

/-- A call that enters an id of the kind, or none, is answered alike by both. -/
theorem call (twins : Twins own left right) (consistent : left.Consistent) (request : ManagerCall)
    (entered : ∀ id ∈ request.entry, own id) :
    (callLedger left request).1 = (callLedger right request).1 ∧
      Twins own (callLedger left request).2 (callLedger right request).2 := by
  cases request with
  | addOrder order =>
    have owned := entered order.id rfl
    have valid := validateNewOrder_congr (twins.known order.id owned)
    simp only [callLedger, addOrder, ← valid]
    split
    · exact ⟨rfl, twins⟩
    · cases validateNewOrder order left.known with
      | none => exact ⟨rfl, twins.enter consistent owned⟩
      | _ => exact ⟨rfl, twins⟩
  | matchOrder order =>
    have owned := entered order.id rfl
    have valid := validateNewOrder_congr (twins.known order.id owned)
    have fills : right.fillOf order = left.fillOf order := by
      unfold Ledger.fillOf
      rw [twins.book]
    simp only [callLedger, matchOrder, ← valid, fills]
    cases validateNewOrder order left.known with
    | none => exact ⟨rfl, twins.enter consistent owned⟩
    | _ => exact ⟨rfl, twins⟩
  | cancelOrder id =>
    simp only [callLedger, cancelOrder, ← twins.holds]
    cases held : left.holds id with
    | true => exact ⟨rfl, twins.cancel held⟩
    | false => exact ⟨rfl, twins⟩
  | cancelReplace oldId newOrder =>
    simp only [callLedger, cancelReplace, ← twins.holds]
    cases held : left.holds oldId with
    | false => exact ⟨rfl, twins⟩
    | true =>
      by_cases same : newOrder.id = oldId
      · subst same
        have owned := twins.own_of_holds held
        have valid : validateNewOrder newOrder (left.known.erase newOrder.id) =
            validateNewOrder newOrder (right.known.erase newOrder.id) :=
          validateNewOrder_congr (by simp [ExtTreeSet.mem_erase])
        simp only [Bool.not_true, Bool.false_eq_true, ne_eq, not_true_eq_false, ↓reduceIte,
          ← valid, ← twins.book]
        split
        · exact ⟨rfl, twins⟩
        · cases validateNewOrder newOrder (left.known.erase newOrder.id) with
          | none =>
            cases wouldCross left.book newOrder with
            | true => exact ⟨rfl, twins⟩
            | false =>
              have rests : left.holds ({ newOrder with status := .new } : Order).id = true := held
              exact ⟨rfl, twins.amend consistent rests⟩
          | _ => exact ⟨rfl, twins⟩
      · simp only [same, ne_eq, not_false_eq_true, ↓reduceIte]
        exact ⟨rfl, twins⟩

/-- An order that never rests may enter each under a new foreign id. -/
theorem match_foreign (twins : Twins own left right) (consistent : left.Consistent)
    {order : Order} (never : order.mayRest = false) (foreign : ¬ own order.id)
    (new : order.id ∉ left.known) {other : OrderId} (foreignOther : ¬ own other)
    (newOther : other ∉ right.known) :
    let renamed : Order := { order with id := other }
    ((callLedger left (.matchOrder order)).1.trades.isEmpty =
        (callLedger right (.matchOrder renamed)).1.trades.isEmpty) ∧
      Twins own (callLedger left (.matchOrder order)).2
        (callLedger right (.matchOrder renamed)).2 := by
  intro renamed
  have valid : validateNewOrder order left.known = validateNewOrder renamed right.known := by
    have unlisted : renamed.id ∉ right.known := newOther
    have quantity : renamed.quantity = order.quantity := rfl
    have type : renamed.type = order.type := rfl
    have price : renamed.price = order.price := rfl
    simp [validateNewOrder, new, unlisted, quantity, type, price]
  have trades : (right.fillOf renamed).trades.isEmpty = (left.fillOf order).trades.isEmpty := by
    rw [twins.fillOf order other, List.isEmpty_map]
  simp only [callLedger, matchOrder, ← valid]
  cases validateNewOrder order left.known with
  | none => exact ⟨trades.symm, twins.enter_foreign consistent never foreign foreignOther⟩
  | _ => exact ⟨rfl, twins⟩

end Twins

end Ledger

end Titan
