import TitanEngine.Exchange.Amending

/-!
# What each call moves

Up to the lifecycle status, every accepted call takes at most one order off one side of the book
and puts at most one there; the other orders of that side and the whole other side stay. An
arrival puts one, a cancel takes one, an amendment exchanges one for another, and an execution
against the head of a side takes it or exchanges it for what is left of it.
-/

namespace Titan

open Library Std

/-- An order without its lifecycle status. -/
def Order.face (order : Order) : Order := { order with status := .new }

/-- Records that agree with an order have its face. -/
theorem Order.Agrees.face {record order : Order} (agrees : record.Agrees order) :
    record.face = order.face := by
  have same := congrArg Order.face agrees
  exact same

namespace Book

/-- The orders of a side without their status. -/
def faces (book : Book) (side : Side) : List Order := (book.side side).map Order.face

/-- One side exchanges some orders for others; nothing else changes. -/
structure Moves (before after : Book) (side : Side) (gone come : List Order) : Prop where
  /-- The side exchanges the orders, in any place of its queues. -/
  own : ∃ others, (before.faces side).Perm (gone ++ others) ∧
    (after.faces side).Perm (come ++ others)
  /-- The other side stays. -/
  opposite : after.faces side.opposite = before.faces side.opposite

/-- An arrival is one more order on its side. -/
theorem moves_rest (book : Book) (order : Order) :
    Moves book (book.rest order) order.side [] [order.face] where
  own := by
    refine ⟨book.faces order.side, List.Perm.refl _, ?_⟩
    unfold faces rest
    rw [side_setSide_same]
    exact (arrive_perm order (book.side order.side)).map Order.face
  opposite := by rw [faces, side_opposite_rest, faces]

/-- An order of a side and the others. -/
theorem Sound.perm_cancel {book : Book} (sound : book.Sound) {side : Side} {order : Order}
    (member : order ∈ book.side side) :
    (book.side side).Perm (order :: (book.cancel order.id).side side) := by
  have distinct : (book.side side).Nodup := List.Nodup.of_map _ (sound.distinct side)
  have others : (book.side side).erase order = (book.cancel order.id).side side := by
    rw [distinct.erase_eq_filter, side_cancel]
    apply List.filter_congr
    intro other inside
    by_cases same : other = order
    · subst same
      rw [bne_self_eq_false, bne_self_eq_false]
    · have apart : other.id ≠ order.id :=
        fun equal => same (sound.eq_of_id_eq inside member equal)
      rw [bne_iff_ne.mpr apart]
      exact bne_iff_ne.mpr same
  rw [← others]
  exact List.perm_cons_erase member

/-- A cancel takes one order off its side. -/
theorem Sound.moves_cancel {book : Book} (sound : book.Sound) {side : Side} {order : Order}
    (member : order ∈ book.side side) :
    Moves book (book.cancel order.id) side [order.face] [] where
  own := ⟨(book.cancel order.id).faces side, (sound.perm_cancel member).map Order.face,
    List.Perm.refl _⟩
  opposite := by
    have kept : (book.cancel order.id).side side.opposite = book.side side.opposite := by
      rw [side_cancel]
      exact filter_id_eq_self (fun other inside => (sound.id_ne member inside).symm)
    rw [faces, kept, faces]

/-- A cancel and an arrival on the same side exchange two orders. -/
theorem Sound.moves_cancel_rest {book : Book} (sound : book.Sound) {side : Side}
    {order newOrder : Order} (member : order ∈ book.side side) (own : newOrder.side = side) :
    Moves book ((book.cancel order.id).rest newOrder) side [order.face] [newOrder.face] := by
  subst own
  have left := sound.moves_cancel member
  have entered := moves_rest (book.cancel order.id) newOrder
  obtain ⟨others, before, between⟩ := left.own
  obtain ⟨rest, again, after⟩ := entered.own
  have same : rest.Perm others := again.symm.trans between
  exact {
    own := ⟨others, before, after.trans (same.append_left _)⟩
    opposite := entered.opposite.trans left.opposite }

end Book

namespace Ledger

variable {ledger : Ledger}

/-- The record of an order that rests has its face. -/
theorem Consistent.recordOf_face (consistent : ledger.Consistent) {side : Side} {order : Order}
    (member : order ∈ ledger.book.side side) : (ledger.recordOf order.id).Agrees order := by
  obtain ⟨record, found, agrees⟩ := consistent.covers side order member
  rw [recordOf, ExtTreeMap.getD_eq_getD_getElem?, found]
  exact agrees

/-- An order that is not amended keeps its face when its level is read back. -/
theorem Consistent.face_rereadOrder (consistent : ledger.Consistent) {side : Side}
    {order newOrder : Order} (member : order ∈ ledger.book.side side)
    (other : order.id ≠ newOrder.id) (price : Price) :
    (rereadOrder (ledger.records.insert newOrder.id newOrder) price order).face = order.face := by
  unfold rereadOrder
  split
  · have lookup : (ledger.records.insert newOrder.id newOrder).getD order.id default =
        ledger.recordOf order.id := by
      rw [ExtTreeMap.getD_insert, if_neg (by simpa using Ne.symm other)]
      rfl
    rw [lookup]
    exact (consistent.recordOf_face member).face
  · rfl

/-- An amendment exchanges an order for its replacement. -/
theorem Consistent.moves_amend (consistent : ledger.Consistent) {target newOrder : Order}
    {side : Side} (member : target ∈ ledger.book.side side) (same : newOrder.id = target.id)
    (own : newOrder.side = side) :
    Book.Moves ledger.book (ledger.amend newOrder).book side [target.face] [newOrder.face] := by
  have sound := consistent.sound
  have agrees := consistent.recordOf_face member
  unfold amend
  by_cases keeps : newOrder.price = (ledger.recordOf newOrder.id).price ∧
      newOrder.quantity ≤ (ledger.recordOf newOrder.id).quantity
  · simp only [if_pos keeps]
    have price : target.price = newOrder.price := by
      rw [same] at keeps
      exact (keeps.1.trans agrees.price).symm
    subst own
    let change := rereadOrder (ledger.records.insert newOrder.id newOrder) newOrder.price
    have amended : change target = newOrder := by
      simp only [change, rereadOrder, price, ↓reduceIte, ← same, ExtTreeMap.getD_insert_self]
    have kept : ∀ order ∈ (ledger.book.cancel target.id).side newOrder.side,
        (change order).face = order.face := by
      intro order inside
      rw [Book.side_cancel, List.mem_filter] at inside
      refine consistent.face_rereadOrder inside.1 ?_ newOrder.price
      rw [same]
      exact bne_iff_ne.mp inside.2
    have split := sound.perm_cancel member
    constructor
    · refine ⟨(ledger.book.cancel target.id).faces newOrder.side, split.map Order.face, ?_⟩
      have others : (((ledger.book.cancel target.id).side newOrder.side).map change).map
          Order.face = (ledger.book.cancel target.id).faces newOrder.side := by
        rw [List.map_map]
        exact List.map_congr_left kept
      have after := (split.map change).map Order.face
      rw [List.map_cons, List.map_cons, amended, others] at after
      rw [Book.faces, reread, Book.side_setSide_same]
      exact after
    · rw [Book.faces, reread, Book.side_opposite_setSide, Book.faces]
  · simp only [if_neg keeps]
    rw [same]
    exact sound.moves_cancel_rest member own

/-- An order that is neither a market order nor immediate or cancel is a limit that may rest. -/
theorem mayRest_of_plain {order : Order} (plain : order.isMarketOrIoc = false) :
    order.mayRest = true ∧ order.matchPrice = order.price := by
  unfold Order.isMarketOrIoc at plain
  unfold Order.mayRest Order.matchPrice
  cases kind : order.type with
  | market => simp [kind] at plain
  | limit =>
    cases force : order.tif with
    | ioc => simp [kind, force] at plain
    | gtc => simp

/-- A limit that crosses nothing trades with nothing. -/
theorem fillOf_clear {order : Order} (price : order.matchPrice = order.price)
    (clear : wouldCross ledger.book order = false) :
    ledger.fillOf order =
      { trades := []
        rest := ledger.book.side order.side.opposite
        left := order.quantity } := by
  unfold fillOf
  cases orders : ledger.book.side order.side.opposite with
  | nil => exact sweep_nil _
  | cons maker rest =>
    apply sweep_stop
    have reach := OrderManager.not_crosses_of_clear clear maker
      (by rw [orders]; exact List.mem_cons_self)
    simp [Order.stoppedBy, price, reach]

/-- An order that crosses nothing rests whole. -/
theorem rests_clear {order : Order} (plain : order.isMarketOrIoc = false)
    (accepted : validateNewOrder order ledger.known = .none)
    (clear : wouldCross ledger.book order = false) :
    ledger.swept order = ledger.book ∧ ledger.rests order = true := by
  obtain ⟨rests_, price⟩ := mayRest_of_plain plain
  have positive := (OrderManager.validateNewOrder_none accepted).1
  have filled := fillOf_clear price clear
  have swept_ : ledger.swept order = ledger.book := by
    rw [swept, filled, Book.setSide_side]
  refine ⟨swept_, ?_⟩
  simp [rests, rests_, filled, swept_, clear, positive]

/-- An order that crosses nothing is entered whole. -/
theorem addOrder_clear {order : Order} (plain : order.isMarketOrIoc = false)
    (accepted : validateNewOrder order ledger.known = .none)
    (clear : wouldCross ledger.book order = false) :
    ledger.addOrder order = (.ok, ledger.enter order) ∧
      Book.Moves ledger.book (ledger.enter order).book order.side [] [order.face] := by
  have filled := fillOf_clear (mayRest_of_plain plain).2 clear
  obtain ⟨swept_, resting⟩ := rests_clear plain accepted clear
  constructor
  · simp [addOrder, plain, accepted]
  · have face : (ledger.remainder order).face = order.face := by
      simp only [remainder, filled, Order.face]
    have moved := Book.moves_rest ledger.book (ledger.remainder order)
    rw [face] at moved
    simp only [enter, resting, swept_, ↓reduceIte]
    exact moved

/-- An order that rests is held. -/
theorem holds_of_mem {side : Side} {order : Order} (member : order ∈ ledger.book.side side) :
    ledger.holds order.id = true := by
  rw [holds_iff]
  exact fun fresh => fresh side order member rfl

/-- An id that is held has a record. -/
theorem Consistent.record_of_holds (consistent : ledger.Consistent) {id : OrderId}
    (held : ledger.holds id = true) : ∃ record, ledger.records[id]? = some record := by
  obtain ⟨side, target, member, rfl⟩ := mem_of_holds held
  obtain ⟨record, found, _⟩ := consistent.covers side target member
  exact ⟨record, found⟩

/-- The record of an id that is held agrees with the order that rests. -/
theorem Consistent.target_of_holds (consistent : ledger.Consistent) {id : OrderId}
    (held : ledger.holds id = true) {record : Order}
    (recorded : ledger.records[id]? = some record) :
    ∃ side, ∃ target ∈ ledger.book.side side, record.Agrees target := by
  obtain ⟨side, target, member, rfl⟩ := mem_of_holds held
  obtain ⟨other, found, agrees⟩ := consistent.covers side target member
  rw [recorded, Option.some.injEq] at found
  exact ⟨side, target, member, found ▸ agrees⟩

/-- An order that rests can be cancelled. -/
theorem Consistent.cancelOrder_resting (consistent : ledger.Consistent) {side : Side}
    {target : Order} (member : target ∈ ledger.book.side side) :
    (ledger.cancelOrder target.id).1.accepted = true ∧
      Book.Moves ledger.book (ledger.cancelOrder target.id).2.book side [target.face] [] ∧
      (ledger.cancelOrder target.id).2.known = ledger.known := by
  unfold cancelOrder
  rw [if_pos (holds_of_mem member)]
  exact ⟨rfl, consistent.sound.moves_cancel member, rfl⟩

/-- An order that rests can be replaced on its side by a valid one that crosses nothing. -/
theorem Consistent.cancelReplace_resting (consistent : ledger.Consistent) {side : Side}
    {target newOrder : Order} (member : target ∈ ledger.book.side side)
    (same : newOrder.id = target.id) (own : newOrder.side = side)
    (plain : newOrder.isMarketOrIoc = false) (positive : newOrder.quantity ≠ 0)
    (priced : newOrder.price ≠ 0) (clear : wouldCross ledger.book newOrder = false) :
    (ledger.cancelReplace target.id newOrder).1.accepted = true ∧
      Book.Moves ledger.book (ledger.cancelReplace target.id newOrder).2.book side [target.face]
        [newOrder.face] ∧
      (ledger.cancelReplace target.id newOrder).2.known = ledger.known := by
  have held := holds_of_mem member
  have valid : validateNewOrder newOrder (ledger.known.erase target.id) = .none := by
    simp [validateNewOrder, positive, priced, same]
  have accepted : ledger.cancelReplace target.id newOrder =
      (.ok, ledger.amend { newOrder with status := .new }) := by
    simp [cancelReplace, held, same, plain, valid, clear]
  rw [accepted]
  exact ⟨rfl, consistent.moves_amend member same own, rfl⟩

/-- What is left of an order after a quantity was taken off it. -/
def leftOf (maker : Order) (traded : Quantity) : List Order :=
  if traded = maker.quantity then [] else [{ maker with quantity := maker.quantity - traded }]

/-- An immediate-or-cancel order without an account that is no larger than the head of the other
side, and crosses it, trades with it alone. -/
theorem enter_head {taker maker : Order} {rest : List Order} (limit : taker.type = .limit)
    (immediate : taker.tif = .ioc) (nobody : taker.accountId = 0)
    (orders : ledger.book.side taker.side.opposite = maker :: rest)
    (reach : crosses taker.side taker.price maker.price = true) (positive : taker.quantity ≠ 0)
    (fits : taker.quantity ≤ maker.quantity) :
    (ledger.fillOf taker).trades = [tradeWith taker.id maker taker.quantity] ∧
      Book.Moves ledger.book (ledger.enter taker).book taker.side.opposite [maker.face]
        ((leftOf maker taker.quantity).map Order.face) := by
  have open_ : taker.stoppedBy maker = false := by
    simp [Order.stoppedBy, Order.matchPrice, limit, nobody, reach]
  have never : ledger.rests taker = false := by
    simp [rests, Order.mayRest, limit, immediate]
  have filled : ledger.fillOf taker =
      { trades := [tradeWith taker.id maker taker.quantity]
        rest := leftOf maker taker.quantity ++ rest
        left := 0 } := by
    unfold fillOf leftOf
    rw [orders]
    by_cases whole : taker.quantity = maker.quantity
    · rw [sweep_consume open_ positive (by rw [whole]; exact UInt64.le_refl _), whole]
      simp
    · have larger : ¬ maker.quantity ≤ taker.quantity :=
        fun covers => whole (UInt64.le_antisymm fits covers)
      rw [sweep_reduce open_ positive larger, if_neg whole]
      rfl
  constructor
  · rw [filled]
  · simp only [enter, never, Bool.false_eq_true, ↓reduceIte]
    constructor
    · refine ⟨rest.map Order.face, ?_, ?_⟩
      · rw [Book.faces, orders]
        exact List.Perm.refl _
      · rw [Book.faces, swept, filled, Book.side_setSide_same, List.map_append]
    · rw [Book.faces, swept, Book.side_opposite_setSide, Book.faces]

end Ledger

end Titan
