import TitanEngine.Feed.LiveOrders
import TitanEngine.Replay.ItchAdapter

/-!
# A feed's book that follows a ledger

The feed's book of a locate follows the ledger of its symbol when it is linked to the orders that
rest there and these are orders a feed can introduce. It still does when both reduce an order,
when both gain one and when both exchange one for another.
-/

namespace Titan

open Library Std

/-- An order a feed can introduce: a plain limit with an id below the synthetic ones and the
shares and price of a message. -/
structure Order.Fed (order : Order) : Prop where
  /-- The id is no synthetic one. -/
  below : order.id.toNat < 1000000000
  /-- The quantity fits the field of a message. -/
  light : order.quantity.toNat < 2 ^ 32
  /-- A limit that may rest. -/
  plain : order.isMarketOrIoc = false
  /-- The price is not zero. -/
  priced : order.price ≠ 0

/-- Feeding does not look at the lifecycle status. -/
theorem Order.fed_face {order : Order} : order.face.Fed ↔ order.Fed :=
  ⟨fun fed => ⟨fed.below, fed.light, fed.plain, fed.priced⟩,
    fun fed => ⟨fed.below, fed.light, fed.plain, fed.priced⟩⟩

/-- What is left of a fed order is fed. -/
theorem Order.Fed.leftOf {order : Order} (fed : order.Fed) {taken : Quantity}
    (covered : taken ≤ order.quantity) : ∀ left ∈ Ledger.leftOf order taken, left.Fed := by
  intro left member
  unfold Ledger.leftOf at member
  by_cases all : taken = order.quantity
  · rw [if_pos all] at member
    nomatch member
  · rw [if_neg all, List.mem_singleton] at member
    subst member
    have smaller : (order.quantity - taken).toNat < 2 ^ 32 := by
      have light := fed.light
      rw [UInt64.toNat_sub_of_le _ _ covered]
      omega
    exact ⟨fed.below, smaller, fed.plain, fed.priced⟩

/-- What is left of an order has the status of the order. -/
theorem Ledger.leftOf_face (order : Order) (taken : Quantity) :
    leftOf order.face taken = (leftOf order taken).map Order.face := by
  unfold leftOf
  show (if taken = order.quantity then _ else _) = _
  split <;> rfl

namespace SymbolBook

/-- The feed's book of a locate follows the ledger of its symbol. -/
structure Follows (book : SymbolBook) (ids : OrderRefNumber → OrderId) (ledger : Ledger) :
    Prop where
  /-- It is linked to what rests. -/
  linked : book.Linked ids ledger.book.faces
  /-- Whatever rests was fed. -/
  fed : ∀ side, ∀ order ∈ ledger.book.faces side, order.Fed

variable {book : SymbolBook} {ids : OrderRefNumber → OrderId} {ledger after : Ledger}

/-- A new book follows a new ledger. -/
theorem follows_empty (ids : OrderRefNumber → OrderId) : empty.Follows ids Ledger.empty where
  linked := by
    have nothing : Ledger.empty.book.faces = fun _ => [] := by
      funext side
      cases side <;> rfl
    rw [nothing]
    exact linked_empty ids
  fed side order member := by
    cases side <;> simp [Ledger.empty, Book.empty, Book.faces, Book.side] at member

/-- Following depends on the names of the live references only. -/
theorem Follows.congr (follows : book.Follows ids ledger) (names : OrderRefNumber → OrderId)
    (same : ∀ ref ∈ book.orders, names ref = ids ref) : book.Follows names ledger where
  linked := follows.linked.congr names same
  fed := follows.fed

/-- Following does not depend on the symbol. -/
theorem Follows.rename (follows : book.Follows ids ledger) (symbol : Symbol) :
    ({ book with symbol := symbol } : SymbolBook).Follows ids ledger where
  linked := follows.linked.rename symbol
  fed := follows.fed

/-- No level overflows: there are fewer ids than would be needed. -/
theorem Follows.bounded (follows : book.Follows ids ledger) (sound : ledger.book.Sound)
    (side : Side) (price : Price) : sharesAt (ledger.book.faces side) price < 2 ^ 64 := by
  have distinct : ((ledger.book.faces side).map (fun order => order.id)).Nodup := by
    rw [Book.faces, List.map_map]
    exact sound.distinct side
  have total : sharesAt (ledger.book.faces side) price ≤ 1000000000 * 2 ^ 32 := by
    apply tally_le distinct
    · intro order member
      exact (follows.fed side order member).below
    · intro order member
      exact Nat.le_of_lt (follows.fed side order member).light
  omega

/-- A live reference names an order of the ledger. -/
theorem Follows.target (follows : book.Follows ids ledger) {ref : OrderRefNumber}
    {resting : RestingOrder} (live : book.orders[ref]? = some resting) :
    ∃ target ∈ ledger.book.side resting.side, target.Fed ∧ target.id = ids ref ∧
      target.price = resting.price ∧ target.quantity = resting.remainingShares := by
  obtain ⟨order, member, fields⟩ := follows.linked.live ref resting live
  have fed := follows.fed resting.side order member
  obtain ⟨target, inside, rfl⟩ := List.mem_map.mp member
  exact ⟨target, inside, Order.fed_face.mp fed, fields⟩

section Moving

variable (follows : book.Follows ids ledger)

include follows

/-- Orders that come by a move are fed, so whatever rests is. -/
theorem Follows.fed_moves {side : Side} {gone come : List Order}
    (moves : Book.Moves ledger.book after.book side gone come) (fed : ∀ order ∈ come, order.Fed) :
    ∀ side, ∀ order ∈ after.book.faces side, order.Fed := by
  obtain ⟨others, before, later⟩ := moves.own
  refine Book.forall_side side ?_ ?_
  · intro order member
    rcases List.mem_append.mp (later.mem_iff.mp member) with inside | inside
    · exact fed order inside
    · exact follows.fed side order (before.mem_iff.mpr (List.mem_append_right _ inside))
  · intro order member
    rw [moves.opposite] at member
    exact follows.fed side.opposite order member

/-- Both reduce an order. -/
theorem Follows.reduceOrder (sound : ledger.book.Sound) {ref : OrderRefNumber}
    {resting : RestingOrder} (live : book.orders[ref]? = some resting) {target : Order}
    (fed : target.Fed) (named : target.id = ids ref) (price : target.price = resting.price)
    (quantity : target.quantity = resting.remainingShares) {taken : Quantity}
    (covered : taken ≤ resting.remainingShares)
    (moves : Book.Moves ledger.book after.book resting.side [target.face]
      ((Ledger.leftOf target taken).map Order.face)) :
    (book.reduceOrder ref taken).Follows ids after where
  linked := by
    obtain ⟨others, before, later⟩ := moves.own
    have reduced := follows.linked.reduceOrder live before named price quantity covered
      (follows.bounded sound resting.side)
    refine reduced.perm (Book.forall_side resting.side ?_ ?_)
    · rw [Function.update_self, Ledger.leftOf_face]
      exact later.symm
    · have other : resting.side.opposite ≠ resting.side := by cases resting.side <;> decide
      rw [Function.update_of_ne other, moves.opposite]
  fed := by
    apply follows.fed_moves moves
    intro order member
    obtain ⟨left, inside, rfl⟩ := List.mem_map.mp member
    exact Order.fed_face.mpr (fed.leftOf (by rw [quantity]; exact covered) left inside)

/-- Both gain an order. -/
theorem Follows.addOrder (ref : OrderRefNumber) {order : Order} (fed : order.Fed)
    (unnamed : ∀ other ∈ book.orders, ids other ≠ order.id) (named : order.id = ids ref)
    (positive : order.quantity ≠ 0)
    (moves : Book.Moves ledger.book after.book order.side [] [order.face]) :
    (book.addOrder ref order.side order.quantity order.price).Follows ids after where
  linked := by
    obtain ⟨others, before, later⟩ := moves.own
    have added := follows.linked.addOrder ref order.face unnamed named positive
    refine added.perm (Book.forall_side order.side ?_ ?_)
    · have own : order.face.side = order.side := rfl
      rw [own, Function.update_self]
      exact (before.cons order.face).trans later.symm
    · have other : order.side.opposite ≠ order.face.side := by
        show order.side.opposite ≠ order.side
        cases order.side <;> decide
      rw [Function.update_of_ne other, moves.opposite]
  fed := by
    apply follows.fed_moves moves
    intro other member
    rw [List.mem_singleton] at member
    subst member
    exact Order.fed_face.mpr fed

/-- Both exchange an order for another one under a new reference; the ledger keeps its id. -/
theorem Follows.replaceOrder (sound : ledger.book.Sound) {ref newRef : OrderRefNumber}
    {resting : RestingOrder} (live : book.orders[ref]? = some resting) {target newOrder : Order}
    (named : target.id = ids ref) (price : target.price = resting.price)
    (quantity : target.quantity = resting.remainingShares) (fed : newOrder.Fed)
    (same : newOrder.id = target.id) (own : newOrder.side = resting.side)
    (positive : newOrder.quantity ≠ 0) (unused : newRef ∉ book.orders)
    (moves : Book.Moves ledger.book after.book resting.side [target.face] [newOrder.face]) :
    ((book.deleteOrder ref).addOrder newRef resting.side newOrder.quantity
      newOrder.price).Follows (Function.update ids newRef newOrder.id) after where
  linked := by
    obtain ⟨others, before, later⟩ := moves.own
    have covered := UInt64.le_refl resting.remainingShares
    have gone := follows.linked.reduceOrder live before named price quantity covered
      (follows.bounded sound resting.side)
    have entries := orders_reduceOrder live covered
    rw [if_pos rfl] at entries
    have stays : ∀ other ∈ (book.reduceOrder ref resting.remainingShares).orders,
        other ∈ book.orders ∧ other ≠ ref ∧ other ≠ newRef := by
      intro other member
      rw [entries, ExtTreeMap.mem_erase] at member
      refine ⟨member.2, fun equal => ?_, fun equal => unused (equal ▸ member.2)⟩
      rw [equal] at member
      exact member.1 ReflCmp.compare_self
    have renamed := gone.congr (Function.update ids newRef newOrder.id) (by
      intro other member
      rw [Function.update_of_ne (stays other member).2.2])
    have unnamed : ∀ other ∈ (book.reduceOrder ref resting.remainingShares).orders,
        Function.update ids newRef newOrder.id other ≠ newOrder.face.id := by
      intro other member equal
      obtain ⟨present, apart, new⟩ := stays other member
      rw [Function.update_of_ne new] at equal
      have names : ids ref = ids other := named.symm.trans (same.symm.trans equal.symm)
      exact apart (follows.linked.apart ref other (mem_of_live live) present names).symm
    have added := renamed.addOrder newRef newOrder.face unnamed
      (by rw [Function.update_self]; rfl) positive
    have side : newOrder.face.side = resting.side := own
    have left : Ledger.leftOf target.face resting.remainingShares = [] := by
      have all : resting.remainingShares = target.face.quantity := quantity.symm
      rw [Ledger.leftOf, if_pos all]
    rw [side] at added
    rw [deleteOrder_eq live]
    refine added.perm (Book.forall_side resting.side ?_ ?_)
    · rw [Function.update_self, Function.update_self, left, List.nil_append]
      exact later.symm
    · have other : resting.side.opposite ≠ resting.side := by cases resting.side <;> decide
      rw [Function.update_of_ne other, Function.update_of_ne other, moves.opposite]
  fed := by
    apply follows.fed_moves moves
    intro other member
    rw [List.mem_singleton] at member
    subst member
    exact Order.fed_face.mpr fed

end Moving

end SymbolBook

end Titan
