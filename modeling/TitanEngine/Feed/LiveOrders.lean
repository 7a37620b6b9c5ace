import TitanEngine.Feed.BookBuilder
import TitanEngine.Library.Tally
import TitanEngine.Spec.Moves

/-!
# The orders behind a feed's book

A symbol book keeps the shares of each level beside the live references. It is linked to lists of
resting orders when every live reference names one of them, no two name the same one and each
level holds the total of its price. Introducing, reducing and removing a reference keeps the
link with the lists that gain, reduce or lose the order it names.
-/

namespace Titan

open Library Std

/-- The total quantity at each price. -/
def sharesAt (orders : List Order) : Price → Nat :=
  tally (fun order => order.price) (fun order => order.quantity) orders

/-- Totals do not depend on the lifecycle status. -/
theorem sharesAt_face (orders : List Order) :
    sharesAt (orders.map Order.face) = sharesAt orders := by
  unfold sharesAt
  apply tally_map
  · exact fun _ => rfl
  · exact fun _ => rfl

/-- One more order adds its quantity at its price. -/
theorem sharesAt_cons (order : Order) (orders : List Order) :
    sharesAt (order :: orders) = Function.update (sharesAt orders) order.price
      (sharesAt orders order.price + order.quantity.toNat) := tally_cons order orders

/-- Taking a quantity off an order takes it off the total at its price. -/
theorem sharesAt_leftOf {order : Order} {taken : Quantity} (covered : taken ≤ order.quantity)
    (others : List Order) :
    sharesAt (Ledger.leftOf order taken ++ others) =
      Function.update (sharesAt (order :: others)) order.price
        (sharesAt (order :: others) order.price - taken.toNat) := by
  have least := UInt64.le_iff_toNat_le.mp covered
  rw [sharesAt_cons, Function.update_self, Function.update_idem]
  unfold Ledger.leftOf
  by_cases all : taken = order.quantity
  · rw [if_pos all, all, Nat.add_sub_cancel, Function.update_eq_self]
    rfl
  · rw [if_neg all, List.singleton_append, sharesAt_cons, Nat.add_sub_assoc least]
    show Function.update (sharesAt others) order.price
      (sharesAt others order.price + (order.quantity - taken).toNat) = _
    rw [UInt64.toNat_sub_of_le _ _ covered]

namespace SymbolBook

variable {book : SymbolBook}

@[simp] theorem levels_setLevels_same (book : SymbolBook) (side : Side)
    (levels : PriceMap Quantity) : (book.setLevels side levels).levels side = levels := by
  cases side <;> rfl

@[simp] theorem levels_setLevels_opposite (book : SymbolBook) (side : Side)
    (levels : PriceMap Quantity) :
    (book.setLevels side levels).levels side.opposite = book.levels side.opposite := by
  cases side <;> rfl

@[simp] theorem orders_setLevels (book : SymbolBook) (side : Side)
    (levels : PriceMap Quantity) : (book.setLevels side levels).orders = book.orders := by
  cases side <;> rfl

@[simp] theorem symbol_setLevels (book : SymbolBook) (side : Side)
    (levels : PriceMap Quantity) : (book.setLevels side levels).symbol = book.symbol := by
  cases side <;> rfl

/-- The levels do not depend on the orders. -/
@[simp] theorem levels_withOrders (book : SymbolBook) (orders : IdMap RestingOrder) (side : Side) :
    ({ book with orders := orders } : SymbolBook).levels side = book.levels side := by
  cases side <;> rfl

/-- What `removeLevel` leaves of the levels of its side. -/
def lowered (levels : PriceMap Quantity) (price : Price) (qty : Quantity) : PriceMap Quantity :=
  match levels[price]? with
  | none => levels
  | some held => if qty ≥ held then levels.erase price else levels.insert price (held - qty)

/-- `removeLevel` replaces the levels of its side. -/
theorem removeLevel_eq (book : SymbolBook) (side : Side) (price : Price) (qty : Quantity) :
    book.removeLevel side price qty =
      book.setLevels side (lowered (book.levels side) price qty) := by
  simp only [removeLevel, lowered]
  cases (book.levels side)[price]? with
  | none => cases side <;> rfl
  | some held =>
    simp only
    split <;> rfl

/-- Deleting a live order is reducing it by all of its shares. -/
theorem deleteOrder_eq {ref : OrderRefNumber} {resting : RestingOrder}
    (live : book.orders[ref]? = some resting) :
    book.deleteOrder ref = book.reduceOrder ref resting.remainingShares := by
  have all : min resting.remainingShares resting.remainingShares = resting.remainingShares :=
    Std.min_self
  simp [deleteOrder, reduceOrder, live, all]

/-- A reduction never takes more than there is. -/
theorem reduceOrder_min {ref : OrderRefNumber} {resting : RestingOrder}
    (live : book.orders[ref]? = some resting) (shares : Quantity) :
    book.reduceOrder ref shares = book.reduceOrder ref (min shares resting.remainingShares) := by
  have once : min (min shares resting.remainingShares) resting.remainingShares =
      min shares resting.remainingShares := by
    rw [UInt64.min_def (min shares resting.remainingShares), if_pos Std.min_le_right]
  simp only [reduceOrder, live, once]

/-- Adding an order keeps the symbol. -/
theorem symbol_addOrder (book : SymbolBook) (ref : OrderRefNumber) (side : Side)
    (shares : Quantity) (price : Price) :
    (book.addOrder ref side shares price).symbol = book.symbol := by
  simp [addOrder, addLevel]

/-- Reducing an order keeps the symbol. -/
theorem symbol_reduceOrder (book : SymbolBook) (ref : OrderRefNumber) (shares : Quantity) :
    (book.reduceOrder ref shares).symbol = book.symbol := by
  unfold reduceOrder
  cases book.orders[ref]? with
  | none => rfl
  | some resting =>
    simp only [removeLevel_eq]
    split <;> exact symbol_setLevels _ _ _

/-- An added order is live, and nothing else changes. -/
theorem orders_addOrder (book : SymbolBook) (ref : OrderRefNumber) (side : Side)
    (shares : Quantity) (price : Price) :
    (book.addOrder ref side shares price).orders =
      book.orders.insert ref { side := side, price := price, remainingShares := shares } := by
  simp [addOrder, addLevel]

/-- The link between a symbol book and the orders that rest on each side. -/
structure Linked (book : SymbolBook) (ids : OrderRefNumber → OrderId)
    (orders : Side → List Order) : Prop where
  /-- Every live reference names an order. -/
  live : ∀ ref resting, book.orders[ref]? = some resting →
    ∃ order ∈ orders resting.side, order.id = ids ref ∧ order.price = resting.price ∧
      order.quantity = resting.remainingShares
  /-- No two live references name one order. -/
  apart : ∀ ref other, ref ∈ book.orders → other ∈ book.orders → ids ref = ids other → ref = other
  /-- Each level holds the total of its price. -/
  levels : ∀ side, Tallies (sharesAt (orders side)) (book.levels side)

variable {ids : OrderRefNumber → OrderId} {orders : Side → List Order}

/-- A live reference is a key of the orders. -/
theorem mem_of_live {ref : OrderRefNumber} {resting : RestingOrder}
    (live : book.orders[ref]? = some resting) : ref ∈ book.orders := by
  rw [ExtTreeMap.mem_iff_isSome_getElem?, live]
  rfl

/-- An empty book is linked to no orders. -/
theorem linked_empty (ids : OrderRefNumber → OrderId) : empty.Linked ids (fun _ => []) where
  live ref resting found := by simp [empty] at found
  apart ref other member := by simp [empty] at member
  levels side := by
    have nothing : empty.levels side = ∅ := by cases side <;> rfl
    rw [nothing]
    exact tallies_empty

/-- The link does not depend on the order of the lists. -/
theorem Linked.perm (linked : book.Linked ids orders) {others : Side → List Order}
    (same : ∀ side, (orders side).Perm (others side)) : book.Linked ids others where
  live ref resting found := by
    obtain ⟨order, member, fields⟩ := linked.live ref resting found
    exact ⟨order, (same resting.side).mem_iff.mp member, fields⟩
  apart := linked.apart
  levels side := by
    have total : sharesAt (others side) = sharesAt (orders side) := tally_perm (same side).symm
    rw [total]
    exact linked.levels side

/-- The link depends on the names of the live references only. -/
theorem Linked.congr (linked : book.Linked ids orders) (names : OrderRefNumber → OrderId)
    (same : ∀ ref ∈ book.orders, names ref = ids ref) : book.Linked names orders where
  live ref resting found := by
    rw [same ref (mem_of_live found)]
    exact linked.live ref resting found
  apart ref other member inside equal := by
    rw [same ref member, same other inside] at equal
    exact linked.apart ref other member inside equal
  levels := linked.levels

/-- The link does not depend on the symbol. -/
theorem Linked.rename (linked : book.Linked ids orders) (symbol : Symbol) :
    ({ book with symbol := symbol } : SymbolBook).Linked ids orders where
  live := linked.live
  apart := linked.apart
  levels side := by
    have same : ({ book with symbol := symbol } : SymbolBook).levels side = book.levels side := by
      cases side <;> rfl
    rw [same]
    exact linked.levels side

/-- Introducing a reference adds the order it names. -/
theorem Linked.addOrder (linked : book.Linked ids orders) (ref : OrderRefNumber) (order : Order)
    (unnamed : ∀ other ∈ book.orders, ids other ≠ order.id) (named : order.id = ids ref)
    (positive : order.quantity ≠ 0) :
    (book.addOrder ref order.side order.quantity order.price).Linked ids
      (Function.update orders order.side (order :: orders order.side)) := by
  have entries := book.orders_addOrder ref order.side order.quantity order.price
  constructor
  · intro other resting found
    rw [entries, ExtTreeMap.getElem?_insert] at found
    by_cases same : ref = other
    · subst same
      rw [if_pos ReflCmp.compare_self, Option.some.injEq] at found
      subst found
      exact ⟨order, by simp, named, rfl, rfl⟩
    · rw [if_neg (by simpa using same)] at found
      obtain ⟨old, member, fields⟩ := linked.live other resting found
      refine ⟨old, ?_, fields⟩
      by_cases own : resting.side = order.side
      · rw [own, Function.update_self]
        exact List.mem_cons_of_mem _ (own ▸ member)
      · rw [Function.update_of_ne own]
        exact member
  · intro left right memberLeft memberRight equal
    rw [entries, ExtTreeMap.mem_insert] at memberLeft memberRight
    rcases memberLeft with sameLeft | memberLeft <;> rcases memberRight with sameRight | memberRight
    · exact (LawfulEqCmp.eq_of_compare sameLeft).symm.trans (LawfulEqCmp.eq_of_compare sameRight)
    · rw [← LawfulEqCmp.eq_of_compare sameLeft, ← named] at equal
      exact absurd equal.symm (unnamed right memberRight)
    · rw [← LawfulEqCmp.eq_of_compare sameRight, ← named] at equal
      exact absurd equal (unnamed left memberLeft)
    · exact linked.apart left right memberLeft memberRight equal
  · refine Book.forall_side order.side ?_ ?_
    · have raised := (linked.levels order.side).raise order.price positive
      rw [Function.update_self, sharesAt_cons]
      simpa [SymbolBook.addOrder, addLevel] using raised
    · have other : order.side.opposite ≠ order.side := by cases order.side <;> decide
      rw [Function.update_of_ne other]
      simpa [SymbolBook.addOrder, addLevel] using linked.levels order.side.opposite

/-- What a reduction of a live reference leaves. -/
theorem orders_reduceOrder {ref : OrderRefNumber} {resting : RestingOrder}
    (live : book.orders[ref]? = some resting) {taken : Quantity}
    (covered : taken ≤ resting.remainingShares) :
    (book.reduceOrder ref taken).orders =
      if taken = resting.remainingShares then book.orders.erase ref
      else book.orders.insert ref
        { resting with remainingShares := resting.remainingShares - taken } := by
  have least : min taken resting.remainingShares = taken := by
    rw [UInt64.min_def, if_pos covered]
  simp only [reduceOrder, live, least, removeLevel_eq, orders_setLevels]
  by_cases all : taken = resting.remainingShares
  · rw [if_pos all, if_pos (all ▸ UInt64.le_refl _)]
  · have short : ¬ taken ≥ resting.remainingShares :=
      fun reached => all (UInt64.le_antisymm covered reached)
    rw [if_neg all, if_neg short]

/-- A reduction leaves no order with more shares than it had, and takes its own off. -/
theorem orders_reduceOrder_le {ref : OrderRefNumber} {resting : RestingOrder}
    (live : book.orders[ref]? = some resting) {taken : Quantity}
    (covered : taken ≤ resting.remainingShares) (name : OrderRefNumber) (left : RestingOrder)
    (after : (book.reduceOrder ref taken).orders[name]? = some left) :
    ∃ order, book.orders[name]? = some order ∧
      left.remainingShares = if ref = name then order.remainingShares - taken
        else order.remainingShares := by
  rw [orders_reduceOrder live covered] at after
  by_cases same : ref = name
  · subst same
    refine ⟨resting, live, ?_⟩
    rw [if_pos rfl]
    split at after
    · rw [ExtTreeMap.getElem?_erase_self] at after
      nomatch after
    · rw [ExtTreeMap.getElem?_insert_self, Option.some.injEq] at after
      rw [← after]
  · refine ⟨left, ?_, by rw [if_neg same]⟩
    split at after
    · rw [ExtTreeMap.getElem?_erase, if_neg (by simpa using same)] at after
      exact after
    · rw [ExtTreeMap.getElem?_insert, if_neg (by simpa using same)] at after
      exact after

/-- A reduction of a live reference lowers its level. -/
theorem levels_reduceOrder {ref : OrderRefNumber} {resting : RestingOrder}
    (live : book.orders[ref]? = some resting) {taken : Quantity}
    (covered : taken ≤ resting.remainingShares) (side : Side) :
    (book.reduceOrder ref taken).levels side =
      (book.setLevels resting.side
        (lowered (book.levels resting.side) resting.price taken)).levels side := by
  have least : min taken resting.remainingShares = taken := by
    rw [UInt64.min_def, if_pos covered]
  simp only [reduceOrder, live, least, removeLevel_eq]
  split <;> exact levels_withOrders _ _ _

/-- Reducing a live reference reduces the order it names. -/
theorem Linked.reduceOrder (linked : book.Linked ids orders) {ref : OrderRefNumber}
    {resting : RestingOrder} (live : book.orders[ref]? = some resting) {order : Order}
    {others : List Order} (split : (orders resting.side).Perm (order :: others))
    (named : order.id = ids ref) (price : order.price = resting.price)
    (quantity : order.quantity = resting.remainingShares) {taken : Quantity}
    (covered : taken ≤ resting.remainingShares)
    (bounded : ∀ price, sharesAt (orders resting.side) price < 2 ^ 64) :
    (book.reduceOrder ref taken).Linked ids
      (Function.update orders resting.side (Ledger.leftOf order taken ++ others)) := by
  have entries := orders_reduceOrder live covered
  -- an order that another reference names is another order
  have stays : ∀ other ∈ book.orders, other ≠ ref → ∀ old ∈ orders resting.side,
      old.id = ids other → old ∈ others := by
    intro other member apart old inside same
    rcases List.mem_cons.mp (split.mem_iff.mp inside) with equal | inside
    · rw [equal, named] at same
      exact absurd (linked.apart ref other (mem_of_live live) member same).symm apart
    · exact inside
  have kept : ∀ other entry, book.orders[other]? = some entry → other ≠ ref →
      ∃ old ∈ Function.update orders resting.side (Ledger.leftOf order taken ++ others) entry.side,
        old.id = ids other ∧ old.price = entry.price ∧ old.quantity = entry.remainingShares := by
    intro other entry found apart
    obtain ⟨old, inside, id, fields⟩ := linked.live other entry found
    refine ⟨old, ?_, id, fields⟩
    by_cases own : entry.side = resting.side
    · rw [own] at inside
      rw [own, Function.update_self]
      exact List.mem_append_right _ (stays other (mem_of_live found) apart old inside id)
    · rw [Function.update_of_ne own]
      exact inside
  have fewer : ∀ other ∈ (book.reduceOrder ref taken).orders, other ∈ book.orders := by
    intro other member
    rw [entries] at member
    split at member
    · exact ExtTreeMap.mem_of_mem_erase member
    · rcases ExtTreeMap.mem_insert.mp member with same | member
      · rw [← LawfulEqCmp.eq_of_compare same]
        exact mem_of_live live
      · exact member
  constructor
  · intro other entry found
    rw [entries] at found
    by_cases all : taken = resting.remainingShares
    · rw [if_pos all, ExtTreeMap.getElem?_erase] at found
      by_cases same : ref = other
      · rw [if_pos (by simpa using same)] at found
        nomatch found
      · rw [if_neg (by simpa using same)] at found
        exact kept other entry found (Ne.symm same)
    · rw [if_neg all, ExtTreeMap.getElem?_insert] at found
      by_cases same : ref = other
      · rw [if_pos (by simpa using same), Option.some.injEq] at found
        subst found same
        have left : Ledger.leftOf order taken =
            [{ order with quantity := order.quantity - taken }] := by
          rw [Ledger.leftOf, if_neg (by rw [quantity]; exact all)]
        refine ⟨{ order with quantity := order.quantity - taken }, ?_, named, price, ?_⟩
        · rw [Function.update_self, left]
          exact List.mem_append_left _ List.mem_cons_self
        · show order.quantity - taken = resting.remainingShares - taken
          rw [quantity]
      · rw [if_neg (by simpa using same)] at found
        exact kept other entry found (Ne.symm same)
  · intro left right memberLeft memberRight equal
    exact linked.apart left right (fewer left memberLeft) (fewer right memberRight) equal
  · intro side
    rw [levels_reduceOrder live covered]
    refine Book.forall_side
      (P := fun side => Tallies (sharesAt (Function.update orders resting.side _ side))
        ((book.setLevels resting.side _).levels side)) resting.side ?_ ?_ side
    · have total : sharesAt (orders resting.side) = sharesAt (order :: others) :=
        tally_perm split
      have room : taken.toNat ≤ sharesAt (orders resting.side) resting.price := by
        rw [total, sharesAt_cons, price, Function.update_self, quantity]
        have least := UInt64.le_iff_toNat_le.mp covered
        omega
      have less := (linked.levels resting.side).lower resting.price room (bounded resting.price)
      rw [Function.update_self, sharesAt_leftOf (by rw [quantity]; exact covered), ← total, price,
        levels_setLevels_same]
      exact less
    · have other : resting.side.opposite ≠ resting.side := by cases resting.side <;> decide
      rw [Function.update_of_ne other, levels_setLevels_opposite]
      exact linked.levels resting.side.opposite

section Engine

variable {engine : Book} (linked : book.Linked ids engine.faces) (sound : engine.Sound)

include linked sound

/-- The levels of a linked book are a view of the queues of the engine's book. -/
theorem Linked.groups (side : Side) :
    Groups (fun order : Order => order.price)
      (fun queue => (queue.map (fun order => order.quantity)).sum) (engine.side side)
      (book.levels side) := by
  have tallied := linked.levels side
  rw [Book.faces, sharesAt_face] at tallied
  exact tallied.groups (sound.positive side)

/-- A linked book shows the depth of the engine's book. -/
theorem Linked.depth (side : Side) (maxLevels : Nat) :
    book.depth side maxLevels = engine.depth side maxLevels := by
  have queues := (groups_collect (fun order : Order => order.price) (engine.side side)).map
    (fun queue : List Order => (queue.map (fun order => order.quantity)).sum)
  have same : book.levels side = (engine.levels side).map
      (fun _ queue => (queue.map (fun order => order.quantity)).sum) :=
    (linked.groups sound side).unique queues
  have shown : book.depth side maxLevels =
      depthFrom (fun quantity : Quantity => [quantity]) side (book.levels side) maxLevels := by
    simp [SymbolBook.depth, depthFrom]
  rw [shown, same, depthFrom_map, Book.depth]
  simp [depthFrom]

/-- An order crosses the best level of a linked book exactly when it crosses the engine's
book. -/
theorem Linked.crossesBest_eq (order : Order) :
    Ledger.crossesBest order.side order.price (book.levels order.side.opposite) =
      Ledger.wouldCross engine order :=
  Ledger.crossesBest_eq sound order (linked.groups sound order.side.opposite)

end Engine

end SymbolBook

end Titan
