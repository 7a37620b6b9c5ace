import TitanEngine.Spec.Ledger

/-!
# The shadow queues

The manager's mirror of the book: for each side and price, the ids of the queue. Entering and
removing an id keep it in step with the book, and crossing can be decided on it.
-/

namespace Titan

open Library Std

namespace OrderManager

variable {M : Type} {manager : OrderManager M} {book : Book}

/-- The shadow queues hold the ids of the queues of the book. -/
def Shadows (manager : OrderManager M) (book : Book) : Prop :=
  ∀ side price, (manager.shadow side)[price]? =
    occupied ((group (fun order : Order => order.price) (book.side side) price).map Order.id)

@[simp] theorem shadow_setShadow_same (manager : OrderManager M) (side : Side) (levels : Shadow) :
    (manager.setShadow side levels).shadow side = levels := by
  cases side <;> rfl

@[simp] theorem shadow_setShadow_opposite (manager : OrderManager M) (side : Side)
    (levels : Shadow) :
    (manager.setShadow side levels).shadow side.opposite = manager.shadow side.opposite := by
  cases side <;> rfl

@[simp] theorem matcher_setShadow (manager : OrderManager M) (side : Side) (levels : Shadow) :
    (manager.setShadow side levels).matcher = manager.matcher := by
  cases side <;> rfl

@[simp] theorem activeOrderIds_setShadow (manager : OrderManager M) (side : Side)
    (levels : Shadow) :
    (manager.setShadow side levels).activeOrderIds = manager.activeOrderIds := by
  cases side <;> rfl

@[simp] theorem allKnownOrderIds_setShadow (manager : OrderManager M) (side : Side)
    (levels : Shadow) :
    (manager.setShadow side levels).allKnownOrderIds = manager.allKnownOrderIds := by
  cases side <;> rfl

@[simp] theorem orders_setShadow (manager : OrderManager M) (side : Side) (levels : Shadow) :
    (manager.setShadow side levels).orders = manager.orders := by
  cases side <;> rfl

@[simp] theorem matcher_trackResting (manager : OrderManager M) (order : Order) :
    (manager.trackResting order).matcher = manager.matcher := by
  simp [trackResting]

@[simp] theorem activeOrderIds_trackResting (manager : OrderManager M) (order : Order) :
    (manager.trackResting order).activeOrderIds = manager.activeOrderIds := by
  simp [trackResting]

@[simp] theorem allKnownOrderIds_trackResting (manager : OrderManager M) (order : Order) :
    (manager.trackResting order).allKnownOrderIds = manager.allKnownOrderIds := by
  simp [trackResting]

@[simp] theorem orders_trackResting (manager : OrderManager M) (order : Order) :
    (manager.trackResting order).orders = manager.orders := by
  simp [trackResting]

@[simp] theorem matcher_untrackResting (manager : OrderManager M) (id : OrderId) :
    (manager.untrackResting id).matcher = manager.matcher := by
  unfold untrackResting
  simp only
  split <;> rfl

@[simp] theorem activeOrderIds_untrackResting (manager : OrderManager M) (id : OrderId) :
    (manager.untrackResting id).activeOrderIds = manager.activeOrderIds := by
  unfold untrackResting
  simp only
  split <;> rfl

@[simp] theorem allKnownOrderIds_untrackResting (manager : OrderManager M) (id : OrderId) :
    (manager.untrackResting id).allKnownOrderIds = manager.allKnownOrderIds := by
  unfold untrackResting
  simp only
  split <;> rfl

@[simp] theorem orders_untrackResting (manager : OrderManager M) (id : OrderId) :
    (manager.untrackResting id).orders = manager.orders := by
  unfold untrackResting
  simp only
  split <;> rfl

/-- What `untrackResting` does to the shadow does not depend on the records. -/
theorem untrackResting_record (manager : OrderManager M) (records : IdMap Order) (id : OrderId) :
    ({ manager with orders := records } : OrderManager M).untrackResting id =
      { manager.untrackResting id with orders := records } := by
  unfold untrackResting
  simp only
  split <;> rfl

/-- A manager that was just constructed mirrors the empty book. -/
theorem shadows_init (matcher : M) : (init matcher).Shadows Book.empty := by
  intro side price
  cases side <;> simp [init, shadow, Book.empty, Book.side]

/-- The shadow of a side stores its queues as ids. -/
theorem Shadows.groups (shadows : manager.Shadows book) (side : Side) :
    Groups (fun order : Order => order.price) (List.map Order.id) (book.side side)
      (manager.shadow side) := by
  intro price
  rw [shadows side price, occupied_map]

/-- The best shadow queue of a side with orders starts with the id of the head. -/
theorem Shadows.bestLevel_cons (shadows : manager.Shadows book) (sound : book.Sound) {side : Side}
    {maker : Order} {rest : List Order} (orders : book.side side = maker :: rest) :
    bestLevel side (manager.shadow side) = some (maker.price,
      maker.id :: (group (fun order : Order => order.price) rest maker.price).map Order.id) :=
  sound.bestLevel_of_cons orders (shadows.groups side)

/-- A side without orders has no shadow queue. -/
theorem Shadows.bestLevel_nil (shadows : manager.Shadows book) {side : Side}
    (orders : book.side side = []) : bestLevel side (manager.shadow side) = none :=
  Book.bestLevel_of_nil (orders ▸ shadows.groups side)

/-- `wouldCross` finds out whether an order crosses anything of the book. -/
theorem Shadows.wouldCross_eq (shadows : manager.Shadows book) (sound : book.Sound)
    (order : Order) : manager.wouldCross order = Ledger.wouldCross book order := by
  rw [← Ledger.crossesBest_eq sound order (shadows.groups order.side.opposite)]
  unfold OrderManager.wouldCross Ledger.crossesBest
  cases bestLevel order.side.opposite (manager.shadow order.side.opposite) <;> rfl

/-- The shadow depends on the ids of the queues only. -/
theorem Shadows.congr {other : Book} (shadows : manager.Shadows book)
    (same : ∀ side price,
      (group (fun order : Order => order.price) (book.side side) price).map Order.id =
        (group (fun order : Order => order.price) (other.side side) price).map Order.id) :
    manager.Shadows other := by
  intro side price
  rw [shadows side price, same side price]

/-- `trackResting` mirrors an arrival. -/
theorem Shadows.trackResting (shadows : manager.Shadows book) (sound : book.Sound)
    (order : Order) : (manager.trackResting order).Shadows (book.rest order) := by
  refine Book.forall_side order.side ?_ ?_
  · intro price
    unfold OrderManager.trackResting
    rw [shadow_setShadow_same, ExtTreeMap.getElem?_insert, ExtTreeMap.getD_eq_getD_getElem?,
      shadows order.side order.price, getD_occupied, Book.rest, Book.side_setSide_same,
      Book.group_arrive (sound.ranked order.side)]
    by_cases here : order.price = price
    · subst here
      simp only [compare_self, ↓reduceIte, List.map_append, List.map_cons, List.map_nil]
      rw [occupied_of_ne_nil (by simp)]
    · rw [if_neg here, if_neg (by simpa using here)]
      exact shadows order.side price
  · intro price
    unfold OrderManager.trackResting
    rw [shadow_setShadow_opposite, Book.side_opposite_rest]
    exact shadows order.side.opposite price

/-- `eraseFrom` on a shadow that does not hold the id. -/
theorem eraseFrom_absent {orders : List Order} {levels : Shadow} {id : OrderId}
    (grouped : Groups (fun order : Order => order.price) (List.map Order.id) orders levels)
    (absent : ∀ order ∈ orders, order.id ≠ id) : eraseFrom id levels = (false, levels) := by
  have none_ : levels.toList.find? (fun entry => entry.2.contains id) = none := by
    rw [List.find?_eq_none]
    rintro ⟨price, ids⟩ member
    obtain ⟨_, rfl⟩ := grouped.mem_toList.mp member
    simp only [List.contains_iff_mem, List.mem_map, not_exists, not_and]
    intro order inside
    exact absent order (mem_group.mp inside).1
  rw [eraseFrom, none_]

/-- `eraseFrom` removes an id that the shadow holds once. -/
theorem eraseFrom_present {orders : List Order} {levels : Shadow} {order : Order}
    (grouped : Groups (fun order : Order => order.price) (List.map Order.id) orders levels)
    (distinct : (orders.map Order.id).Nodup) (member : order ∈ orders) :
    ∃ left, eraseFrom order.id levels = (true, left) ∧
      Groups (fun order : Order => order.price) (List.map Order.id)
        (orders.filter (fun other => other.id != order.id)) left := by
  let queue := group (fun order : Order => order.price) orders order.price
  have inside : order ∈ queue := mem_group.mpr ⟨member, rfl⟩
  have own : ∀ other ∈ orders, other.id = order.id → other = order :=
    fun other listed same => List.inj_on_of_nodup_map distinct listed member same
  have found : levels.toList.find? (fun entry => entry.2.contains order.id) =
      some (order.price, queue.map Order.id) := by
    have held : (order.price, queue.map Order.id) ∈ levels.toList :=
      grouped.mem_toList.mpr ⟨List.ne_nil_of_mem inside, rfl⟩
    cases result : levels.toList.find? (fun entry => entry.2.contains order.id) with
    | none =>
      have nowhere := List.find?_eq_none.mp result _ held
      simp only [List.contains_iff_mem, List.mem_map, not_exists, not_and] at nowhere
      exact absurd rfl (nowhere order inside)
    | some entry =>
      obtain ⟨price, ids⟩ := entry
      have listed := List.mem_of_find?_eq_some result
      have holds := List.find?_some result
      obtain ⟨_, rfl⟩ := grouped.mem_toList.mp listed
      simp only [List.contains_iff_mem, List.mem_map] at holds
      obtain ⟨other, grouped, same⟩ := holds
      obtain ⟨listedOther, price⟩ := mem_group.mp grouped
      obtain rfl := own other listedOther same
      subst price
      rfl
  refine ⟨store levels order.price ((queue.map Order.id).erase order.id), by rw [eraseFrom, found],
    ?_⟩
  intro price
  rw [getElem?_store, group_filter]
  by_cases here : order.price = price
  · subst here
    rw [if_pos rfl, ← occupied_map]
    have ids : (queue.map Order.id).Nodup := (List.filter_sublist.map _).nodup distinct
    rw [ids.erase_eq_filter, List.filter_map]
    congr 2
  · rw [if_neg here, grouped price, Book.filter_id_eq_self]
    intro other listed same
    obtain ⟨listedOther, priced⟩ := mem_group.mp listed
    exact here (own other listedOther same ▸ priced)

/-- A shadow that stores the queues of two sides mirrors the book. -/
theorem shadows_of_groups
    (grouped : ∀ side, Groups (fun order : Order => order.price) (List.map Order.id)
      (book.side side) (manager.shadow side)) : manager.Shadows book := by
  intro side price
  rw [grouped side price, occupied_map]

/-- `untrackResting` mirrors a removal. -/
theorem Shadows.untrackResting (shadows : manager.Shadows book) (sound : book.Sound)
    (id : OrderId) : (manager.untrackResting id).Shadows (book.cancel id) := by
  have grouped := shadows.groups
  have untouched : ∀ side, (∀ order ∈ book.side side, order.id ≠ id) →
      Groups (fun order : Order => order.price) (List.map Order.id) ((book.cancel id).side side)
        (manager.shadow side) := by
    intro side absent
    rw [Book.side_cancel, Book.filter_id_eq_self absent]
    exact grouped side
  apply shadows_of_groups
  unfold OrderManager.untrackResting
  by_cases bid : ∃ order ∈ book.bids, order.id = id
  · obtain ⟨order, member, rfl⟩ := bid
    obtain ⟨left, erased, groupedLeft⟩ :=
      eraseFrom_present (grouped .buy) (sound.distinct .buy) member
    have result : eraseFrom order.id manager.restingBidsAt = (true, left) := erased
    simp only [result, ↓reduceIte]
    intro side
    cases side with
    | buy =>
      rw [Book.side_cancel]
      exact groupedLeft
    | sell =>
      exact untouched .sell (fun other inside => (sound.apart order member other inside).symm)
  · have absent : ∀ order ∈ book.bids, order.id ≠ id := fun order member same =>
      bid ⟨order, member, same⟩
    have result : eraseFrom id manager.restingBidsAt = (false, manager.restingBidsAt) :=
      eraseFrom_absent (grouped .buy) absent
    simp only [result, Bool.false_eq_true, ↓reduceIte]
    intro side
    cases side with
    | buy => exact untouched .buy absent
    | sell =>
      change Groups _ _ _ (eraseFrom id manager.restingAsksAt).2
      by_cases ask : ∃ order ∈ book.asks, order.id = id
      · obtain ⟨order, member, rfl⟩ := ask
        obtain ⟨left, erased, groupedLeft⟩ :=
          eraseFrom_present (grouped .sell) (sound.distinct .sell) member
        have resultAsks : eraseFrom order.id manager.restingAsksAt = (true, left) := erased
        rw [resultAsks, Book.side_cancel]
        exact groupedLeft
      · have absentAsks : ∀ order ∈ book.asks, order.id ≠ id := fun order member same =>
          ask ⟨order, member, same⟩
        have resultAsks : eraseFrom id manager.restingAsksAt = (false, manager.restingAsksAt) :=
          eraseFrom_absent (grouped .sell) absentAsks
        rw [resultAsks]
        exact untouched .sell absentAsks

end OrderManager

end Titan
