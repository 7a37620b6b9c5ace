import TitanEngine.Exchange.Matching

/-!
# Cancelling and amending through the order manager

A cancelled order leaves the matcher, the shadow and the active ids. An amendment either moves
the order, which is a cancel and an arrival, or keeps its place: then every order of the level
is cancelled and entered again from the records, and because they all enter at one price in
their old order, the level comes out as it was with the records in it.
-/

namespace Titan

open Library Std

namespace OrderManager

variable {M : Type} [LawfulMatcher M] {manager : OrderManager M} {book : Book} {ledger : Ledger}

/-- Removing an order from the matcher, the active ids and the shadow. -/
theorem Tracks.cancel (tracks : manager.Tracks book) (sound : book.Sound) (id : OrderId) :
    (({ manager with
      matcher := IMatcher.cancelOrder manager.matcher id
      activeOrderIds := manager.activeOrderIds.erase id } :
        OrderManager M).untrackResting id).Tracks (book.cancel id) :=
  tracks.remove sound id (LawfulMatcher.cancelOrder_spec id tracks.represents sound)

/-- The active ids are those the ledger holds. -/
theorem Mirrors.contains_active (mirrors : manager.Mirrors ledger) (id : OrderId) :
    manager.activeOrderIds.contains id = ledger.holds id := by
  apply Bool.eq_iff_iff.mpr
  rw [ExtTreeSet.contains_iff_mem, mirrors.tracks.active, Ledger.holds_iff]

/-- `cancelOrder` does what the ledger does. -/
theorem Mirrors.cancelOrder (mirrors : manager.Mirrors ledger) (id : OrderId) :
    (manager.cancelOrder id).1 = (ledger.cancelOrder id).1 ∧
      (manager.cancelOrder id).2.Mirrors (ledger.cancelOrder id).2 := by
  have active := mirrors.contains_active id
  unfold OrderManager.cancelOrder Ledger.cancelOrder validateCancel
  cases held : ledger.holds id with
  | false =>
    rw [active, held]
    exact ⟨rfl, mirrors⟩
  | true =>
    rw [active, held]
    simp only [↓reduceIte]
    refine ⟨trivial, ?_⟩
    have sound := mirrors.consistent.sound
    have tracks := mirrors.tracks.cancel sound id
    have gone : (ledger.book.cancel id).Fresh id := Book.fresh_cancel.mpr (.inl rfl)
    apply Tracks.mirrors
    · exact tracks.record gone _
    · exact sound.cancel id
    · intro side order member
      rw [Book.side_cancel] at member
      exact mirrors.consistent.known side order (List.mem_of_mem_filter member)
    · rw [allKnownOrderIds_untrackResting]
      exact mirrors.known
    · simp only [orderAt, orders_untrackResting, mirrors.records]
      rfl

omit [LawfulMatcher M] in
/-- Cancelling an order does not make another one cross. -/
theorem wouldCross_cancel {order : Order} (clear : Ledger.wouldCross book order = false)
    (id : OrderId) : Ledger.wouldCross (book.cancel id) order = false := by
  apply List.any_eq_false.mpr
  intro other member
  rw [Book.side_cancel] at member
  exact List.any_eq_false.mp clear other (List.mem_of_mem_filter member)

/-- The branch of `cancelReplace` that moves the order. -/
theorem Mirrors.moveOrder (mirrors : manager.Mirrors ledger) {newOrder : Order}
    (positive : newOrder.quantity ≠ 0) (listed : newOrder.id ∈ ledger.known)
    (clear : Ledger.wouldCross ledger.book newOrder = false) :
    (manager.moveOrder newOrder.id newOrder).Mirrors
      { book := (ledger.book.cancel newOrder.id).rest newOrder
        known := ledger.known
        records := ledger.records.insert newOrder.id newOrder } := by
  have sound := mirrors.consistent.sound
  have tracks := mirrors.tracks.cancel sound newOrder.id
  have soundCancel := sound.cancel newOrder.id
  have fresh : (ledger.book.cancel newOrder.id).Fresh newOrder.id :=
    Book.fresh_cancel.mpr (.inl rfl)
  have clearCancel := wouldCross_cancel clear newOrder.id
  have active : (manager.activeOrderIds.erase newOrder.id).insert newOrder.id =
      manager.activeOrderIds.insert newOrder.id := by
    apply ExtTreeSet.ext_mem
    intro id
    simp only [ExtTreeSet.mem_insert, ExtTreeSet.mem_erase, Std.compare_eq_iff_eq]
    by_cases same : newOrder.id = id
    · simp [same]
    · simp [same]
  apply Tracks.mirrors
  · apply tracks.rest soundCancel fresh positive clearCancel (rfl : newOrder.Agrees newOrder)
    · simp [OrderManager.moveOrder]
    · apply Shadows.trackResting _ soundCancel
      have untracked : ({ manager with
          matcher := IMatcher.cancelOrder manager.matcher newOrder.id } :
            OrderManager M).Shadows ledger.book := mirrors.tracks.shadows.of_eq rfl rfl
      exact (untracked.untrackResting sound newOrder.id).of_eq rfl rfl
    · simp [OrderManager.moveOrder, active]
    · simp [OrderManager.moveOrder]
  · exact soundCancel.rest fresh positive (not_crosses_of_clear clearCancel)
  · refine Book.forall_side newOrder.side ?_ ?_
    · intro order member
      rcases (Book.mem_side_rest rfl).mp member with rfl | member
      · exact listed
      · rw [Book.side_cancel] at member
        exact mirrors.consistent.known _ order (List.mem_of_mem_filter member)
    · intro order member
      rw [Book.side_opposite_rest, Book.side_cancel] at member
      exact mirrors.consistent.known _ order (List.mem_of_mem_filter member)
  · simp [OrderManager.moveOrder, mirrors.known]
  · simp [OrderManager.moveOrder, mirrors.records]

/-- Cancelling a list of ids one after the other. -/
theorem represents_cancelAll {matcher : M} (represents : Represents matcher book)
    (sound : book.Sound) (ids : List OrderId) :
    ∃ after : Book, Represents (ids.foldl IMatcher.cancelOrder matcher) after ∧ after.Sound ∧
      ∀ side, after.side side =
        (book.side side).filter (fun order => decide (order.id ∉ ids)) := by
  induction ids generalizing matcher book with
  | nil =>
    refine ⟨book, represents, sound, ?_⟩
    intro side
    simp
  | cons id rest ih =>
    have cancelled := LawfulMatcher.cancelOrder_spec id represents sound
    obtain ⟨after, held, good, sides⟩ := ih cancelled (sound.cancel id)
    refine ⟨after, held, good, ?_⟩
    intro side
    rw [sides side, Book.side_cancel, List.filter_filter]
    apply List.filter_congr
    intro order _
    by_cases same : order.id = id
    · simp [same]
    · simp [same]

/-- Entering a list of orders of one price one after the other, when they cross nothing: they
come to stand behind the level in their order, nothing else changes, and each of them enters
clear. -/
theorem represents_addAll {matcher : M} {side : Side} {price : Price} {orders : List Order}
    (represents : Represents matcher book) (sound : book.Sound)
    (placed : ∀ order ∈ orders, order.side = side ∧ order.price = price ∧ order.quantity ≠ 0)
    (distinct : (orders.map Order.id).Nodup) (fresh : ∀ order ∈ orders, book.Fresh order.id)
    (clear : ∀ other ∈ book.side side.opposite, crosses side price other.price = false) :
    ∃ after : Book, Represents (orders.foldl IMatcher.addOrder matcher) after ∧ after.Sound ∧
      after.side side.opposite = book.side side.opposite ∧
      (∀ at_, group (fun order : Order => order.price) (after.side side) at_ =
        group (fun order : Order => order.price) (book.side side) at_ ++
          if at_ = price then orders else []) ∧
      ∀ front order back, orders = front ++ order :: back →
        ∃ between, EntersClear (front.foldl IMatcher.addOrder matcher) between order := by
  induction orders generalizing matcher book with
  | nil =>
    refine ⟨book, represents, sound, rfl, ?_, ?_⟩
    · intro at_
      simp
    · intro front order back parts
      simp at parts
  | cons first rest ih =>
    obtain ⟨rfl, rfl, positive⟩ := placed first List.mem_cons_self
    have unused := fresh first List.mem_cons_self
    have clearFirst : Ledger.wouldCross book first = false := by
      apply List.any_eq_false.mpr
      intro other member
      simpa using clear other member
    have enters : EntersClear matcher book first :=
      ⟨represents, sound, unused, positive, clearFirst⟩
    have opposite := Book.side_opposite_rest book first
    rw [List.map_cons, List.nodup_cons] at distinct
    obtain ⟨after, held, good, across, queues, later⟩ := ih enters.rests
      (sound.rest unused positive clear)
      (fun order member => placed order (List.mem_cons_of_mem _ member)) distinct.2
      (by
        intro order member
        refine Book.fresh_rest.mpr ⟨?_, fresh order (List.mem_cons_of_mem _ member)⟩
        intro same
        exact distinct.1 (same ▸ List.mem_map.mpr ⟨order, member, rfl⟩))
      (by
        rw [opposite]
        exact clear)
    refine ⟨after, held, good, across.trans opposite, ?_, ?_⟩
    · intro at_
      rw [queues at_, Book.rest, Book.side_setSide_same,
        Book.group_arrive (sound.ranked first.side)]
      by_cases here : first.price = at_
      · subst here
        simp
      · simp [here, Ne.symm here]
    · intro front order back parts
      cases front with
      | nil =>
        obtain ⟨rfl, _⟩ := List.cons.inj parts
        exact ⟨book, enters⟩
      | cons head tail =>
        obtain ⟨rfl, rest_⟩ := List.cons.inj parts
        exact later tail order back rest_

/-- The order that rests under an active id, and its record. -/
theorem Mirrors.resting_of_holds (mirrors : manager.Mirrors ledger) {id : OrderId}
    (held : ledger.holds id = true) :
    ∃ side, ∃ order ∈ ledger.book.side side, order.id = id ∧ (ledger.recordOf id).Agrees order := by
  obtain ⟨side, order, member, same⟩ := Ledger.mem_of_holds held
  refine ⟨side, order, member, same, ?_⟩
  obtain ⟨record, found, agrees⟩ := mirrors.consistent.covers side order member
  rw [same] at found
  rw [Ledger.recordOf, ExtTreeMap.getD_eq_getD_getElem?, found]
  exact agrees

/-- A replacement at the price of a resting order that would not cross is on its side. -/
theorem side_eq_of_clear {newOrder order : Order} {side : Side}
    (member : order ∈ book.side side) (price : newOrder.price = order.price)
    (clear : Ledger.wouldCross book newOrder = false) : side = newOrder.side := by
  by_cases same : side = newOrder.side
  · exact same
  · have across : side = newOrder.side.opposite := by
      cases side <;> cases own : newOrder.side <;> simp_all [Side.opposite]
    subst across
    have reach := List.any_eq_false.mp clear order member
    rw [price] at reach
    cases own : newOrder.side <;> simp [crosses, own] at reach

/-- Reading a level back, when the amended order is on it, changes no id, side or price. -/
theorem Mirrors.rereadOrder_spec (mirrors : manager.Mirrors ledger) {newOrder target : Order}
    (positive : newOrder.quantity ≠ 0) (inside : target ∈ ledger.book.side newOrder.side)
    (own : target.id = newOrder.id) (price : target.price = newOrder.price)
    {order : Order} (member : order ∈ ledger.book.side newOrder.side) :
    let records := ledger.records.insert newOrder.id newOrder
    let after := Ledger.rereadOrder records newOrder.price order
    after.id = order.id ∧ after.side = newOrder.side ∧ after.price = order.price ∧
      after.quantity ≠ 0 ∧ ∃ record, records[order.id]? = some record ∧ record.Agrees after := by
  intro records after
  have sound := mirrors.consistent.sound
  have sided := sound.sided newOrder.side order member
  obtain ⟨record, found, agrees⟩ := mirrors.consistent.covers newOrder.side order member
  by_cases amended : order.id = newOrder.id
  · obtain rfl : order = target := sound.eq_of_id_eq member inside (amended.trans own.symm)
    have lookup : records[order.id]? = some newOrder := by
      rw [amended]
      exact ExtTreeMap.getElem?_insert_self
    have result : after = newOrder := by
      simp only [after, Ledger.rereadOrder, price, ↓reduceIte, ExtTreeMap.getD_eq_getD_getElem?,
        lookup, Option.getD_some]
    rw [result]
    exact ⟨amended.symm, rfl, price.symm, positive, newOrder, lookup, rfl⟩
  · have lookup : records[order.id]? = some record := by
      rw [ExtTreeMap.getElem?_insert, if_neg (by simpa using Ne.symm amended)]
      exact found
    by_cases here : order.price = newOrder.price
    · have result : after = record := by
        simp only [after, Ledger.rereadOrder, here, ↓reduceIte, ExtTreeMap.getD_eq_getD_getElem?,
          lookup, Option.getD_some]
      have quantity := sound.positive newOrder.side order member
      rw [result]
      refine ⟨agrees.id, agrees.side.trans sided, agrees.price, ?_, record, lookup, rfl⟩
      rw [agrees.quantity]
      exact quantity
    · have result : after = order := by
        simp only [after, Ledger.rereadOrder, here, ↓reduceIte]
      rw [result]
      exact ⟨rfl, sided, rfl, sound.positive newOrder.side order member, record, lookup, agrees⟩

/-- The book with a level read back is what the matcher holds after the level was cancelled and
entered again. -/
theorem Mirrors.represents_reread (mirrors : manager.Mirrors ledger) {newOrder target : Order}
    (positive : newOrder.quantity ≠ 0) (inside : target ∈ ledger.book.side newOrder.side)
    (own : target.id = newOrder.id) (price : target.price = newOrder.price)
    (clear : Ledger.wouldCross ledger.book newOrder = false) :
    let records := ledger.records.insert newOrder.id newOrder
    let queue := group (fun order : Order => order.price) (ledger.book.side newOrder.side)
      newOrder.price
    let after := Ledger.reread ledger.book records newOrder.side newOrder.price
    let restored := queue.map (fun order => records.getD order.id default)
    let emptied := (queue.map Order.id).foldl IMatcher.cancelOrder manager.matcher
    Represents (restored.foldl IMatcher.addOrder emptied) after ∧ after.Sound ∧
      ∀ front order back, restored = front ++ order :: back →
        ∃ between, EntersClear (front.foldl IMatcher.addOrder emptied) between order := by
  intro records queue after restored emptied
  let side := newOrder.side
  let change := Ledger.rereadOrder records newOrder.price
  have sound := mirrors.consistent.sound
  have spec : ∀ order ∈ ledger.book.side side, (change order).id = order.id ∧
      (change order).side = side ∧ (change order).price = order.price ∧
      (change order).quantity ≠ 0 := by
    intro order member
    obtain ⟨id, sided, priced, left, _⟩ :=
      mirrors.rereadOrder_spec positive inside own price member
    exact ⟨id, sided, priced, left⟩
  have inQueue : ∀ order ∈ queue, order ∈ ledger.book.side side ∧ order.price = newOrder.price :=
    fun order member => mem_group.mp member
  have reread : restored = queue.map change := by
    apply List.map_congr_left
    intro order member
    simp only [change, Ledger.rereadOrder, (inQueue order member).2, ↓reduceIte]
  have restoredIds : (queue.map change).map Order.id = queue.map Order.id := by
    rw [List.map_map]
    apply List.map_congr_left
    intro order member
    exact (spec order (inQueue order member).1).1
  have distinct : (queue.map Order.id).Nodup :=
    (List.filter_sublist.map _).nodup (sound.distinct side)
  obtain ⟨remaining, held, good, sides⟩ :=
    represents_cancelAll mirrors.tracks.represents sound (queue.map Order.id)
  have oppositeKept : remaining.side side.opposite = ledger.book.side side.opposite := by
    rw [sides, List.filter_eq_self]
    intro order member
    simp only [decide_eq_true_eq, List.mem_map, not_exists, not_and]
    intro other listed
    exact sound.id_ne (inQueue other listed).1 member
  have queuesKept : ∀ at_, group (fun order : Order => order.price) (remaining.side side) at_ =
      if at_ = newOrder.price then []
      else group (fun order : Order => order.price) (ledger.book.side side) at_ := by
    intro at_
    rw [sides, group_filter]
    by_cases here : at_ = newOrder.price
    · subst here
      rw [if_pos rfl, List.filter_eq_nil_iff]
      intro order member
      simp only [decide_eq_true_eq, not_not]
      exact List.mem_map.mpr ⟨order, member, rfl⟩
    · rw [if_neg here, List.filter_eq_self]
      intro order member
      obtain ⟨listed, priced⟩ := mem_group.mp member
      simp only [decide_eq_true_eq, List.mem_map, not_exists, not_and]
      intro other otherListed same
      obtain ⟨otherIn, otherPriced⟩ := inQueue other otherListed
      have equal := sound.eq_of_id_eq otherIn listed same
      exact here (priced.symm.trans (equal ▸ otherPriced))
  have placed : ∀ order ∈ queue.map change,
      order.side = side ∧ order.price = newOrder.price ∧ order.quantity ≠ 0 := by
    intro order member
    obtain ⟨old, listed, rfl⟩ := List.mem_map.mp member
    obtain ⟨oldIn, oldPrice⟩ := inQueue old listed
    have kept := spec old oldIn
    exact ⟨kept.2.1, kept.2.2.1.trans oldPrice, kept.2.2.2⟩
  have distinctRestored : ((queue.map change).map Order.id).Nodup := by
    rw [restoredIds]
    exact distinct
  have fresh : ∀ order ∈ queue.map change, remaining.Fresh order.id := by
    intro order member otherSide other listed same
    rw [sides, List.mem_filter, decide_eq_true_eq, ← restoredIds] at listed
    exact listed.2 (same ▸ List.mem_map.mpr ⟨order, member, rfl⟩)
  have clearRemaining : ∀ other ∈ remaining.side side.opposite,
      crosses side newOrder.price other.price = false := by
    rw [oppositeKept]
    exact not_crosses_of_clear clear
  obtain ⟨final, heldFinal, goodFinal, opposite, queues, clearly⟩ :=
    represents_addAll held good placed distinctRestored fresh clearRemaining
  have same : final = after := by
    refine Book.ext_side (Book.forall_side side ?_ ?_)
    · rw [show after.side side = (ledger.book.side side).map change from
        Book.side_setSide_same _ _ _]
      have prices : ∀ order ∈ ledger.book.side side, (change order).price = order.price :=
        fun order member => (spec order member).2.2.1
      apply Book.eq_of_group_eq (goodFinal.ranked side)
      · refine List.pairwise_map.mpr ((sound.ranked side).imp_of_mem ?_)
        intro first later memberFirst memberLater before
        simp only [prices first memberFirst, prices later memberLater]
        exact before
      · intro at_
        rw [queues, queuesKept, group_map prices]
        by_cases here : at_ = newOrder.price
        · subst here
          simp only [↓reduceIte, List.nil_append]
          rfl
        · rw [if_neg here, if_neg here, List.append_nil]
          symm
          have untouched :
              (group (fun order : Order => order.price) (ledger.book.side side) at_).map change =
                (group (fun order : Order => order.price) (ledger.book.side side) at_).map
                (fun order => order) := by
            apply List.map_congr_left
            intro order member
            have priced := (mem_group.mp member).2
            simp only [change, Ledger.rereadOrder, priced, here, ↓reduceIte]
          rw [untouched, List.map_id']
    · rw [show after.side side.opposite = ledger.book.side side.opposite from
        Book.side_opposite_setSide _ _ _, opposite, oppositeKept]
  rw [reread, ← same]
  exact ⟨heldFinal, goodFinal, clearly⟩

/-- The shadow level of an order that rests. -/
theorem Mirrors.shadow_level (mirrors : manager.Mirrors ledger) {side : Side} {target : Order}
    (inside : target ∈ ledger.book.side side) :
    (manager.shadow side)[target.price]? = some ((group (fun order : Order => order.price)
      (ledger.book.side side) target.price).map Order.id) := by
  rw [mirrors.tracks.shadows side target.price, occupied_of_ne_nil]
  have listed : target ∈ group (fun order : Order => order.price) (ledger.book.side side)
    target.price := mem_group.mpr ⟨inside, rfl⟩
  simpa using List.ne_nil_of_mem listed

/-- The calls that keeping the place of an order makes. -/
theorem Mirrors.matcher_rebuildLevel (mirrors : manager.Mirrors ledger) {newOrder target : Order}
    (inside : target ∈ ledger.book.side newOrder.side) (price : target.price = newOrder.price) :
    let records := ledger.records.insert newOrder.id newOrder
    let queue := group (fun order : Order => order.price) (ledger.book.side newOrder.side)
      newOrder.price
    (manager.rebuildLevel newOrder.id newOrder).matcher =
      (queue.map (fun order => records.getD order.id default)).foldl IMatcher.addOrder
        ((queue.map Order.id).foldl IMatcher.cancelOrder manager.matcher) := by
  intro records queue
  have stored := mirrors.shadow_level inside
  rw [price] at stored
  have ids : (manager.shadow newOrder.side).getD newOrder.price [] = queue.map Order.id := by
    rw [ExtTreeMap.getD_eq_getD_getElem?, stored]
    rfl
  simp only [OrderManager.rebuildLevel, ids, orderAt, matcher_setShadow, List.foldl_map]
  rw [mirrors.records]

/-- The branch of `cancelReplace` that keeps the place of the order. -/
theorem Mirrors.rebuildLevel (mirrors : manager.Mirrors ledger) {newOrder target : Order}
    (positive : newOrder.quantity ≠ 0) (inside : target ∈ ledger.book.side newOrder.side)
    (own : target.id = newOrder.id) (price : target.price = newOrder.price)
    (clear : Ledger.wouldCross ledger.book newOrder = false) :
    let records := ledger.records.insert newOrder.id newOrder
    (manager.rebuildLevel newOrder.id newOrder).Mirrors
      { book := Ledger.reread ledger.book records newOrder.side newOrder.price
        known := ledger.known
        records := records } := by
  intro records
  let queue := group (fun order : Order => order.price) (ledger.book.side newOrder.side)
    newOrder.price
  let change := Ledger.rereadOrder records newOrder.price
  have spec : ∀ order ∈ ledger.book.side newOrder.side, (change order).id = order.id ∧
      (change order).price = order.price ∧
      ∃ record, records[order.id]? = some record ∧ record.Agrees (change order) := by
    intro order member
    obtain ⟨id, _, priced, _, kept⟩ := mirrors.rereadOrder_spec positive inside own price member
    exact ⟨id, priced, kept⟩
  have sound := mirrors.consistent.sound
  obtain ⟨represents, soundAfter, _⟩ :=
    mirrors.represents_reread positive inside own price clear
  have stored : (manager.shadow newOrder.side)[newOrder.price]? = some (queue.map Order.id) := by
    rw [← price, mirrors.shadow_level inside, price]
  have ids : (manager.shadow newOrder.side).getD newOrder.price [] = queue.map Order.id := by
    rw [ExtTreeMap.getD_eq_getD_getElem?, stored]
    rfl
  let after := Ledger.reread ledger.book records newOrder.side newOrder.price
  have ownSide : after.side newOrder.side = (ledger.book.side newOrder.side).map change :=
    Book.side_setSide_same _ _ _
  have otherSide : after.side newOrder.side.opposite = ledger.book.side newOrder.side.opposite :=
    Book.side_opposite_setSide _ _ _
  have sideIds : ∀ side, (after.side side).map Order.id = (ledger.book.side side).map Order.id := by
    refine Book.forall_side newOrder.side ?_ ?_
    · rw [ownSide, List.map_map]
      apply List.map_congr_left
      exact fun order member => (spec order member).1
    · rw [otherSide]
  have queueIds : ∀ side price,
      (group (fun order : Order => order.price) (ledger.book.side side) price).map Order.id =
        (group (fun order : Order => order.price) (after.side side) price).map Order.id := by
    refine Book.forall_side newOrder.side ?_ ?_
    · intro at_
      rw [ownSide, group_map (fun order member => (spec order member).2.1), List.map_map]
      apply List.map_congr_left
      exact fun order member => ((spec order (mem_group.mp member).1).1).symm
    · intro at_
      rw [otherSide]
  have shadows : ∀ (side : Side) (price : Price), ((manager.setShadow newOrder.side
      ((manager.shadow newOrder.side).insert newOrder.price (queue.map Order.id))).shadow side)[
        price]? = (manager.shadow side)[price]? := by
    refine Book.forall_side newOrder.side ?_ ?_
    · intro at_
      rw [shadow_setShadow_same, ExtTreeMap.getElem?_insert]
      by_cases here : newOrder.price = at_
      · subst here
        simp [stored]
      · simp [here]
    · intro at_
      rw [shadow_setShadow_opposite]
  apply Tracks.mirrors
  · constructor
    · rw [mirrors.matcher_rebuildLevel inside price]
      exact represents
    · have mirrored : manager.Shadows after := mirrors.tracks.shadows.congr queueIds
      intro side price
      rw [← mirrored side price, ← shadows side price]
      simp only [OrderManager.rebuildLevel, ids]
      cases side <;> rfl
    · intro id
      rw [Book.fresh_congr sideIds]
      simp only [OrderManager.rebuildLevel, activeOrderIds_setShadow]
      exact mirrors.tracks.active id
    · simp only [OrderManager.rebuildLevel]
      rw [mirrors.records]
      refine Book.forall_side newOrder.side ?_ ?_
      · intro order member
        rw [ownSide] at member
        obtain ⟨old, listed, rfl⟩ := List.mem_map.mp member
        rw [(spec old listed).1]
        exact (spec old listed).2.2
      · intro order member
        rw [otherSide] at member
        obtain ⟨record, found, agrees⟩ := mirrors.consistent.covers _ order member
        have apart : newOrder.id ≠ order.id := own ▸ sound.id_ne inside member
        refine ⟨record, ?_, agrees⟩
        rw [ExtTreeMap.getElem?_insert, if_neg (by simpa using apart)]
        exact found
  · exact soundAfter
  · intro side order member
    have listed : order.id ∈ (ledger.book.side side).map Order.id := by
      rw [← sideIds side]
      exact List.mem_map.mpr ⟨order, member, rfl⟩
    obtain ⟨old, inside, same⟩ := List.mem_map.mp listed
    rw [← same]
    exact mirrors.consistent.known side old inside
  · simp only [OrderManager.rebuildLevel, allKnownOrderIds_setShadow]
    exact mirrors.known
  · simp only [OrderManager.rebuildLevel, mirrors.records]
    rfl

/-- Whichever branch an accepted amendment takes. -/
def amended (manager : OrderManager M) (newOrder : Order) : OrderManager M :=
  let existing := manager.orderAt newOrder.id
  if newOrder.price = existing.price ∧ newOrder.quantity ≤ existing.quantity then
    manager.rebuildLevel newOrder.id newOrder
  else manager.moveOrder newOrder.id newOrder

/-- A moved order is entered into the matcher once it was cancelled there. -/
theorem matcher_moveOrder (manager : OrderManager M) (oldId : OrderId) (newOrder : Order) :
    (manager.moveOrder oldId newOrder).matcher =
      IMatcher.addOrder (IMatcher.cancelOrder manager.matcher oldId) newOrder := by
  simp [OrderManager.moveOrder]

/-- The branches of an accepted amendment: an order of the same side and price is rewritten where
it rests, or it is moved. -/
theorem Mirrors.amended_cases (mirrors : manager.Mirrors ledger) {newOrder : Order}
    (held : ledger.holds newOrder.id = true)
    (clear : Ledger.wouldCross ledger.book newOrder = false) :
    let keeps := newOrder.price = (ledger.recordOf newOrder.id).price ∧
      newOrder.quantity ≤ (ledger.recordOf newOrder.id).quantity
    (keeps ∧ manager.amended newOrder = manager.rebuildLevel newOrder.id newOrder ∧
      ∃ target ∈ ledger.book.side newOrder.side,
        target.id = newOrder.id ∧ target.price = newOrder.price) ∨
    (¬ keeps ∧ manager.amended newOrder = manager.moveOrder newOrder.id newOrder) := by
  intro keeps
  obtain ⟨side, target, member, own, agrees⟩ := mirrors.resting_of_holds held
  have record : manager.orderAt newOrder.id = ledger.recordOf newOrder.id := by
    simp only [orderAt, Ledger.recordOf, mirrors.records]
  unfold OrderManager.amended
  rw [record]
  by_cases inPlace : keeps
  · have price : newOrder.price = target.price := inPlace.1.trans agrees.price
    have sameSide := side_eq_of_clear member price clear
    subst sameSide
    exact .inl ⟨inPlace, if_pos inPlace, target, member, own, price.symm⟩
  · exact .inr ⟨inPlace, if_neg inPlace⟩

/-- An accepted amendment does what the ledger does, in place or not. -/
theorem Mirrors.amend (mirrors : manager.Mirrors ledger) {newOrder : Order}
    (held : ledger.holds newOrder.id = true) (positive : newOrder.quantity ≠ 0)
    (clear : Ledger.wouldCross ledger.book newOrder = false) :
    (manager.amended newOrder).Mirrors (ledger.amend newOrder) := by
  unfold Ledger.amend
  rcases mirrors.amended_cases held clear with
    ⟨keeps, inPlace, target, member, own, price⟩ | ⟨moves, moved⟩
  · simp only [inPlace, if_pos keeps]
    exact mirrors.rebuildLevel positive member own price clear
  · obtain ⟨side, target, member, own, _⟩ := mirrors.resting_of_holds held
    have listed := mirrors.consistent.known side target member
    simp only [moved, if_neg moves]
    exact mirrors.moveOrder positive (own ▸ listed) clear

/-- Everything `cancelReplace` can do: reject and change nothing, or amend an order that rests by
one that crosses nothing. -/
theorem Mirrors.cancelReplace_cases (mirrors : manager.Mirrors ledger) (oldId : OrderId)
    (newOrder : Order) :
    (∃ reason, manager.cancelReplace oldId newOrder = (.reject reason, manager) ∧
      ledger.cancelReplace oldId newOrder = (.reject reason, ledger)) ∨
    (newOrder.id = oldId ∧ ledger.holds newOrder.id = true ∧ newOrder.quantity ≠ 0 ∧
      Ledger.wouldCross ledger.book newOrder = false ∧
      manager.cancelReplace oldId newOrder =
        (.ok, manager.amended { newOrder with status := .new }) ∧
      ledger.cancelReplace oldId newOrder =
        (.ok, ledger.amend { newOrder with status := .new })) := by
  have active := mirrors.contains_active oldId
  have crossed := mirrors.tracks.shadows.wouldCross_eq mirrors.consistent.sound newOrder
  unfold OrderManager.cancelReplace Ledger.cancelReplace
  rw [active, mirrors.known, crossed]
  cases held : ledger.holds oldId with
  | false => exact .inl ⟨_, rfl, rfl⟩
  | true =>
    simp only [Bool.not_true, Bool.false_eq_true, ↓reduceIte]
    by_cases same : newOrder.id = oldId
    · subst same
      simp only [ne_eq, not_true_eq_false, ↓reduceIte]
      cases refused : newOrder.isMarketOrIoc with
      | true => exact .inl ⟨_, rfl, rfl⟩
      | false =>
        simp only [Bool.false_eq_true, ↓reduceIte]
        cases reason : validateNewOrder newOrder (ledger.known.erase newOrder.id) with
        | none =>
          cases clear : Ledger.wouldCross ledger.book newOrder with
          | true => exact .inl ⟨_, rfl, rfl⟩
          | false =>
            have positive := (validateNewOrder_none reason).1
            refine .inr ⟨trivial, held, positive, rfl, ?_, rfl⟩
            simp only [Bool.false_eq_true, ↓reduceIte, OrderManager.amended]
            split <;> rfl
        | _ => exact .inl ⟨_, rfl, rfl⟩
    · simp only [ne_eq, same, not_false_eq_true, ↓reduceIte]
      exact .inl ⟨_, rfl, rfl⟩

/-- `cancelReplace` does what the ledger does. -/
theorem Mirrors.cancelReplace (mirrors : manager.Mirrors ledger) (oldId : OrderId)
    (newOrder : Order) :
    (manager.cancelReplace oldId newOrder).1 = (ledger.cancelReplace oldId newOrder).1 ∧
      (manager.cancelReplace oldId newOrder).2.Mirrors
        (ledger.cancelReplace oldId newOrder).2 := by
  rcases mirrors.cancelReplace_cases oldId newOrder with
    ⟨reason, refused, same⟩ | ⟨_, held, positive, clear, accepted, same⟩
  · rw [refused, same]
    exact ⟨rfl, mirrors⟩
  · have result : (manager.amended { newOrder with status := .new }).Mirrors
        (ledger.amend { newOrder with status := .new }) := mirrors.amend held positive clear
    rw [accepted, same]
    exact ⟨rfl, result⟩

end OrderManager

end Titan
