import TitanEngine.Book.ReferenceMatcher
import TitanEngine.Spec.Refinement

/-!
# The reference matcher refines the price-time book

`Holds` is the representation invariant of the reference matcher, tied to the book it stands
for: no level is stored empty, the queues are those of the book, and `orderTable` locates every
node of every level and nothing else. Each operation of the matcher keeps it, with the book's
own operation on the other side, so the matcher is lawful.
-/

namespace Titan

open Library Std

namespace ReferenceMatcher

variable {matcher : ReferenceMatcher} {book : Book}

@[simp] theorem levels_setLevels_same (matcher : ReferenceMatcher) (side : Side)
    (levels : PriceLevels) : (matcher.setLevels side levels).levels side = levels := by
  cases side <;> rfl

@[simp] theorem levels_opposite_setLevels (matcher : ReferenceMatcher) (side : Side)
    (levels : PriceLevels) :
    (matcher.setLevels side levels).levels side.opposite = matcher.levels side.opposite := by
  cases side <;> rfl

@[simp] theorem orderTable_setLevels (matcher : ReferenceMatcher) (side : Side)
    (levels : PriceLevels) : (matcher.setLevels side levels).orderTable = matcher.orderTable := by
  cases side <;> rfl

@[simp] theorem nextNode_setLevels (matcher : ReferenceMatcher) (side : Side)
    (levels : PriceLevels) : (matcher.setLevels side levels).nextNode = matcher.nextNode := by
  cases side <;> rfl

/-- The nodes of the level at a price, none where there is no level. -/
def level (matcher : ReferenceMatcher) (side : Side) (price : Price) : List OrderNode :=
  (matcher.levels side).getD price []

/-- The representation invariant, with the book it stands for. -/
structure Holds (matcher : ReferenceMatcher) (book : Book) : Prop where
  /-- No level is stored empty. -/
  stored : ∀ side price, (matcher.levels side)[price]? = occupied (matcher.level side price)
  /-- The nodes of a level hold the queue of the book. -/
  orders : ∀ side price, (matcher.level side price).map (fun node => node.order) =
    group (fun order : Order => order.price) (book.side side) price
  /-- Every node is located by the table. -/
  located : ∀ side price, ∀ node ∈ matcher.level side price,
    matcher.orderTable[node.order.id]? = some { side := side, price := price, it := node.address }
  /-- Every entry of the table locates a node with its id. -/
  found : ∀ id location, matcher.orderTable[id]? = some location →
    ∃ node ∈ matcher.level location.side location.price,
      node.address = location.it ∧ node.order.id = id
  /-- No two nodes of a level share an address. -/
  addresses : ∀ side price, ((matcher.level side price).map (fun node => node.address)).Nodup
  /-- Addresses in use are below the next one. -/
  allocated : ∀ side price, ∀ node ∈ matcher.level side price, node.address < matcher.nextNode

/-- The empty matcher stands for the empty book. -/
theorem holds_init : Holds init Book.empty := by
  have bare : ∀ side price, init.level side price = [] := by
    intro side price
    cases side <;> simp [level, levels, init]
  constructor
  · intro side price
    rw [bare]
    cases side <;> simp [levels, init]
  · intro side price
    rw [bare]
    cases side <;> rfl
  · intro side price node member
    simp [bare] at member
  · intro id location entry
    simp [init] at entry
  · intro side price
    simp [bare]
  · intro side price node member
    simp [bare] at member

/-- The queues shown are those of the book. -/
theorem Holds.groups (holds : Holds matcher book) (side : Side) :
    Groups (fun order : Order => order.price) id (book.side side)
      (restingLevels matcher side) := by
  intro price
  change ((matcher.levels side).map
    (fun _ level => level.map (fun node => node.order)))[price]? = _
  rw [ExtTreeMap.getElem?_map, holds.stored side price, ← holds.orders side price]
  cases matcher.level side price <;> rfl

/-- An order of the book is stored in a node of its level. -/
theorem Holds.node_of_mem (holds : Holds matcher book) {side : Side} {order : Order}
    (member : order ∈ book.side side) :
    ∃ node ∈ matcher.level side order.price, node.order = order := by
  have inside : order ∈ (matcher.level side order.price).map (fun node => node.order) := by
    rw [holds.orders]
    exact mem_group.mpr ⟨member, rfl⟩
  exact List.mem_map.mp inside

/-- An order of a level is an order of the book at that price. -/
theorem Holds.mem_of_node (holds : Holds matcher book) {side : Side} {price : Price}
    {node : OrderNode} (member : node ∈ matcher.level side price) :
    node.order ∈ book.side side ∧ node.order.price = price := by
  have inside : node.order ∈ (matcher.level side price).map (fun node => node.order) :=
    List.mem_map.mpr ⟨node, member, rfl⟩
  rw [holds.orders] at inside
  exact mem_group.mp inside

/-- The table has an entry for every order of the book. -/
theorem Holds.entry_of_mem (holds : Holds matcher book) {side : Side} {order : Order}
    (member : order ∈ book.side side) : order.id ∈ matcher.orderTable := by
  obtain ⟨node, inside, equal⟩ := holds.node_of_mem member
  have entry := holds.located side order.price node inside
  rw [equal] at entry
  rw [ExtTreeMap.mem_iff_isSome_getElem?, entry]
  rfl

/-- The best price of a side is that of the head of the side. -/
theorem Holds.bestLevel_eq (holds : Holds matcher book) (sound : book.Sound) (side : Side) :
    (bestLevel side (matcher.levels side)).map Prod.fst =
      (book.side side).head?.map (fun order => order.price) := by
  have shown := bestLevel_map (fun level : List OrderNode => level.map (fun node => node.order))
    side (matcher.levels side)
  have prices : (bestLevel side (matcher.levels side)).map Prod.fst =
      (bestLevel side (restingLevels matcher side)).map Prod.fst := by
    change _ = (bestLevel side ((matcher.levels side).map
      (fun _ level => level.map (fun node => node.order)))).map Prod.fst
    rw [shown, Option.map_map]
    rfl
  rw [prices]
  have grouped := holds.groups side
  cases orders : book.side side with
  | nil =>
    rw [orders] at grouped
    rw [Book.bestLevel_of_nil grouped]
    rfl
  | cons first rest =>
    rw [sound.bestLevel_of_cons orders grouped]
    rfl

/-- A side of the book is empty exactly when the side has no levels. -/
theorem Holds.isEmpty_iff (holds : Holds matcher book) (sound : book.Sound) (side : Side) :
    (matcher.levels side).isEmpty = true ↔ book.side side = [] := by
  rw [isEmpty_iff_bestLevel side]
  have best := holds.bestLevel_eq sound side
  cases orders : book.side side with
  | nil => simpa [orders] using best
  | cons first rest =>
    simp only [orders, List.head?_cons, Option.map_some, Option.map_eq_some_iff] at best
    obtain ⟨entry, found, _⟩ := best
    simp [found]

/-- One matcher has the levels of another, except for the nodes at one price of one side. -/
structure Stores (matcher changed : ReferenceMatcher) (side : Side) (price : Price)
    (nodes : List OrderNode) : Prop where
  /-- The changed side. -/
  own : changed.levels side = store (matcher.levels side) price nodes
  /-- The other side. -/
  opposite : changed.levels side.opposite = matcher.levels side.opposite

section Stores

variable {changed : ReferenceMatcher} {side : Side} {price : Price} {nodes : List OrderNode}

/-- The levels after the change. -/
theorem Stores.level_eq (stores : Stores matcher changed side price nodes) (otherSide : Side)
    (other : Price) : changed.level otherSide other =
      if otherSide = side ∧ other = price then nodes else matcher.level otherSide other := by
  by_cases same : otherSide = side
  · subst same
    rw [level, stores.own, ExtTreeMap.getD_eq_getD_getElem?, getElem?_store]
    by_cases here : price = other
    · simp [here]
    · rw [if_neg here, if_neg (fun both => here both.2.symm), level,
        ExtTreeMap.getD_eq_getD_getElem?]
  · have across : otherSide = side.opposite := by
      cases side <;> cases otherSide <;> simp_all [Side.opposite]
    rw [if_neg (fun both => same both.1), level, level, across, stores.opposite]

/-- The change stores no empty level. -/
theorem Stores.stored (stores : Stores matcher changed side price nodes)
    (old : ∀ side price, (matcher.levels side)[price]? = occupied (matcher.level side price)) :
    ∀ side price, (changed.levels side)[price]? = occupied (changed.level side price) := by
  refine Book.forall_side side ?_ ?_
  · intro other
    rw [stores.level_eq, stores.own, getElem?_store]
    by_cases here : price = other
    · simp [here]
    · rw [if_neg here, if_neg (fun both => here both.2.symm)]
      exact old side other
  · intro other
    rw [level, stores.opposite]
    exact old side.opposite other

end Stores

/-- `restOrder` puts a new node behind the level of the order. -/
theorem stores_restOrder (matcher : ReferenceMatcher) (order : Order) :
    Stores matcher (matcher.restOrder order) order.side order.price
      (matcher.level order.side order.price ++
        [{ address := matcher.nextNode, order := order }]) := by
  let node : OrderNode := { address := matcher.nextNode, order := order }
  have nonempty : (matcher.level order.side order.price ++ [node]).isEmpty = false := by simp
  constructor
  · rw [store, nonempty]
    cases own : order.side <;> simp [restOrder, own, setLevels, levels, level]
  · cases own : order.side <;> simp [restOrder, own, setLevels, levels, Side.opposite]

/-- `removeOrder` takes the located node out of its level. -/
theorem stores_removeOrder {id : OrderId} {location : OrderLocation}
    (entry : matcher.orderTable[id]? = some location) :
    Stores matcher (matcher.removeOrder id) location.side location.price
      ((matcher.level location.side location.price).filter
        (fun node => node.address != location.it)) := by
  constructor
  · cases where_ : location.side <;>
      simp [removeOrder, entry, where_, setLevels, levels, store, level]
  · cases where_ : location.side <;>
      simp [removeOrder, entry, where_, setLevels, levels, Side.opposite]

/-- `setFrontQuantity` changes the first node of a level. -/
theorem setFrontQuantity_eq {side : Side} {price : Price} {front : OrderNode}
    {tail : List OrderNode} (nodes : matcher.level side price = front :: tail)
    (quantity : Quantity) :
    matcher.setFrontQuantity side price quantity =
      matcher.setLevels side ((matcher.levels side).insert price
        ({ front with order := { front.order with quantity := quantity } } :: tail)) := by
  unfold setFrontQuantity
  rw [show (matcher.levels side).getD price [] = front :: tail from nodes]

/-- `setFrontQuantity` leaves every other node as it was. -/
theorem stores_setFrontQuantity {side : Side} {price : Price} {front : OrderNode}
    {tail : List OrderNode} (nodes : matcher.level side price = front :: tail)
    (quantity : Quantity) :
    Stores matcher (matcher.setFrontQuantity side price quantity) side price
      ({ front with order := { front.order with quantity := quantity } } :: tail) := by
  rw [setFrontQuantity_eq nodes]
  exact ⟨by simp [store], by simp⟩

/-- Resting an order that is not in the book. -/
theorem Holds.restOrder (holds : Holds matcher book) (sound : book.Sound) {order : Order}
    (fresh : book.Fresh order.id) : Holds (matcher.restOrder order) (book.rest order) := by
  let node : OrderNode := { address := matcher.nextNode, order := order }
  let nodes := matcher.level order.side order.price ++ [node]
  have stores : Stores matcher (matcher.restOrder order) order.side order.price nodes :=
    stores_restOrder matcher order
  have table : (matcher.restOrder order).orderTable = matcher.orderTable.insert order.id
      { side := order.side, price := order.price, it := matcher.nextNode } := rfl
  have next : (matcher.restOrder order).nextNode = matcher.nextNode + 1 := rfl
  have others : ∀ side price, ∀ other ∈ matcher.level side price, other.order.id ≠ order.id :=
    fun side price other member => fresh side other.order (holds.mem_of_node member).1
  constructor
  · exact stores.stored holds.stored
  · refine Book.forall_side order.side ?_ ?_
    · intro price
      rw [stores.level_eq, Book.rest, Book.side_setSide_same,
        Book.group_arrive (sound.ranked order.side)]
      by_cases here : order.price = price
      · simp [here, nodes, node, holds.orders]
      · rw [if_neg here, if_neg (fun both => here both.2.symm)]
        exact holds.orders order.side price
    · intro price
      have apart : order.side.opposite ≠ order.side := by cases order.side <;> decide
      rw [stores.level_eq, if_neg (fun both => apart both.1), Book.side_opposite_rest]
      exact holds.orders _ price
  · intro side price other member
    rw [stores.level_eq] at member
    rw [table, ExtTreeMap.getElem?_insert]
    split at member
    · rename_i here
      rcases List.mem_append.mp member with member | member
      · rw [if_neg (by simpa using (others _ _ other member).symm), here.1, here.2]
        exact holds.located _ _ other member
      · obtain rfl := List.mem_singleton.mp member
        simp [node, here.1, here.2]
    · rw [if_neg (by simpa using (others _ _ other member).symm)]
      exact holds.located _ _ other member
  · intro id location entry
    rw [table, ExtTreeMap.getElem?_insert] at entry
    rw [stores.level_eq]
    split at entry
    · rename_i equal
      obtain rfl := Option.some.inj entry
      refine ⟨node, ?_, rfl, by simpa using equal⟩
      simp [nodes]
    · obtain ⟨other, member, address, own⟩ := holds.found id location entry
      refine ⟨other, ?_, address, own⟩
      split
      · rename_i here
        rw [here.1, here.2] at member
        exact List.mem_append_left _ member
      · exact member
  · intro side price
    rw [stores.level_eq]
    split
    · simp only [nodes, List.map_append, List.map_cons, List.map_nil]
      refine List.nodup_append.mpr ⟨holds.addresses _ _, by simp, ?_⟩
      intro address member other single equal
      obtain ⟨old, inside, rfl⟩ := List.mem_map.mp member
      have below := holds.allocated _ _ old inside
      simp only [List.mem_singleton, node] at single
      omega
    · exact holds.addresses side price
  · intro side price other member
    rw [stores.level_eq] at member
    rw [next]
    split at member
    · rcases List.mem_append.mp member with member | member
      · exact Nat.lt_succ_of_lt (holds.allocated _ _ other member)
      · obtain rfl := List.mem_singleton.mp member
        exact Nat.lt_succ_self _
    · exact Nat.lt_succ_of_lt (holds.allocated _ _ other member)

/-- Removing an order by its id. -/
theorem Holds.removeOrder (holds : Holds matcher book) (id : OrderId) :
    Holds (matcher.removeOrder id) (book.cancel id) := by
  cases entry : matcher.orderTable[id]? with
  | none =>
    have others : ∀ side, ∀ order ∈ book.side side, order.id ≠ id := by
      intro side order member equal
      have inside := holds.entry_of_mem member
      rw [equal, ExtTreeMap.mem_iff_isSome_getElem?, entry] at inside
      simp at inside
    have same : book.cancel id = book := by
      refine Book.ext_side (fun side => ?_)
      rw [Book.side_cancel, List.filter_eq_self]
      intro order member
      simpa using others side order member
    rw [same, ReferenceMatcher.removeOrder, entry]
    exact holds
  | some location =>
    obtain ⟨target, inside, address, own⟩ := holds.found id location entry
    let nodes := (matcher.level location.side location.price).filter
      (fun node => node.address != location.it)
    have stores : Stores matcher (matcher.removeOrder id) location.side location.price nodes :=
      stores_removeOrder entry
    have table : (matcher.removeOrder id).orderTable = matcher.orderTable.erase id := by
      simp [ReferenceMatcher.removeOrder, entry]
    have next : (matcher.removeOrder id).nextNode = matcher.nextNode := by
      simp [ReferenceMatcher.removeOrder, entry]
    have erased : ∀ node ∈ matcher.level location.side location.price,
        node.order.id = id ↔ node.address = location.it := by
      intro node member
      constructor
      · intro equal
        have found := holds.located _ _ node member
        rw [equal, entry] at found
        exact (congrArg OrderLocation.it (Option.some.inj found)).symm
      · intro equal
        have same : node = target := List.inj_on_of_nodup_map
          (holds.addresses location.side location.price) member inside (equal.trans address.symm)
        rw [same]
        exact own
    have elsewhere : ∀ side price, ¬ (side = location.side ∧ price = location.price) →
        ∀ node ∈ matcher.level side price, node.order.id ≠ id := by
      intro side price apart node member equal
      have found := holds.located _ _ node member
      rw [equal, entry] at found
      have same := Option.some.inj found
      exact apart ⟨(congrArg OrderLocation.side same).symm,
        (congrArg OrderLocation.price same).symm⟩
    constructor
    · exact stores.stored holds.stored
    · intro side price
      rw [stores.level_eq, Book.side_cancel, group_filter, ← holds.orders, List.filter_map]
      split
      · rename_i here
        rw [here.1, here.2]
        congr 1
        refine List.filter_congr ?_
        intro node member
        simp [erased node member, bne]
      · rename_i apart
        congr 1
        refine (List.filter_eq_self.mpr ?_).symm
        intro node member
        simpa using elsewhere side price apart node member
    · intro side price node member
      rw [stores.level_eq] at member
      rw [table, ExtTreeMap.getElem?_erase]
      split at member
      · rename_i here
        obtain ⟨member, kept⟩ := List.mem_filter.mp member
        have apart : node.order.id ≠ id := by
          intro equal
          simp [(erased node member).mp equal] at kept
        rw [if_neg (by simpa using apart.symm), here.1, here.2]
        exact holds.located _ _ node member
      · rename_i apart
        rw [if_neg (by simpa using (elsewhere side price apart node member).symm)]
        exact holds.located _ _ node member
    · intro other place found
      rw [table, ExtTreeMap.getElem?_erase] at found
      split at found
      · simp at found
      · rename_i apart
        obtain ⟨node, member, at_, ownId⟩ := holds.found other place found
        refine ⟨node, ?_, at_, ownId⟩
        rw [stores.level_eq]
        split
        · rename_i here
          rw [here.1, here.2] at member
          refine List.mem_filter.mpr ⟨member, ?_⟩
          have away : node.address ≠ location.it := by
            intro equal
            have same := (erased node member).mpr equal
            exact apart (by simpa using same.symm.trans ownId)
          simpa using away
        · exact member
    · intro side price
      rw [stores.level_eq]
      split
      · exact (List.filter_sublist.map _).nodup (holds.addresses _ _)
      · exact holds.addresses side price
    · intro side price node member
      rw [stores.level_eq] at member
      rw [next]
      split at member
      · exact holds.allocated _ _ node (List.mem_filter.mp member).1
      · exact holds.allocated _ _ node member

/-- The head of a side is stored in the front node of its level. -/
theorem Holds.front (holds : Holds matcher book) {side : Side} {maker : Order}
    {rest : List Order} (orders : book.side side = maker :: rest) :
    ∃ address tail, matcher.level side maker.price =
        { address := address, order := maker } :: tail ∧
      tail.map (fun node => node.order) =
        group (fun order : Order => order.price) rest maker.price := by
  have queue := holds.orders side maker.price
  rw [orders, group_cons_self (fun order : Order => order.price)] at queue
  cases nodes : matcher.level side maker.price with
  | nil => simp [nodes] at queue
  | cons front tail =>
    rw [nodes, List.map_cons, List.cons.injEq] at queue
    refine ⟨front.address, tail, ?_, queue.2⟩
    rw [← queue.1]

/-- Changing the quantity of the front of the best level changes the head of the side. -/
theorem Holds.setFrontQuantity (holds : Holds matcher book) {side : Side} {maker : Order}
    {rest : List Order} (orders : book.side side = maker :: rest) (quantity : Quantity) :
    Holds (matcher.setFrontQuantity side maker.price quantity)
      (book.setSide side ({ maker with quantity := quantity } :: rest)) := by
  obtain ⟨address, tail, front, behind⟩ := holds.front orders
  let node : OrderNode := { address := address, order := maker }
  let changed : OrderNode := { address := address, order := { maker with quantity := quantity } }
  have unfolded : matcher.setFrontQuantity side maker.price quantity =
      matcher.setLevels side ((matcher.levels side).insert maker.price (changed :: tail)) :=
    setFrontQuantity_eq front quantity
  have stores : Stores matcher (matcher.setFrontQuantity side maker.price quantity) side
      maker.price (changed :: tail) := stores_setFrontQuantity front quantity
  have table : (matcher.setFrontQuantity side maker.price quantity).orderTable =
      matcher.orderTable := by rw [unfolded, orderTable_setLevels]
  have next : (matcher.setFrontQuantity side maker.price quantity).nextNode =
      matcher.nextNode := by rw [unfolded, nextNode_setLevels]
  -- the changed node keeps its address and its id, so the table still locates it
  have kept : ∀ otherSide price, ∀ other ∈ (matcher.setFrontQuantity side maker.price
      quantity).level otherSide price, ∃ old ∈ matcher.level otherSide price,
        old.address = other.address ∧ old.order.id = other.order.id := by
    intro otherSide price other member
    rw [stores.level_eq] at member
    split at member
    · rename_i here
      rw [here.1, here.2, front]
      rcases List.mem_cons.mp member with rfl | member
      · exact ⟨node, List.mem_cons_self, rfl, rfl⟩
      · exact ⟨other, List.mem_cons_of_mem _ member, rfl, rfl⟩
    · exact ⟨other, member, rfl, rfl⟩
  constructor
  · exact stores.stored holds.stored
  · refine Book.forall_side side ?_ ?_
    · intro price
      rw [stores.level_eq, Book.side_setSide_same]
      by_cases here : price = maker.price
      · subst here
        rw [if_pos ⟨rfl, rfl⟩, List.map_cons, behind]
        exact (group_cons_self (fun order : Order => order.price) _ rest).symm
      · have old := holds.orders side price
        rw [orders, group_cons_of_ne (fun order : Order => order.price) (Ne.symm here)] at old
        rw [if_neg (fun both => here both.2), old]
        simp [group, Ne.symm here]
    · intro price
      have apart : side.opposite ≠ side := by cases side <;> decide
      rw [stores.level_eq, if_neg (fun both => apart both.1), Book.side_opposite_setSide]
      exact holds.orders _ price
  · intro otherSide price other member
    obtain ⟨old, inside, at_, own⟩ := kept otherSide price other member
    rw [table, ← at_, ← own]
    exact holds.located _ _ old inside
  · intro id location entry
    rw [table] at entry
    obtain ⟨old, member, at_, own⟩ := holds.found id location entry
    rw [stores.level_eq]
    split
    · rename_i here
      rw [here.1, here.2, front] at member
      rcases List.mem_cons.mp member with rfl | member
      · exact ⟨changed, List.mem_cons_self, at_, own⟩
      · exact ⟨old, List.mem_cons_of_mem _ member, at_, own⟩
    · exact ⟨old, member, at_, own⟩
  · intro otherSide price
    rw [stores.level_eq]
    split
    · have old := holds.addresses side maker.price
      rw [front] at old
      exact old
    · exact holds.addresses otherSide price
  · intro otherSide price other member
    obtain ⟨old, inside, at_, _⟩ := kept otherSide price other member
    rw [next, ← at_]
    exact holds.allocated _ _ old inside

/-- The best price of the other side, where there is one, is that of its head. -/
theorem Holds.oppositeBest_eq (holds : Holds matcher book) (sound : book.Sound) {side : Side}
    {maker : Order} {rest : List Order} (orders : book.side side.opposite = maker :: rest) :
    matcher.oppositeBest side = maker.price := by
  have best := holds.bestLevel_eq sound side.opposite
  rw [orders, List.head?_cons, Option.map_some, Option.map_eq_some_iff] at best
  obtain ⟨entry, found, price⟩ := best
  cases side with
  | buy =>
    rw [oppositeBest, bestAsk, show bestLevel .sell matcher.asks = some entry from found]
    exact price
  | sell =>
    rw [oppositeBest, bestBid, show bestLevel .buy matcher.bids = some entry from found]
    exact price

/-- The guard of the loop: something left to fill, and a side that it reaches. -/
theorem crossGuard_eq (matcher : ReferenceMatcher) (incoming : Order) :
    crossGuard matcher incoming = (decide (incoming.quantity > 0) &&
      crosses incoming.side incoming.price (matcher.oppositeBest incoming.side) &&
      !(matcher.levels incoming.side.opposite).isEmpty) := by
  unfold crossGuard
  cases incoming.side <;> rfl

/-- Erasing an id that is in the table leaves fewer entries. -/
theorem size_removeOrder_lt {id : OrderId} (inside : id ∈ matcher.orderTable) :
    (matcher.removeOrder id).orderTable.size < matcher.orderTable.size := by
  have entry := inside
  rw [ExtTreeMap.mem_iff_isSome_getElem?, Option.isSome_iff_exists] at entry
  obtain ⟨location, entry⟩ := entry
  have table : (matcher.removeOrder id).orderTable = matcher.orderTable.erase id := by
    simp [removeOrder, entry]
  have positive : matcher.orderTable.size ≠ 0 := by
    intro empty
    rw [← ExtTreeMap.eq_empty_iff_size_eq_zero] at empty
    simp [empty] at inside
  rw [table, ExtTreeMap.size_erase, if_pos (ExtTreeMap.contains_iff_mem.mpr inside)]
  omega

/-- A pass of the loop of `cross` trades with the head of the other side. -/
theorem crossPass_spec :
    CrossPass Holds (fun matcher => matcher.orderTable.size) crossPass where
  filled state zero := by
    simp [crossPass, crossGuard_eq, zero]
  bare state book holds sound orders := by
    have empty := (holds.isEmpty_iff sound _).mpr orders
    simp [crossPass, crossGuard_eq, empty]
  beyond state book maker rest holds sound orders reach := by
    rw [← holds.oppositeBest_eq sound orders] at reach
    simp [crossPass, crossGuard_eq, reach]
  trade state book maker rest holds sound positive orders reach := by
    obtain ⟨address, tail, front, _⟩ := holds.front orders
    let side := state.incoming.side.opposite
    let traded := min state.incoming.quantity maker.quantity
    let reduced := state.matcher.setFrontQuantity side maker.price (maker.quantity - traded)
    have guard : crossGuard state.matcher state.incoming = true := by
      have nonempty : (state.matcher.levels side).isEmpty = false := by
        rw [← Bool.not_eq_true, holds.isEmpty_iff sound, orders]
        simp
      rw [crossGuard_eq, holds.oppositeBest_eq sound orders, reach, nonempty]
      simp only [Bool.and_true, Bool.not_false, decide_eq_true_eq]
      grind
    have held := holds.setFrontQuantity orders (maker.quantity - traded)
    have entry := holds.entry_of_mem (orders ▸ List.mem_cons_self : maker ∈ book.side side)
    have table : reduced.orderTable = state.matcher.orderTable := by
      change (setFrontQuantity _ _ _ _).orderTable = _
      rw [ReferenceMatcher.setFrontQuantity,
        show (state.matcher.levels side).getD maker.price [] = _ from front, orderTable_setLevels]
    refine ⟨if maker.quantity - traded = 0 then reduced.removeOrder maker.id else reduced,
      ?_, ?_, ?_, ?_⟩
    · simp only [crossPass, guard, ↓reduceIte, holds.oppositeBest_eq sound orders]
      rw [show (state.matcher.levels side).getD maker.price [] = _ from front]
      rfl
    · unfold Book.fillHead afterFill
      split
      · rw [← sound.cancel_head orders (rfl : ({ maker with
          quantity := maker.quantity - traded } : Order).id = maker.id)]
        exact held.removeOrder maker.id
      · exact held
    · have nonempty : state.matcher.orderTable.size ≠ 0 := by
        intro empty
        rw [← ExtTreeMap.eq_empty_iff_size_eq_zero] at empty
        simp [empty] at entry
      omega
    · intro fits
      have least : traded = maker.quantity := by
        simp only [traded, UInt64.min_def]
        grind
      rw [if_pos (by rw [least, UInt64.sub_self]), ← table]
      exact size_removeOrder_lt (table ▸ entry)

/-- `matchOrder` trades and rests as in the book. -/
theorem Holds.matchOrder (holds : Holds matcher book) (sound : book.Sound) {order : Order}
    (fresh : book.Fresh order.id) :
    (matcher.matchOrder order).1 = (book.submit order).1 ∧
      Holds (matcher.matchOrder order).2 (book.submit order).2 :=
  crossPass_spec.submit (fun _ _ _ held good unused => held.restOrder good unused) holds sound
    fresh

/-- The quantities of the levels are those of the queues of the book. -/
theorem Holds.depth_eq (holds : Holds matcher book) (side : Side) (maxLevels : Nat) :
    depthFrom quantities side (matcher.levels side) maxLevels = book.depth side maxLevels := by
  rw [← Book.depth_of_groups (holds.groups side) maxLevels]
  congr 1
  funext level
  simp [quantities]

instance : LawfulMatcher ReferenceMatcher where
  Represents := Holds
  groups holds := holds.groups
  addOrder_spec _ holds sound fresh := (holds.matchOrder sound fresh).2
  matchOrder_spec _ holds sound fresh := holds.matchOrder sound fresh
  cancelOrder_spec id holds _ := holds.removeOrder id
  bestBid_spec {matcher book} holds sound := by
    have best := holds.bestLevel_eq sound .buy
    change matcher.bestBid = _
    rw [bestBid, Book.bestBid]
    change (bestLevel .buy matcher.bids).map Prod.fst = book.bids.head?.map _ at best
    rw [← best]
    cases bestLevel .buy matcher.bids <;> rfl
  bestAsk_spec {matcher book} holds sound := by
    have best := holds.bestLevel_eq sound .sell
    change matcher.bestAsk = _
    rw [bestAsk, Book.bestAsk]
    change (bestLevel .sell matcher.asks).map Prod.fst = book.asks.head?.map _ at best
    rw [← best]
    cases bestLevel .sell matcher.asks <;> rfl
  bidDepth_spec holds _ maxLevels := holds.depth_eq .buy maxLevels
  askDepth_spec holds _ maxLevels := holds.depth_eq .sell maxLevels

end ReferenceMatcher

end Titan
