import TitanEngine.Book.OptimizedMatcher
import TitanEngine.Core.PoolInvariant
import TitanEngine.Spec.Refinement

/-!
# The optimized matcher refines the price-time book

`Holds` is the representation invariant of the optimized matcher, tied to the book it stands
for. Its centre is the slot: a side, a price and an index into the vector of that level. Every
slot that is not a tombstone points to a live object of the pool whose id leads back to that
slot through `orderTable`, so no two slots share an object. Skipping the tombstones at the
front, counting the live orders and erasing a level whose count is zero then lose nothing.
-/

namespace Titan

open Library Std

namespace Level

/-- The pointer at an index of a level; a tombstone and an index beyond the end are both null. -/
def slot (level : Level) (index : Nat) : Option Nat := (level.orders[index]?).join

/-- The addresses a level points to. -/
def addresses (level : Level) : List Nat := level.orders.filterMap id

/-- A level counts its live pointers, and everything before its front index is a tombstone. -/
structure Counted (level : Level) : Prop where
  /-- `liveCount` is the number of pointers that are not null. -/
  live : level.liveCount = level.addresses.length
  /-- Only tombstones were skipped. -/
  skipped : level.orders.take level.frontIndex = List.replicate level.frontIndex none

/-- A level that was just created is counted. -/
theorem counted_default : Counted {} := ⟨rfl, rfl⟩

/-- The pointers of a level are the contents of its slots. -/
theorem mem_addresses {level : Level} {address : Nat} :
    address ∈ level.addresses ↔ ∃ index, level.slot index = some address := by
  simp only [addresses, List.mem_filterMap, id_eq, exists_eq_right, slot, Option.join_eq_some_iff]
  exact List.mem_iff_getElem?

/-- A counted level counts its pointers that are not null. -/
theorem Counted.liveCount_eq {level : Level} (counted : level.Counted) :
    level.liveCount = level.orders.countP Option.isSome := by
  rw [counted.live, addresses, List.length_filterMap_eq_countP]
  rfl

/-- A counted level without live orders points nowhere. -/
theorem Counted.addresses_eq_nil {level : Level} (counted : level.Counted)
    (empty : level.liveCount = 0) : level.addresses = [] := by
  rw [← List.length_eq_zero_iff, ← counted.live]
  exact empty

/-- A counted level without live orders holds tombstones only. -/
theorem Counted.slot_eq_none {level : Level} (counted : level.Counted)
    (empty : level.liveCount = 0) (index : Nat) : level.slot index = none := by
  have bare := counted.addresses_eq_nil empty
  cases found : level.slot index with
  | none => rfl
  | some address =>
    have member := mem_addresses.mpr ⟨index, found⟩
    simp [bare] at member

/-- The front index stays within the vector. -/
theorem Counted.frontIndex_le {level : Level} (counted : level.Counted) :
    level.frontIndex ≤ level.orders.length := by
  have lengths := congrArg List.length counted.skipped
  rw [List.length_take, List.length_replicate] at lengths
  omega

/-- A slot cuts the pointers of its level in two; making it a tombstone leaves the two parts, and
they come from other slots. -/
theorem split_slot {level : Level} {index address : Nat} (slot : level.slot index = some address) :
    ∃ front back, level.addresses = front ++ address :: back ∧
      (level.orders.set index none).filterMap id = front ++ back ∧
      ∀ other ∈ front ++ back, ∃ place, place ≠ index ∧ level.slot place = some other := by
  have lookup : level.orders[index]? = some (some address) := Option.join_eq_some_iff.mp slot
  obtain ⟨inside, entry⟩ := List.getElem?_eq_some_iff.mp lookup
  have parts : level.orders =
      level.orders.take index ++ some address :: level.orders.drop (index + 1) := by
    rw [← entry, List.getElem_cons_drop, List.take_append_drop]
  refine ⟨(level.orders.take index).filterMap id, (level.orders.drop (index + 1)).filterMap id,
    ?_, ?_, ?_⟩
  · unfold addresses
    nth_rewrite 1 [parts]
    rw [List.filterMap_append, List.filterMap_cons_some (f := id) rfl]
  · rw [List.set_eq_take_append_cons_drop, if_pos inside, List.filterMap_append,
      List.filterMap_cons_none (f := id) rfl]
  · intro other member
    rw [← List.filterMap_append, List.mem_filterMap] at member
    obtain ⟨pointer, listed, equal⟩ := member
    obtain rfl : pointer = some other := equal
    rcases List.mem_append.mp listed with early | late
    · obtain ⟨place, found⟩ := List.mem_iff_getElem?.mp early
      have bound : place < index := by
        have within := (List.getElem?_eq_some_iff.mp found).1
        rw [List.length_take] at within
        omega
      rw [List.getElem?_take_of_lt bound] at found
      exact ⟨place, Nat.ne_of_lt bound, Option.join_eq_some_iff.mpr found⟩
    · obtain ⟨place, found⟩ := List.mem_iff_getElem?.mp late
      rw [List.getElem?_drop] at found
      exact ⟨index + 1 + place, by omega, Option.join_eq_some_iff.mpr found⟩

/-- A level with a pointer added at its end. -/
def push (level : Level) (address : Nat) : Level :=
  { level with
    orders := level.orders ++ [some address]
    liveCount := level.liveCount + 1 }

/-- The slots of a level with a pointer added. -/
theorem slot_push (level : Level) (address index : Nat) : (level.push address).slot index =
    if index = level.orders.length then some address else level.slot index := by
  change ((level.orders ++ [some address])[index]?).join = _
  rw [List.getElem?_append]
  rcases Nat.lt_trichotomy index level.orders.length with less | equal | more
  · rw [if_pos less, if_neg (Nat.ne_of_lt less)]
    rfl
  · simp [equal]
  · rw [if_neg (by omega), if_neg (by omega), List.getElem?_eq_none (by simp; omega)]
    change none = (level.orders[index]?).join
    rw [List.getElem?_eq_none (by omega)]
    rfl

/-- Adding a pointer keeps a level counted. -/
theorem Counted.push {level : Level} (counted : level.Counted) (address : Nat) :
    (level.push address).Counted := by
  constructor
  · change level.liveCount + 1 = ((level.orders ++ [some address]).filterMap id).length
    rw [counted.live, List.filterMap_append, List.length_append]
    rfl
  · change (level.orders ++ [some address]).take level.frontIndex = _
    rw [List.take_append_of_le_length counted.frontIndex_le]
    exact counted.skipped

/-- A level with a tombstone put in a slot. -/
def bury (level : Level) (index : Nat) : Level :=
  { level with
    orders := level.orders.set index none
    liveCount := level.liveCount - 1 }

/-- The slots of a level with a tombstone put in one. -/
theorem slot_bury (level : Level) (buried index : Nat) :
    (level.bury buried).slot index = if index = buried then none else level.slot index := by
  change ((level.orders.set buried none)[index]?).join = _
  by_cases same : index = buried
  · rw [if_pos same, same, List.getElem?_set_self']
    cases level.orders[buried]? <;> rfl
  · rw [if_neg same, List.getElem?_set_ne (Ne.symm same)]
    rfl

/-- Putting a tombstone over a pointer keeps a level counted. -/
theorem Counted.bury {level : Level} (counted : level.Counted) {index address : Nat}
    (slot : level.slot index = some address) : (level.bury index).Counted := by
  obtain ⟨front, back, whole, remaining, _⟩ := split_slot slot
  constructor
  · change level.liveCount - 1 = ((level.orders.set index none).filterMap id).length
    rw [counted.live, whole, remaining, List.length_append, List.length_append, List.length_cons]
    omega
  · change (level.orders.set index none).take level.frontIndex = _
    rw [List.take_set, counted.skipped, List.set_replicate_self]
    rfl

end Level

namespace OptimizedMatcher

variable {matcher : OptimizedMatcher} {book : Book}

@[simp] theorem levels_setLevels_self (matcher : OptimizedMatcher) (side : Side)
    (levels : Levels) : (matcher.setLevels side levels).levels side = levels := by
  cases side <;> rfl

@[simp] theorem levels_setLevels_opposite (matcher : OptimizedMatcher) (side : Side)
    (levels : Levels) :
    (matcher.setLevels side levels).levels side.opposite = matcher.levels side.opposite := by
  cases side <;> rfl

@[simp] theorem orderTable_setLevels (matcher : OptimizedMatcher) (side : Side)
    (levels : Levels) : (matcher.setLevels side levels).orderTable = matcher.orderTable := by
  cases side <;> rfl

@[simp] theorem orderPool_setLevels (matcher : OptimizedMatcher) (side : Side)
    (levels : Levels) : (matcher.setLevels side levels).orderPool = matcher.orderPool := by
  cases side <;> rfl

/-- The level at a price, a fresh one where there is none. -/
def level (matcher : OptimizedMatcher) (side : Side) (price : Price) : Level :=
  (matcher.levels side).getD price {}

/-- The representation invariant, with the book it stands for. -/
structure Holds (matcher : OptimizedMatcher) (book : Book) : Prop where
  /-- The pool is consistent. -/
  pool : matcher.orderPool.Valid
  /-- No level is stored without live orders. -/
  stored : ∀ (side : Side) (price : Price) (level : Level),
    (matcher.levels side)[price]? = some level → level.liveCount ≠ 0
  /-- The levels are counted. -/
  counted : ∀ side price, (matcher.level side price).Counted
  /-- The objects of a level are the queue of the book. -/
  orders : ∀ side price, liveOrders matcher.orderPool (matcher.level side price) =
    group (fun order : Order => order.price) (book.side side) price
  /-- Every slot holds a live object that the table refers back to it. -/
  referenced : ∀ side price index address,
    (matcher.level side price).slot index = some address →
    matcher.orderPool.Live address ∧ ∃ order, matcher.orderPool.read address = some order ∧
      matcher.orderTable[order.id]? = some { side := side, price := price, index := index }
  /-- Every entry of the table refers to a slot that holds its id. -/
  found : ∀ id reference, matcher.orderTable[id]? = some reference →
    ∃ address order,
      (matcher.level reference.side reference.price).slot reference.index = some address ∧
      matcher.orderPool.read address = some order ∧ order.id = id

/-- An empty matcher stands for the empty book. -/
theorem holds_init (allocator : SlabAllocator) : Holds (init allocator) Book.empty := by
  have bare : ∀ side price, (init allocator).level side price = {} := by
    intro side price
    cases side <;> simp [level, levels, init]
  constructor
  · exact FixedObjectPool.valid_init allocator
  · intro side price level stored
    cases side <;> simp [levels, init] at stored
  · intro side price
    rw [bare]
    exact Level.counted_default
  · intro side price
    rw [bare]
    cases side <;> rfl
  · intro side price index address slot
    simp [bare, Level.slot] at slot
  · intro id reference entry
    simp [init] at entry

/-- Two slots with one pointer are one slot. -/
theorem Holds.slot_unique (holds : Holds matcher book) {side other : Side}
    {price otherPrice : Price} {index otherIndex address : Nat}
    (first : (matcher.level side price).slot index = some address)
    (second : (matcher.level other otherPrice).slot otherIndex = some address) :
    side = other ∧ price = otherPrice ∧ index = otherIndex := by
  obtain ⟨_, order, stored, entry⟩ := holds.referenced _ _ _ _ first
  obtain ⟨_, sameOrder, sameStored, sameEntry⟩ := holds.referenced _ _ _ _ second
  obtain rfl : order = sameOrder := Option.some.inj (stored.symm.trans sameStored)
  have equal := Option.some.inj (entry.symm.trans sameEntry)
  exact ⟨congrArg OrderRef.side equal, congrArg OrderRef.price equal,
    congrArg OrderRef.index equal⟩

/-- Every pointer of a level leads to an object. -/
theorem Holds.read_isSome (holds : Holds matcher book) {side : Side} {price : Price}
    {address : Nat} (member : address ∈ (matcher.level side price).addresses) :
    ∃ order, matcher.orderPool.read address = some order := by
  obtain ⟨index, slot⟩ := Level.mem_addresses.mp member
  obtain ⟨_, order, stored, _⟩ := holds.referenced _ _ _ _ slot
  exact ⟨order, stored⟩

/-- An object of a level is an order of the book at that price. -/
theorem Holds.mem_of_slot (holds : Holds matcher book) {side : Side} {price : Price}
    {index address : Nat} {order : Order}
    (slot : (matcher.level side price).slot index = some address)
    (stored : matcher.orderPool.read address = some order) :
    order ∈ book.side side ∧ order.price = price := by
  have inside : order ∈ liveOrders matcher.orderPool (matcher.level side price) :=
    List.mem_filterMap.mpr ⟨address, Level.mem_addresses.mpr ⟨index, slot⟩, stored⟩
  rw [holds.orders] at inside
  exact mem_group.mp inside

/-- An order of the book is held in a slot of its level. -/
theorem Holds.slot_of_mem (holds : Holds matcher book) {side : Side} {order : Order}
    (member : order ∈ book.side side) : ∃ index address,
      (matcher.level side order.price).slot index = some address ∧
      matcher.orderPool.read address = some order := by
  have inside : order ∈ liveOrders matcher.orderPool (matcher.level side order.price) := by
    rw [holds.orders]
    exact mem_group.mpr ⟨member, rfl⟩
  obtain ⟨address, pointed, stored⟩ := List.mem_filterMap.mp inside
  obtain ⟨index, slot⟩ := Level.mem_addresses.mp pointed
  exact ⟨index, address, slot, stored⟩

/-- The table has an entry for every order of the book. -/
theorem Holds.entry_of_mem (holds : Holds matcher book) {side : Side} {order : Order}
    (member : order ∈ book.side side) : order.id ∈ matcher.orderTable := by
  obtain ⟨index, address, slot, stored⟩ := holds.slot_of_mem member
  obtain ⟨_, same, read, entry⟩ := holds.referenced _ _ _ _ slot
  obtain rfl : order = same := Option.some.inj (stored.symm.trans read)
  rw [ExtTreeMap.mem_iff_isSome_getElem?, entry]
  rfl

/-- The queues shown are those of the book. -/
theorem Holds.groups (holds : Holds matcher book) (side : Side) :
    Groups (fun order : Order => order.price) id (book.side side)
      (restingLevels matcher side) := by
  intro price
  change ((matcher.levels side).map
    (fun _ level => liveOrders matcher.orderPool level))[price]? = _
  have queue := holds.orders side price
  have all : ∀ address ∈ (matcher.level side price).addresses,
      ∃ order, matcher.orderPool.read address = some order := fun _ => holds.read_isSome
  have live := (holds.counted side price).live
  rw [ExtTreeMap.getElem?_map, ← queue, Option.map_id]
  rw [level, ExtTreeMap.getD_eq_getD_getElem?] at all live ⊢
  cases stored : (matcher.levels side)[price]? with
  | none => rfl
  | some level =>
    have positive := holds.stored side price level stored
    simp only [stored, Option.getD_some] at all live ⊢
    simp only [Option.map_some]
    rw [occupied_of_ne_nil]
    · rfl
    · cases pointers : level.addresses with
      | nil => simp [live, pointers] at positive
      | cons first rest =>
        obtain ⟨order, read⟩ := all first (by simp [pointers])
        have shown : liveOrders matcher.orderPool level =
            (first :: rest).filterMap matcher.orderPool.read :=
          congrArg (List.filterMap matcher.orderPool.read) pointers
        rw [shown, List.filterMap_cons_some read]
        simp

/-- One matcher has the levels of another, except for one level, which is dropped when it has no
live order. -/
structure Stores (matcher changed : OptimizedMatcher) (side : Side) (price : Price)
    (level : Level) : Prop where
  /-- The changed side. -/
  own : changed.levels side = if level.liveCount = 0 then (matcher.levels side).erase price
    else (matcher.levels side).insert price level
  /-- The other side. -/
  opposite : changed.levels side.opposite = matcher.levels side.opposite

section Stores

variable {changed : OptimizedMatcher} {side : Side} {price : Price} {level : Level}

/-- The levels after the change. -/
theorem Stores.level_eq (stores : Stores matcher changed side price level) (otherSide : Side)
    (other : Price) : changed.level otherSide other =
      if otherSide = side ∧ other = price then if level.liveCount = 0 then {} else level
      else matcher.level otherSide other := by
  by_cases same : otherSide = side
  · subst same
    rw [OptimizedMatcher.level, stores.own, ExtTreeMap.getD_eq_getD_getElem?]
    by_cases here : price = other
    · subst here
      by_cases empty : level.liveCount = 0
      · simp [empty]
      · simp [empty]
    · have away : ¬ (otherSide = otherSide ∧ other = price) := fun both => here both.2.symm
      rw [if_neg away, OptimizedMatcher.level, ExtTreeMap.getD_eq_getD_getElem?]
      by_cases empty : level.liveCount = 0
      · simp [empty, here, ExtTreeMap.getElem?_erase]
      · simp [empty, here, ExtTreeMap.getElem?_insert]
  · have across : otherSide = side.opposite := by
      cases side <;> cases otherSide <;> simp_all [Side.opposite]
    rw [if_neg (fun both => same both.1), OptimizedMatcher.level, OptimizedMatcher.level, across,
      stores.opposite]

/-- The slots after the change: dropping a level without live orders clears no slot. -/
theorem Stores.slot_eq (stores : Stores matcher changed side price level)
    (counted : level.Counted) (otherSide : Side) (other : Price) (index : Nat) :
    (changed.level otherSide other).slot index =
      if otherSide = side ∧ other = price then level.slot index
      else (matcher.level otherSide other).slot index := by
  rw [stores.level_eq]
  by_cases here : otherSide = side ∧ other = price
  · rw [if_pos here, if_pos here]
    by_cases empty : level.liveCount = 0
    · rw [if_pos empty, counted.slot_eq_none empty]
      rfl
    · rw [if_neg empty]
  · rw [if_neg here, if_neg here]

/-- The orders after the change. -/
theorem Stores.liveOrders_eq (stores : Stores matcher changed side price level)
    (counted : level.Counted) (pool : FixedObjectPool Order) (otherSide : Side) (other : Price) :
    liveOrders pool (changed.level otherSide other) =
      if otherSide = side ∧ other = price then liveOrders pool level
      else liveOrders pool (matcher.level otherSide other) := by
  rw [stores.level_eq]
  by_cases here : otherSide = side ∧ other = price
  · rw [if_pos here, if_pos here]
    by_cases empty : level.liveCount = 0
    · rw [if_pos empty]
      exact (congrArg (List.filterMap pool.read) (counted.addresses_eq_nil empty)).symm
    · rw [if_neg empty]
  · rw [if_neg here, if_neg here]

/-- The change stores no level without live orders. -/
theorem Stores.stored (stores : Stores matcher changed side price level)
    (holds : Holds matcher book) (otherSide : Side) (other : Price) (stored : Level)
    (lookup : (changed.levels otherSide)[other]? = some stored) : stored.liveCount ≠ 0 := by
  by_cases same : otherSide = side
  · subst same
    rw [stores.own] at lookup
    by_cases empty : level.liveCount = 0
    · rw [if_pos empty, ExtTreeMap.getElem?_erase] at lookup
      split at lookup
      · simp at lookup
      · exact holds.stored _ _ _ lookup
    · rw [if_neg empty, ExtTreeMap.getElem?_insert] at lookup
      split at lookup
      · obtain rfl := Option.some.inj lookup
        exact empty
      · exact holds.stored _ _ _ lookup
  · have across : otherSide = side.opposite := by
      cases side <;> cases otherSide <;> simp_all [Side.opposite]
    rw [across, stores.opposite] at lookup
    exact holds.stored _ _ _ lookup

/-- The changed levels are counted. -/
theorem Stores.counted (stores : Stores matcher changed side price level)
    (holds : Holds matcher book) (own : level.Counted) (otherSide : Side) (other : Price) :
    (changed.level otherSide other).Counted := by
  rw [stores.level_eq]
  split
  · split
    · exact Level.counted_default
    · exact own
  · exact holds.counted otherSide other

end Stores

/-- Reading through two pools that agree on the pointers of a level gives the same orders. -/
theorem liveOrders_congr {pool other : FixedObjectPool Order} {level : Level}
    (agree : ∀ address ∈ level.addresses, pool.read address = other.read address) :
    liveOrders pool level = liveOrders other level :=
  List.filterMap_congr agree

/-- Resting an order that is not in the book. -/
theorem Holds.restOrder (holds : Holds matcher book) (sound : book.Sound) {order : Order}
    (fresh : book.Fresh order.id) : Holds (matcher.restOrder order) (book.rest order) := by
  obtain ⟨validPool, unused, live, kept⟩ := holds.pool.acquire
  let address := matcher.orderPool.acquire.1
  let before := matcher.level order.side order.price
  let after := before.push address
  have pool : (matcher.restOrder order).orderPool =
      (matcher.orderPool.acquire).2.write address (some order) := rfl
  have table : (matcher.restOrder order).orderTable = matcher.orderTable.insert order.id
      { side := order.side, price := order.price, index := before.orders.length } := rfl
  have stores : Stores matcher (matcher.restOrder order) order.side order.price after := by
    constructor
    · have occupied : after.liveCount ≠ 0 := Nat.succ_ne_zero _
      rw [if_neg occupied]
      cases own : order.side <;>
        simp [OptimizedMatcher.restOrder, own, setLevels, levels, after, before, level, address,
          Level.push]
    · cases own : order.side <;>
        simp [OptimizedMatcher.restOrder, own, setLevels, levels, Side.opposite]
  have counted : after.Counted := (holds.counted order.side order.price).push address
  -- an address in use was live, and the acquired one was not
  have apart : ∀ side price index other,
      (matcher.level side price).slot index = some other → other ≠ address := by
    intro side price index other slot equal
    subst equal
    exact unused (holds.referenced side price index _ slot).1
  have reads : ∀ other, other ≠ address →
      (matcher.restOrder order).orderPool.read other = matcher.orderPool.read other := by
    intro other away
    rw [pool, FixedObjectPool.read_write, if_neg away]
    exact kept other away
  have readsLevel : ∀ side price, liveOrders (matcher.restOrder order).orderPool
      (matcher.level side price) = liveOrders matcher.orderPool (matcher.level side price) := by
    intro side price
    apply liveOrders_congr
    intro other member
    obtain ⟨index, slot⟩ := Level.mem_addresses.mp member
    exact reads other (apart side price index other slot)
  have readsAddress : (matcher.restOrder order).orderPool.read address = some order := by
    rw [pool, FixedObjectPool.read_write, if_pos rfl]
  have slots : ∀ index, after.slot index =
      if index = before.orders.length then some address else before.slot index :=
    before.slot_push address
  constructor
  · rw [pool]
    exact validPool.write _ _
  · exact stores.stored holds
  · exact stores.counted holds counted
  · refine Book.forall_side order.side ?_ ?_
    · intro price
      rw [stores.liveOrders_eq counted, Book.rest, Book.side_setSide_same,
        Book.group_arrive (sound.ranked order.side)]
      by_cases here : order.price = price
      · subst here
        rw [if_pos ⟨rfl, rfl⟩, if_pos rfl, ← holds.orders, ← readsLevel]
        change ((before.orders ++ [some address]).filterMap id).filterMap _ = _
        rw [List.filterMap_append, List.filterMap_append]
        simp [readsAddress, liveOrders, before]
      · rw [if_neg here, if_neg (fun both => here both.2.symm), readsLevel]
        exact holds.orders order.side price
    · intro price
      have across : order.side.opposite ≠ order.side := by cases order.side <;> decide
      rw [stores.liveOrders_eq counted, if_neg (fun both => across both.1),
        Book.side_opposite_rest, readsLevel]
      exact holds.orders _ price
  · intro side price index other slot
    have liveOther : other = address ∨ matcher.orderPool.Live other →
        (matcher.restOrder order).orderPool.Live other := by
      rw [pool, FixedObjectPool.live_write, live]
      exact id
    have old : (matcher.level side price).slot index = some other →
        (matcher.restOrder order).orderPool.Live other ∧
        ∃ kept, (matcher.restOrder order).orderPool.read other = some kept ∧
          (matcher.restOrder order).orderTable[kept.id]? =
            some { side := side, price := price, index := index } := by
      intro slotOld
      obtain ⟨wasLive, kept, stored, entry⟩ := holds.referenced side price index other slotOld
      have differs : kept.id ≠ order.id := fresh side kept (holds.mem_of_slot slotOld stored).1
      refine ⟨liveOther (.inr wasLive), kept, ?_, ?_⟩
      · rw [reads other (apart side price index other slotOld)]
        exact stored
      · rw [table, ExtTreeMap.getElem?_insert, if_neg (by simpa using differs.symm)]
        exact entry
    rw [stores.slot_eq counted] at slot
    split at slot
    · rename_i here
      rw [slots] at slot
      split at slot
      · rename_i last
        obtain rfl := Option.some.inj slot
        refine ⟨liveOther (.inl rfl), order, readsAddress, ?_⟩
        rw [table, ExtTreeMap.getElem?_insert_self, here.1, here.2, last]
      · rw [here.1, here.2] at old ⊢
        exact old slot
    · exact old slot
  · intro id reference entry
    rw [table, ExtTreeMap.getElem?_insert] at entry
    split at entry
    · rename_i equal
      obtain rfl := Option.some.inj entry
      refine ⟨address, order, ?_, readsAddress, by simpa using equal⟩
      rw [stores.slot_eq counted, if_pos ⟨rfl, rfl⟩, slots, if_pos rfl]
    · obtain ⟨other, kept, slot, stored, own⟩ := holds.found id reference entry
      refine ⟨other, kept, ?_, ?_, own⟩
      · rw [stores.slot_eq counted]
        split
        · rename_i here
          rw [here.1, here.2] at slot
          rw [slots, if_neg]
          · exact slot
          · intro beyond
            rw [beyond, Level.slot, List.getElem?_eq_none (Nat.le_refl _)] at slot
            simp at slot
        · exact slot
      · rw [reads other (apart _ _ _ other slot)]
        exact stored

/-- A slot other than the one an id refers to holds another pointer, to an order of another id. -/
theorem Holds.slot_away (holds : Holds matcher book) {id : OrderId} {reference : OrderRef}
    {address : Nat} (entry : matcher.orderTable[id]? = some reference)
    (slot : (matcher.level reference.side reference.price).slot reference.index = some address)
    {side : Side} {price : Price} {index other : Nat}
    (differs : ¬ (side = reference.side ∧ price = reference.price ∧ index = reference.index))
    (place : (matcher.level side price).slot index = some other) :
    other ≠ address ∧ ∃ order, matcher.orderPool.read other = some order ∧ order.id ≠ id ∧
      matcher.orderTable[order.id]? =
        some { side := side, price := price, index := index } := by
  obtain ⟨_, order, read, back⟩ := holds.referenced side price index other place
  refine ⟨?_, order, read, ?_, back⟩
  · rintro rfl
    exact differs (holds.slot_unique place slot)
  · intro same
    rw [same, entry] at back
    have equal := Option.some.inj back
    exact differs ⟨(congrArg OrderRef.side equal).symm, (congrArg OrderRef.price equal).symm,
      (congrArg OrderRef.index equal).symm⟩

/-- Nothing of an id is taken out where no pointer leads to an order of it. -/
theorem filter_id_read {pool : FixedObjectPool Order} {addresses : List Nat} {id : OrderId}
    (others : ∀ other ∈ addresses, ∃ order, pool.read other = some order ∧ order.id ≠ id) :
    (addresses.filterMap pool.read).filter (fun order => order.id != id) =
      addresses.filterMap pool.read := by
  rw [List.filter_eq_self]
  intro order member
  obtain ⟨other, listed, read⟩ := List.mem_filterMap.mp member
  obtain ⟨same, sameRead, unlike⟩ := others other listed
  obtain rfl : order = same := Option.some.inj (read.symm.trans sameRead)
  simpa using unlike

/-- Removing an order by its id. -/
theorem Holds.removeOrder (holds : Holds matcher book) (id : OrderId) :
    Holds (matcher.removeOrder id) (book.cancel id) := by
  cases entry : matcher.orderTable[id]? with
  | none =>
    have others : ∀ side, ∀ order ∈ book.side side, order.id ≠ id := by
      intro side order member equal
      have inside := holds.entry_of_mem member
      rw [equal, ExtTreeMap.mem_iff_isSome_getElem?, entry] at inside
      simp at inside
    have same : book.cancel id = book := by
      refine Book.ext_side (fun side => ?_)
      rw [Book.side_cancel, List.filter_eq_self]
      intro order member
      simpa using others side order member
    rw [same, OptimizedMatcher.removeOrder, entry]
    exact holds
  | some reference =>
    obtain ⟨address, target, slot, stored, own⟩ := holds.found id reference entry
    obtain ⟨live, _⟩ := holds.referenced _ _ _ _ slot
    obtain ⟨validPool, released, kept⟩ := holds.pool.release live
    let before := matcher.level reference.side reference.price
    let after := before.bury reference.index
    have pool : (matcher.removeOrder id).orderPool = matcher.orderPool.release (some address) := by
      have pointer : (((matcher.levels reference.side).getD reference.price {}).orders[
        reference.index]?).join = some address := slot
      simp only [OptimizedMatcher.removeOrder, entry, pointer]
    have table : (matcher.removeOrder id).orderTable = matcher.orderTable.erase id := by
      simp [OptimizedMatcher.removeOrder, entry]
    have stores : Stores matcher (matcher.removeOrder id) reference.side reference.price after := by
      constructor
      · cases where_ : reference.side <;>
          simp [OptimizedMatcher.removeOrder, entry, where_, setLevels, levels, after, before,
            level, Level.bury]
      · cases where_ : reference.side <;>
          simp [OptimizedMatcher.removeOrder, entry, where_, setLevels, levels, Side.opposite]
    have counted : after.Counted := (holds.counted reference.side reference.price).bury slot
    have slots : ∀ index, after.slot index =
        if index = reference.index then none else before.slot index :=
      before.slot_bury reference.index
    have away : ∀ side price index other,
        ¬ (side = reference.side ∧ price = reference.price ∧ index = reference.index) →
        (matcher.level side price).slot index = some other →
        other ≠ address ∧ ∃ order, matcher.orderPool.read other = some order ∧ order.id ≠ id ∧
          matcher.orderTable[order.id]? =
            some { side := side, price := price, index := index } :=
      fun side price index other => holds.slot_away entry slot
    have reads : ∀ other, other ≠ address →
        (matcher.removeOrder id).orderPool.read other = matcher.orderPool.read other := by
      intro other apart
      rw [pool]
      exact kept other apart
    constructor
    · rw [pool]
      exact validPool
    · exact stores.stored holds
    · exact stores.counted holds counted
    · intro side price
      rw [stores.liveOrders_eq counted, Book.side_cancel, group_filter, ← holds.orders]
      split
      · rename_i here
        rw [here.1, here.2]
        obtain ⟨front, back, whole, remaining, elsewhere⟩ := Level.split_slot slot
        have parts : ∀ other ∈ front ++ back, other ≠ address ∧
            ∃ order, matcher.orderPool.read other = some order ∧ order.id ≠ id := by
          intro other member
          obtain ⟨place, differs, found⟩ := elsewhere other member
          obtain ⟨apart, order, read, unlike, _⟩ := away reference.side reference.price place other
            (fun all => differs all.2.2) found
          exact ⟨apart, order, read, unlike⟩
        have left : liveOrders (matcher.removeOrder id).orderPool after =
            (front ++ back).filterMap matcher.orderPool.read := by
          change ((before.orders.set reference.index none).filterMap _).filterMap _ = _
          rw [remaining]
          exact List.filterMap_congr (fun other member => reads other (parts other member).1)
        have right : liveOrders matcher.orderPool before =
            front.filterMap matcher.orderPool.read ++
              target :: back.filterMap matcher.orderPool.read := by
          change before.addresses.filterMap _ = _
          rw [whole, List.filterMap_append, List.filterMap_cons_some stored]
        rw [left, right, List.filter_append, List.filter_cons_of_neg (by simp [own]),
          ← List.filter_append, ← List.filterMap_append]
        exact (filter_id_read (fun other member => (parts other member).2)).symm
      · rename_i apart
        have parts : ∀ other ∈ (matcher.level side price).addresses, other ≠ address ∧
            ∃ order, matcher.orderPool.read other = some order ∧ order.id ≠ id := by
          intro other member
          obtain ⟨place, found⟩ := Level.mem_addresses.mp member
          obtain ⟨differs, order, read, unlike, _⟩ := away side price place other
            (fun all => apart ⟨all.1, all.2.1⟩) found
          exact ⟨differs, order, read, unlike⟩
        have same : (liveOrders matcher.orderPool (matcher.level side price)).filter
            (fun order => order.id != id) = liveOrders matcher.orderPool (matcher.level side price) :=
          filter_id_read (fun other member => (parts other member).2)
        rw [same]
        exact liveOrders_congr (fun other member => reads other (parts other member).1)
    · intro side price index other place
      have old : ¬ (side = reference.side ∧ price = reference.price ∧ index = reference.index) ∧
          (matcher.level side price).slot index = some other := by
        rw [stores.slot_eq counted] at place
        split at place
        · rename_i here
          rw [slots] at place
          split at place
          · simp at place
          · rename_i differs
            rw [here.1, here.2]
            exact ⟨fun all => differs all.2.2, place⟩
        · rename_i apart
          exact ⟨fun all => apart ⟨all.1, all.2.1⟩, place⟩
      obtain ⟨apart, order, read, unlike, back⟩ := away side price index other old.1 old.2
      refine ⟨?_, order, ?_, ?_⟩
      · rw [pool, released]
        exact ⟨apart, (holds.referenced _ _ _ _ old.2).1⟩
      · rw [reads other apart]
        exact read
      · rw [table, ExtTreeMap.getElem?_erase, if_neg (by simpa using unlike.symm)]
        exact back
    · intro other place found
      rw [table, ExtTreeMap.getElem?_erase] at found
      split at found
      · simp at found
      · rename_i unlike
        obtain ⟨pointer, order, holder, read, same⟩ := holds.found other place found
        have differs : ¬ (place.side = reference.side ∧ place.price = reference.price ∧
            place.index = reference.index) := by
          rintro ⟨sameSide, samePrice, sameIndex⟩
          rw [sameSide, samePrice, sameIndex, slot] at holder
          obtain rfl := Option.some.inj holder
          obtain rfl : order = target := Option.some.inj (read.symm.trans stored)
          exact unlike (by simpa using own.symm.trans same)
        obtain ⟨apart, _⟩ := away _ _ _ pointer differs holder
        refine ⟨pointer, order, ?_, ?_, same⟩
        · rw [stores.slot_eq counted]
          split
          · rename_i here
            rw [slots, if_neg (fun sameIndex => differs ⟨here.1, here.2, sameIndex⟩)]
            rw [here.1, here.2] at holder
            exact holder
          · exact holder
        · rw [reads pointer apart]
          exact read

/-- The loop of `frontLive` passes over tombstones only, and stops at the first pointer. -/
theorem skipTombstones_spec (rest : List (Option Nat)) (index : Nat) :
    ∃ count, skipTombstones rest index = index + count ∧
      rest.take count = List.replicate count none ∧
      (rest[count]?).join = (rest.filterMap id).head? := by
  induction rest generalizing index with
  | nil => exact ⟨0, rfl, rfl, rfl⟩
  | cons pointer rest ih =>
    cases pointer with
    | some address => exact ⟨0, rfl, rfl, rfl⟩
    | none =>
      obtain ⟨count, stop, passed, found⟩ := ih (index + 1)
      refine ⟨count + 1, ?_, ?_, ?_⟩
      · rw [skipTombstones, stop]
        omega
      · rw [List.take_succ_cons, passed, List.replicate_succ]
      · rw [List.getElem?_cons_succ, found, List.filterMap_cons_none (f := id) rfl]

/-- `frontLive` finds the first pointer of a level, and the level stays counted. -/
theorem frontLive_spec {level : Level} (counted : level.Counted) :
    (frontLive level).1 = level.addresses.head? ∧ (frontLive level).2.Counted := by
  obtain ⟨count, stop, passed, found⟩ :=
    skipTombstones_spec (level.orders.drop level.frontIndex) level.frontIndex
  have behind : (level.orders.drop level.frontIndex).filterMap id = level.addresses := by
    have parts := congrArg (List.filterMap id)
      (List.take_append_drop level.frontIndex level.orders)
    rw [List.filterMap_append, counted.skipped, List.filterMap_replicate_of_none (f := id) rfl]
      at parts
    exact parts
  constructor
  · change (level.orders[skipTombstones _ _]?).join = _
    rw [stop, ← List.getElem?_drop, found, behind]
  · refine ⟨counted.live, ?_⟩
    change level.orders.take (skipTombstones _ _) = List.replicate (skipTombstones _ _) none
    rw [stop, List.take_add, counted.skipped, passed, ← List.replicate_append_replicate]

/-- Storing a level with a new front index changes nothing of the book. -/
theorem Holds.advance (holds : Holds matcher book) {side : Side} {price : Price} {level : Level}
    (lookup : (matcher.levels side)[price]? = some level) {frontIndex : Nat}
    (counted : ({ level with frontIndex := frontIndex } : Level).Counted) :
    Holds (matcher.setLevels side
      ((matcher.levels side).insert price { level with frontIndex := frontIndex })) book := by
  let moved : Level := { level with frontIndex := frontIndex }
  let changed := matcher.setLevels side ((matcher.levels side).insert price moved)
  have current : matcher.level side price = level := by
    rw [OptimizedMatcher.level, ExtTreeMap.getD_eq_getD_getElem?, lookup]
    rfl
  have stores : Stores matcher changed side price moved := by
    constructor
    · rw [if_neg (holds.stored side price level lookup)]
      exact levels_setLevels_self _ _ _
    · exact levels_setLevels_opposite _ _ _
  have slots : ∀ otherSide other index, (changed.level otherSide other).slot index =
      (matcher.level otherSide other).slot index := by
    intro otherSide other index
    rw [stores.slot_eq counted]
    split
    · rename_i here
      rw [here.1, here.2, current]
      rfl
    · rfl
  have pool : changed.orderPool = matcher.orderPool := orderPool_setLevels _ _ _
  have table : changed.orderTable = matcher.orderTable := orderTable_setLevels _ _ _
  change Holds changed book
  constructor
  · rw [pool]
    exact holds.pool
  · exact stores.stored holds
  · exact stores.counted holds counted
  · intro otherSide other
    rw [pool, stores.liveOrders_eq counted, ← holds.orders]
    split
    · rename_i here
      rw [here.1, here.2, current]
      rfl
    · rfl
  · intro otherSide other index address slot
    rw [slots] at slot
    rw [pool, table]
    exact holds.referenced otherSide other index address slot
  · intro id reference entry
    rw [table] at entry
    rw [slots, pool]
    exact holds.found id reference entry

/-- The head of a side is the object of the first pointer of its level. -/
theorem Holds.front (holds : Holds matcher book) {side : Side} {maker : Order}
    {rest : List Order} (orders : book.side side = maker :: rest) :
    ∃ address behind, (matcher.level side maker.price).addresses = address :: behind ∧
      matcher.orderPool.read address = some maker ∧
      behind.filterMap matcher.orderPool.read =
        group (fun order : Order => order.price) rest maker.price := by
  have queue := holds.orders side maker.price
  rw [orders, group_cons_self (fun order : Order => order.price)] at queue
  change (matcher.level side maker.price).addresses.filterMap _ = _ at queue
  cases pointers : (matcher.level side maker.price).addresses with
  | nil => simp [pointers] at queue
  | cons address behind =>
    obtain ⟨order, read⟩ := holds.read_isSome (pointers ▸ List.mem_cons_self)
    rw [pointers, List.filterMap_cons_some read, List.cons.injEq] at queue
    obtain ⟨rfl, tail⟩ := queue
    exact ⟨address, behind, rfl, read, tail⟩

/-- No pointer of a level occurs twice. -/
theorem Holds.addresses_nodup (holds : Holds matcher book) (side : Side) (price : Price)
    {address : Nat} {behind : List Nat}
    (pointers : (matcher.level side price).addresses = address :: behind) : address ∉ behind := by
  intro member
  obtain ⟨index, slot⟩ := Level.mem_addresses.mp (pointers ▸ List.mem_cons_self)
  obtain ⟨front, back, whole, _, elsewhere⟩ := Level.split_slot slot
  have twice : address ∈ front ++ back := by
    rw [pointers] at whole
    cases front with
    | nil => simpa [← (List.cons.injEq _ _ _ _ ▸ whole : _ ∧ _).2] using member
    | cons first rest =>
      have same : first = address := (List.cons.inj whole).1.symm
      exact same ▸ List.mem_cons_self
  obtain ⟨place, differs, found⟩ := elsewhere address twice
  exact differs (holds.slot_unique found slot).2.2

/-- Changing the quantity of the object of the first pointer changes the head of the side. -/
theorem Holds.writeFront (holds : Holds matcher book) {side : Side} {maker : Order}
    {rest : List Order} (orders : book.side side = maker :: rest) {address : Nat}
    {behind : List Nat}
    (pointers : (matcher.level side maker.price).addresses = address :: behind)
    (read : matcher.orderPool.read address = some maker) (quantity : Quantity) :
    Holds { matcher with
        orderPool := matcher.orderPool.write address (some { maker with quantity := quantity }) }
      (book.setSide side ({ maker with quantity := quantity } :: rest)) := by
  let changed : OptimizedMatcher := { matcher with
    orderPool := matcher.orderPool.write address (some { maker with quantity := quantity }) }
  have same : ∀ otherSide price, changed.level otherSide price = matcher.level otherSide price := by
    intro otherSide price
    cases otherSide <;> rfl
  have reads : ∀ other, changed.orderPool.read other =
      if other = address then some { maker with quantity := quantity }
      else matcher.orderPool.read other := FixedObjectPool.read_write _ _ _
  obtain ⟨index, slot⟩ := Level.mem_addresses.mp (pointers ▸ List.mem_cons_self)
  have untouched : ∀ otherSide price, ¬ (otherSide = side ∧ price = maker.price) →
      liveOrders changed.orderPool (matcher.level otherSide price) =
        group (fun order : Order => order.price) (book.side otherSide) price := by
    intro otherSide price apart
    rw [← holds.orders]
    apply liveOrders_congr
    intro other member
    obtain ⟨place, found⟩ := Level.mem_addresses.mp member
    rw [reads, if_neg]
    rintro rfl
    obtain ⟨sameSide, samePrice, _⟩ := holds.slot_unique found slot
    exact apart ⟨sameSide, samePrice⟩
  have queue := holds.orders side maker.price
  rw [orders, group_cons_self (fun order : Order => order.price)] at queue
  change (matcher.level side maker.price).addresses.filterMap _ = _ at queue
  rw [pointers, List.filterMap_cons_some read, List.cons.injEq] at queue
  change Holds changed _
  constructor
  · exact holds.pool.write _ _
  · intro otherSide price level lookup
    exact holds.stored otherSide price level (by cases otherSide <;> exact lookup)
  · intro otherSide price
    rw [same]
    exact holds.counted otherSide price
  · refine Book.forall_side side ?_ ?_
    · intro price
      rw [same, Book.side_setSide_same]
      by_cases here : price = maker.price
      · subst here
        rw [show maker.price = ({ maker with quantity := quantity } : Order).price from rfl,
          group_cons_self (fun order : Order => order.price)]
        change (matcher.level side maker.price).addresses.filterMap _ = _
        rw [pointers, List.filterMap_cons_some (by rw [reads, if_pos rfl]), ← queue.2]
        congr 1
        apply List.filterMap_congr
        intro other member
        rw [reads, if_neg]
        rintro rfl
        exact holds.addresses_nodup side maker.price pointers member
      · rw [untouched side price (fun both => here both.2), orders,
          group_cons_of_ne (fun order : Order => order.price) (Ne.symm here),
          group_cons_of_ne (fun order : Order => order.price)]
        exact Ne.symm here
    · intro price
      have across : side.opposite ≠ side := by cases side <;> decide
      rw [same, Book.side_opposite_setSide]
      exact untouched _ _ (fun both => across both.1)
  · intro otherSide price place other found
    rw [same] at found
    obtain ⟨live, order, stored, entry⟩ := holds.referenced otherSide price place other found
    refine ⟨live, ?_⟩
    rw [reads]
    split
    · rename_i here
      subst here
      obtain rfl : order = maker := Option.some.inj (stored.symm.trans read)
      exact ⟨_, rfl, entry⟩
    · exact ⟨order, stored, entry⟩
  · intro id reference entry
    obtain ⟨other, order, found, stored, own⟩ := holds.found id reference entry
    rw [same]
    by_cases here : other = address
    · subst here
      obtain rfl : order = maker := Option.some.inj (stored.symm.trans read)
      exact ⟨other, { order with quantity := quantity }, found, by rw [reads, if_pos rfl], own⟩
    · exact ⟨other, order, found, by rw [reads, if_neg here]; exact stored, own⟩

/-- The best level of a side without orders is missing. -/
theorem Holds.bestLevel_nil (holds : Holds matcher book) {side : Side}
    (orders : book.side side = []) : bestLevel side (matcher.levels side) = none := by
  have shown := bestLevel_map (liveOrders matcher.orderPool) side (matcher.levels side)
  have grouped := holds.groups side
  rw [orders] at grouped
  rw [show bestLevel side ((matcher.levels side).map
    (fun _ level => liveOrders matcher.orderPool level)) = none from
    Book.bestLevel_of_nil grouped] at shown
  exact Option.map_eq_none_iff.mp shown.symm

/-- The best level of a side with orders is the level of the head of the side. -/
theorem Holds.bestLevel_cons (holds : Holds matcher book) (sound : book.Sound) {side : Side}
    {maker : Order} {rest : List Order} (orders : book.side side = maker :: rest) :
    bestLevel side (matcher.levels side) =
      some (maker.price, matcher.level side maker.price) := by
  have shown := bestLevel_map (liveOrders matcher.orderPool) side (matcher.levels side)
  rw [show bestLevel side ((matcher.levels side).map
    (fun _ level => liveOrders matcher.orderPool level)) = _ from
    sound.bestLevel_of_cons orders (holds.groups side)] at shown
  obtain ⟨⟨price, level⟩, best, equal⟩ := Option.map_eq_some_iff.mp shown.symm
  obtain rfl : price = maker.price := congrArg Prod.fst equal
  rw [best, OptimizedMatcher.level, ExtTreeMap.getD_eq_getD_getElem?, getElem?_of_bestLevel best]
  rfl

/-- Erasing an id that is in the table leaves fewer entries. -/
theorem size_removeOrder_lt {id : OrderId} (inside : id ∈ matcher.orderTable) :
    (matcher.removeOrder id).orderTable.size < matcher.orderTable.size := by
  have entry := inside
  rw [ExtTreeMap.mem_iff_isSome_getElem?, Option.isSome_iff_exists] at entry
  obtain ⟨reference, entry⟩ := entry
  have table : (matcher.removeOrder id).orderTable = matcher.orderTable.erase id := by
    simp [removeOrder, entry]
  have positive : matcher.orderTable.size ≠ 0 := by
    intro empty
    rw [← ExtTreeMap.eq_empty_iff_size_eq_zero] at empty
    simp [empty] at inside
  rw [table, ExtTreeMap.size_erase, if_pos (ExtTreeMap.contains_iff_mem.mpr inside)]
  omega

/-- A pass of the loop of `cross` up to its look at what is left of the resting order: the matcher
with the resting order reduced, and the order as it was. A pass that does not trade has none. -/
def reduceFront (state : CrossState OptimizedMatcher) : Option (OptimizedMatcher × Order) :=
  let side := state.incoming.side.opposite
  let opposite := state.matcher.levels side
  if state.incoming.quantity > 0 then
    match bestLevel side opposite with
    | none => none
    | some (levelPrice, level) =>
      if crosses state.incoming.side state.incoming.price levelPrice then
        let (pointer, level) := frontLive level
        let advanced := state.matcher.setLevels side (opposite.insert levelPrice level)
        pointer.map (fun address =>
          let resting := (advanced.orderPool.read address).getD default
          let left := resting.quantity - min state.incoming.quantity resting.quantity
          ({ advanced with
              orderPool := advanced.orderPool.write address
                (some { resting with quantity := left }) }, resting))
      else none
  else none

/-- A pass that trades removes the resting order when nothing of it is left. -/
theorem crossPass_of_reduceFront {state : CrossState OptimizedMatcher}
    {reduced : OptimizedMatcher} {resting : Order}
    (front : reduceFront state = some (reduced, resting)) :
    let traded := min state.incoming.quantity resting.quantity
    crossPass state = .yield
      { matcher := if resting.quantity - traded = 0 then reduced.removeOrder resting.id
          else reduced
        incoming := { state.incoming with quantity := state.incoming.quantity - traded }
        trades := state.trades ++ [tradeWith state.incoming.id resting traded] } := by
  intro traded
  unfold reduceFront at front
  unfold crossPass
  simp only at front ⊢
  by_cases positive : state.incoming.quantity > 0
  case neg =>
    rw [if_neg positive] at front
    cases front
  rw [if_pos positive] at front ⊢
  cases best : bestLevel state.incoming.side.opposite
      (state.matcher.levels state.incoming.side.opposite) with
  | none =>
    rw [best] at front
    cases front
  | some found =>
    obtain ⟨levelPrice, level⟩ := found
    simp only [best] at front ⊢
    by_cases reach : crosses state.incoming.side state.incoming.price levelPrice = true
    case neg =>
      rw [if_neg reach] at front
      cases front
    rw [if_pos reach] at front ⊢
    obtain ⟨address, pointer, found⟩ := Option.map_eq_some_iff.mp front
    obtain ⟨rfl, rfl⟩ := Prod.mk.inj found
    simp only [pointer]
    rfl

/-- A pass reduces the head of the other side when it is crossed. -/
theorem Holds.reduceFront {state : CrossState OptimizedMatcher}
    (holds : Holds state.matcher book) (sound : book.Sound) {maker : Order} {rest : List Order}
    (positive : state.incoming.quantity ≠ 0)
    (orders : book.side state.incoming.side.opposite = maker :: rest)
    (reach : crosses state.incoming.side state.incoming.price maker.price = true) :
    let left := maker.quantity - min state.incoming.quantity maker.quantity
    ∃ reduced, OptimizedMatcher.reduceFront state = some (reduced, maker) ∧
      Holds reduced (book.setSide state.incoming.side.opposite
        ({ maker with quantity := left } :: rest)) ∧
      reduced.orderTable = state.matcher.orderTable ∧
      ∃ address object, reduced.orderPool = state.matcher.orderPool.write address object := by
  intro left
  let side := state.incoming.side.opposite
  let current := state.matcher.level side maker.price
  have best := holds.bestLevel_cons sound orders
  obtain ⟨address, behind, pointers, read, _⟩ := holds.front orders
  obtain ⟨pointer, counted⟩ := frontLive_spec (holds.counted side maker.price)
  have found : (frontLive current).1 = some address := by
    rw [pointer, pointers]
    rfl
  let advanced := state.matcher.setLevels side
    ((state.matcher.levels side).insert maker.price (frontLive current).2)
  have lookup : (state.matcher.levels side)[maker.price]? = some current :=
    getElem?_of_bestLevel best
  have heldAdvanced : Holds advanced book := holds.advance lookup counted
  have levelAdvanced : advanced.level side maker.price = (frontLive current).2 := by
    rw [level, levels_setLevels_self, ExtTreeMap.getD_insert_self]
  have pool : advanced.orderPool = state.matcher.orderPool := orderPool_setLevels _ _ _
  have readAdvanced : advanced.orderPool.read address = some maker := by
    rw [pool]
    exact read
  have pointersAdvanced : (advanced.level side maker.price).addresses = address :: behind := by
    rw [levelAdvanced]
    exact pointers
  let reduced : OptimizedMatcher := { advanced with
    orderPool := advanced.orderPool.write address (some { maker with quantity := left }) }
  refine ⟨reduced, ?_, ?_, ?_, address, some { maker with quantity := left }, ?_⟩
  · have guard : state.incoming.quantity > 0 := by grind
    have stored : (advanced.orderPool.read address).getD default = maker := by
      rw [readAdvanced]
      rfl
    simp only [OptimizedMatcher.reduceFront, guard, ↓reduceIte, best, reach]
    rw [show (frontLive (state.matcher.level state.incoming.side.opposite maker.price)).1 =
      some address from found]
    simp only [Option.map_some]
    rw [show ((state.matcher.setLevels state.incoming.side.opposite _).orderPool.read
      address).getD default = maker from stored]
  · exact heldAdvanced.writeFront orders pointersAdvanced readAdvanced _
  · exact orderTable_setLevels _ _ _
  · change advanced.orderPool.write address _ = _
    rw [pool]

/-- A pass of the loop of `cross` trades with the head of the other side. -/
theorem crossPass_spec :
    CrossPass Holds (fun matcher => matcher.orderTable.size) crossPass where
  filled state zero := by
    simp [crossPass, zero]
  bare state book holds sound orders := by
    simp [crossPass, holds.bestLevel_nil orders]
  beyond state book maker rest holds sound orders reach := by
    simp [crossPass, holds.bestLevel_cons sound orders, reach]
  trade state book maker rest holds sound positive orders reach := by
    let traded := min state.incoming.quantity maker.quantity
    obtain ⟨reduced, front, held, table, _⟩ :=
      holds.reduceFront sound positive orders reach
    have entry := holds.entry_of_mem (orders ▸ List.mem_cons_self :
      maker ∈ book.side state.incoming.side.opposite)
    refine ⟨_, crossPass_of_reduceFront front, ?_, ?_, ?_⟩
    · unfold Book.fillHead afterFill
      split
      · rw [← sound.cancel_head orders (rfl : ({ maker with
          quantity := maker.quantity - traded } : Order).id = maker.id)]
        exact held.removeOrder maker.id
      · exact held
    · have nonempty : state.matcher.orderTable.size ≠ 0 := by
        intro empty
        rw [← ExtTreeMap.eq_empty_iff_size_eq_zero] at empty
        simp [empty] at entry
      omega
    · intro fits
      have least : traded = maker.quantity := by
        simp only [traded, UInt64.min_def]
        grind
      have spent : maker.quantity - traded = 0 := by rw [least, UInt64.sub_self]
      rw [if_pos spent, ← table]
      exact size_removeOrder_lt (table ▸ entry)

/-- `matchOrder` trades and rests as in the book. -/
theorem Holds.matchOrder (holds : Holds matcher book) (sound : book.Sound) {order : Order}
    (fresh : book.Fresh order.id) :
    (matcher.matchOrder order).1 = (book.submit order).1 ∧
      Holds (matcher.matchOrder order).2 (book.submit order).2 :=
  crossPass_spec.submit (fun _ _ _ held good unused => held.restOrder good unused) holds sound
    fresh

/-- The best price of a side is that of the head of the side. -/
theorem Holds.bestLevel_eq (holds : Holds matcher book) (sound : book.Sound) (side : Side) :
    (bestLevel side (matcher.levels side)).map Prod.fst =
      (book.side side).head?.map (fun order => order.price) := by
  cases orders : book.side side with
  | nil => rw [holds.bestLevel_nil orders]; rfl
  | cons maker rest => rw [holds.bestLevel_cons sound orders]; rfl

instance : LawfulMatcher OptimizedMatcher where
  Represents := Holds
  groups holds := holds.groups
  addOrder_spec _ holds sound fresh := (holds.matchOrder sound fresh).2
  matchOrder_spec _ holds sound fresh := holds.matchOrder sound fresh
  cancelOrder_spec id holds _ := holds.removeOrder id
  bestBid_spec {matcher book} holds sound := by
    have best := holds.bestLevel_eq sound .buy
    change matcher.bestBid = _
    rw [bestBid, Book.bestBid]
    change (bestLevel .buy matcher.bids).map Prod.fst = book.bids.head?.map _ at best
    rw [← best]
    cases bestLevel .buy matcher.bids <;> rfl
  bestAsk_spec {matcher book} holds sound := by
    have best := holds.bestLevel_eq sound .sell
    change matcher.bestAsk = _
    rw [bestAsk, Book.bestAsk]
    change (bestLevel .sell matcher.asks).map Prod.fst = book.asks.head?.map _ at best
    rw [← best]
    cases bestLevel .sell matcher.asks <;> rfl
  bidDepth_spec holds _ maxLevels := Book.depth_of_groups (holds.groups .buy) maxLevels
  askDepth_spec holds _ maxLevels := Book.depth_of_groups (holds.groups .sell) maxLevels

end OptimizedMatcher

end Titan
