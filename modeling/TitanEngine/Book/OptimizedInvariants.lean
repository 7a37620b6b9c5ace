import TitanEngine.Book.Parity
import TitanEngine.Core.PoolRuns

/-!
# The representation of the optimized matcher

That an order rests is recorded four times: by the slot that points to it, by the live count of
its level, by its entry of the order table and by the live flag of its object in the pool. In
every state that calls can reach the four agree, so no object leaks and none is used twice.
Every pass of the crossing loop then finds a live order in the level it looks at, and every
removal finds the level and the slot that the table names.
-/

namespace Titan

open Library Std

namespace OptimizedMatcher

variable {matcher : OptimizedMatcher} {book : Book}

/-- The representation invariant. -/
structure WellFormed (matcher : OptimizedMatcher) : Prop where
  /-- A level has live orders, and counts its pointers that are not null. -/
  occupied : ∀ (side : Side) (price : Price) (level : Level),
    (matcher.levels side)[price]? = some level →
    0 < level.liveCount ∧ level.liveCount = level.orders.countP Option.isSome
  /-- Every slot before the front index is null. -/
  skipped : ∀ (side : Side) (price : Price) (level : Level),
    (matcher.levels side)[price]? = some level →
    ∀ index < level.frontIndex, level.orders[index]? = some none
  /-- An entry of the table names a slot that holds an order with its id, side and price. -/
  located : ∀ id reference, matcher.orderTable[id]? = some reference →
    ∃ address order,
      (matcher.level reference.side reference.price).slot reference.index = some address ∧
      matcher.orderPool.read address = some order ∧
      order.id = id ∧ order.side = reference.side ∧ order.price = reference.price
  /-- No other slot holds an order with that id: each slot is the one its order's entry names. -/
  unique : ∀ side price index address,
    (matcher.level side price).slot index = some address →
    ∃ order, matcher.orderPool.read address = some order ∧
      matcher.orderTable[order.id]? = some { side := side, price := price, index := index }
  /-- The objects that slots hold are live. -/
  live : ∀ side price index address,
    (matcher.level side price).slot index = some address → matcher.orderPool.Live address
  /-- Distinct slots hold distinct objects. -/
  apart : ∀ side price index address otherSide otherPrice otherIndex,
    (matcher.level side price).slot index = some address →
    (matcher.level otherSide otherPrice).slot otherIndex = some address →
    side = otherSide ∧ price = otherPrice ∧ index = otherIndex
  /-- There are as many live objects as entries of the table. -/
  balanced : matcher.orderPool.liveSlots.length = matcher.orderTable.size
  /-- Every live object is held by a slot. -/
  held : ∀ address, matcher.orderPool.Live address →
    ∃ side price index, (matcher.level side price).slot index = some address

/-- Whatever `removeOrder` looks up for an id in the table is there: the level, and in its vector
a pointer to a live object. -/
def Removable (matcher : OptimizedMatcher) (id : OrderId) : Prop :=
  ∀ reference, matcher.orderTable[id]? = some reference →
    ∃ (level : Level) (address : Nat),
      (matcher.levels reference.side)[reference.price]? = some level ∧
      level.orders[reference.index]? = some (some address) ∧
      matcher.orderPool.Live address ∧ 0 < level.liveCount

/-- What a pass of `cross` relies on. -/
structure PassSafe (state : CrossState OptimizedMatcher) : Prop where
  /-- A level that is crossed has a live order, so the branch that erases it is not taken. -/
  front : ∀ levelPrice level, state.incoming.quantity > 0 →
    bestLevel state.incoming.side.opposite
      (state.matcher.levels state.incoming.side.opposite) = some (levelPrice, level) →
    crosses state.incoming.side state.incoming.price levelPrice = true →
    ∃ address order, (frontLive level).1 = some address ∧
      state.matcher.orderPool.Live address ∧ state.matcher.orderPool.read address = some order
  /-- The order that it trades with can be removed. -/
  removal : ∀ reduced resting, reduceFront state = some (reduced, resting) →
    resting.id ∈ reduced.orderTable ∧ reduced.Removable resting.id

/-- The loop of `cross` ends, and every pass that it comes to is safe. -/
structure CrossesSafely (matcher : OptimizedMatcher) (order : Order) : Prop where
  /-- The loop ends with what `cross` returns. -/
  ends : Ends crossPass { matcher := matcher, incoming := order, trades := [] }
    (matcher.cross order)
  /-- Every pass is safe. -/
  passes : ∀ state,
    Reaches crossPass { matcher := matcher, incoming := order, trades := [] } state →
    PassSafe state

/-- No lookup of a call fails. -/
def Unfailing (matcher : OptimizedMatcher) : MatcherCall → Prop
  | .addOrder order => matcher.CrossesSafely order
  | .matchOrder order => matcher.CrossesSafely order
  | .cancelOrder id => matcher.Removable id

section Lookups

/-- Where a slot holds a pointer, its level is stored and the index is inside its vector. -/
theorem stored_of_slot {side : Side} {price : Price} {index address : Nat}
    (slot : (matcher.level side price).slot index = some address) :
    ∃ level : Level, (matcher.levels side)[price]? = some level ∧
      level.orders[index]? = some (some address) := by
  rw [level, ExtTreeMap.getD_eq_getD_getElem?] at slot
  cases stored : (matcher.levels side)[price]? with
  | none => simp [stored, Level.slot] at slot
  | some level =>
    rw [stored] at slot
    exact ⟨level, rfl, Option.join_eq_some_iff.mp slot⟩

/-- A stored level is the level at its price. -/
theorem level_of_stored {side : Side} {price : Price} {level : Level}
    (stored : (matcher.levels side)[price]? = some level) : matcher.level side price = level := by
  rw [OptimizedMatcher.level, ExtTreeMap.getD_eq_getD_getElem?, stored]
  rfl

/-- Whatever a removal looks up is there. -/
theorem Holds.removable (holds : Holds matcher book) (id : OrderId) : matcher.Removable id := by
  intro reference entry
  obtain ⟨address, order, slot, _, _⟩ := holds.found id reference entry
  obtain ⟨level, stored, inside⟩ := stored_of_slot slot
  have positive := holds.stored _ _ _ stored
  exact ⟨level, address, stored, inside, (holds.referenced _ _ _ _ slot).1, by omega⟩

/-- A crossed level has a live order in front. -/
theorem Holds.frontLive_isLive (holds : Holds matcher book) (sound : book.Sound) {side : Side}
    {levelPrice : Price} {level : Level}
    (best : bestLevel side (matcher.levels side) = some (levelPrice, level)) :
    ∃ address order, (frontLive level).1 = some address ∧ matcher.orderPool.Live address ∧
      matcher.orderPool.read address = some order := by
  cases orders : book.side side with
  | nil =>
    rw [holds.bestLevel_nil orders] at best
    cases best
  | cons maker rest =>
    rw [holds.bestLevel_cons sound orders, Option.some.injEq, Prod.mk.injEq] at best
    obtain ⟨rfl, rfl⟩ := best
    obtain ⟨address, behind, pointers, read, _⟩ := holds.front orders
    obtain ⟨pointer, _⟩ := frontLive_spec (holds.counted side maker.price)
    obtain ⟨index, slot⟩ := Level.mem_addresses.mp (pointers ▸ List.mem_cons_self)
    refine ⟨address, maker, ?_, (holds.referenced _ _ _ _ slot).1, read⟩
    rw [pointer, pointers]
    rfl

/-- A pass that trades has an order left to fill and crosses the best level. -/
theorem crossed_of_reduceFront {state : CrossState OptimizedMatcher}
    {reduced : OptimizedMatcher} {resting : Order}
    (front : reduceFront state = some (reduced, resting)) :
    state.incoming.quantity ≠ 0 ∧ ∃ levelPrice level,
      bestLevel state.incoming.side.opposite
        (state.matcher.levels state.incoming.side.opposite) = some (levelPrice, level) ∧
      crosses state.incoming.side state.incoming.price levelPrice = true := by
  unfold reduceFront at front
  simp only at front
  split at front
  case isFalse => cases front
  rename_i positive
  split at front
  case h_1 => cases front
  rename_i _ levelPrice level best
  split at front
  case isFalse => cases front
  rename_i reach
  refine ⟨?_, levelPrice, level, best, reach⟩
  intro zero
  rw [zero] at positive
  exact absurd positive (by decide)

/-- Every pass from a matcher that stands for a sound book is safe. -/
theorem Holds.passSafe {state : CrossState OptimizedMatcher}
    (holds : Holds state.matcher book) (sound : book.Sound) : PassSafe state := by
  constructor
  · intro levelPrice level _ best _
    exact holds.frontLive_isLive sound best
  · intro reduced resting front
    obtain ⟨positive, levelPrice, level, best, reach⟩ := crossed_of_reduceFront front
    cases orders : book.side state.incoming.side.opposite with
    | nil =>
      rw [holds.bestLevel_nil orders] at best
      cases best
    | cons maker rest =>
      rw [holds.bestLevel_cons sound orders, Option.some.injEq, Prod.mk.injEq] at best
      obtain ⟨rfl, _⟩ := best
      obtain ⟨other, found, held, table, _⟩ := holds.reduceFront sound positive orders reach
      obtain ⟨rfl, rfl⟩ := Prod.mk.inj (Option.some.inj (front.symm.trans found))
      refine ⟨?_, held.removable _⟩
      rw [table]
      exact holds.entry_of_mem (orders ▸ List.mem_cons_self)

/-- Crossing a matcher that stands for a sound book is safe. -/
theorem Holds.crossesSafely (holds : Holds matcher book) (sound : book.Sound) (order : Order) :
    matcher.CrossesSafely order := by
  constructor
  · exact crossPass_spec.ends holds sound order _ (Nat.lt_succ_self _)
  · intro state reaches
    obtain ⟨between, held, good⟩ := crossPass_spec.reaches holds sound reaches
    exact held.passSafe good

/-- No call fails on a matcher that stands for a sound book. -/
theorem Holds.unfailing (holds : Holds matcher book) (sound : book.Sound) (call : MatcherCall) :
    matcher.Unfailing call := by
  cases call with
  | addOrder order => exact holds.crossesSafely sound order
  | matchOrder order => exact holds.crossesSafely sound order
  | cancelOrder id => exact holds.removable id

end Lookups

section Balance

/-- There are as many live objects as entries of the table. -/
def Balanced (matcher : OptimizedMatcher) : Prop :=
  matcher.orderPool.liveSlots.length = matcher.orderTable.size

/-- The invariant of a run: the matcher stands for the book and is balanced. -/
def Kept (matcher : OptimizedMatcher) (book : Book) : Prop :=
  Holds matcher book ∧ matcher.Balanced

theorem kept_init (allocator : SlabAllocator) : Kept (init allocator) Book.empty :=
  ⟨holds_init allocator, rfl⟩

/-- An id that is fresh to the book has no entry. -/
theorem Holds.not_mem_of_fresh (holds : Holds matcher book) {id : OrderId}
    (fresh : book.Fresh id) : id ∉ matcher.orderTable := by
  intro inside
  rw [ExtTreeMap.mem_iff_isSome_getElem?, Option.isSome_iff_exists] at inside
  obtain ⟨reference, entry⟩ := inside
  obtain ⟨address, order, slot, read, own⟩ := holds.found id reference entry
  exact fresh _ order (holds.mem_of_slot slot read).1 own

/-- A new order takes one object and one entry. -/
theorem Kept.restOrder (kept : Kept matcher book) (sound : book.Sound) {order : Order}
    (fresh : book.Fresh order.id) : Kept (matcher.restOrder order) (book.rest order) := by
  obtain ⟨holds, balanced⟩ := kept
  refine ⟨holds.restOrder sound fresh, ?_⟩
  have entered : (matcher.restOrder order).orderTable.size = matcher.orderTable.size + 1 := by
    change (matcher.orderTable.insert order.id _).size = _
    rw [ExtTreeMap.size_insert, if_neg]
    exact fun inside => holds.not_mem_of_fresh fresh (ExtTreeMap.contains_iff_mem.mp inside)
  have taken : (matcher.restOrder order).orderPool.liveSlots.length =
      matcher.orderPool.liveSlots.length + 1 := holds.pool.length_liveSlots_acquire
  rw [Balanced, taken, entered, balanced]

/-- A removal gives back the object of the entry it erases. -/
theorem Kept.removeOrder (kept : Kept matcher book) (id : OrderId) :
    Kept (matcher.removeOrder id) (book.cancel id) := by
  obtain ⟨holds, balanced⟩ := kept
  refine ⟨holds.removeOrder id, ?_⟩
  cases entry : matcher.orderTable[id]? with
  | none =>
    rw [OptimizedMatcher.removeOrder, entry]
    exact balanced
  | some reference =>
    obtain ⟨address, _, slot, _, _⟩ := holds.found id reference entry
    obtain ⟨live, _⟩ := holds.referenced _ _ _ _ slot
    have pointer : (((matcher.levels reference.side).getD reference.price {}).orders[
      reference.index]?).join = some address := slot
    have pool : (matcher.removeOrder id).orderPool = matcher.orderPool.release (some address) := by
      simp only [OptimizedMatcher.removeOrder, entry, pointer]
    have table : (matcher.removeOrder id).orderTable = matcher.orderTable.erase id := by
      simp [OptimizedMatcher.removeOrder, entry]
    have inside : id ∈ matcher.orderTable := by
      rw [ExtTreeMap.mem_iff_isSome_getElem?, entry]
      rfl
    have left := holds.pool.length_liveSlots_release live
    rw [Balanced] at balanced ⊢
    rw [pool, table, ExtTreeMap.size_erase, if_pos (ExtTreeMap.contains_iff_mem.mpr inside)]
    omega

/-- A pass of `cross` keeps the invariant. -/
theorem crossPass_kept :
    CrossPass Kept (fun matcher => matcher.orderTable.size) crossPass where
  filled := crossPass_spec.filled
  bare state book kept := crossPass_spec.bare state book kept.1
  beyond state book maker rest kept := crossPass_spec.beyond state book maker rest kept.1
  trade state book maker rest kept sound positive orders reach := by
    obtain ⟨next, yields, held, nonempty, smaller⟩ :=
      crossPass_spec.trade state book maker rest kept.1 sound positive orders reach
    obtain ⟨reduced, front, heldReduced, table, address, object, pool⟩ :=
      kept.1.reduceFront sound positive orders reach
    refine ⟨next, yields, ⟨held, ?_⟩, nonempty, smaller⟩
    -- writing an object changes no flag, and the table is as it was
    have balanced : reduced.Balanced := by
      rw [Balanced, table, pool]
      exact kept.2
    have traded := crossPass_of_reduceFront front
    rw [yields, ForInStep.yield.injEq] at traded
    rw [show next = _ from congrArg CrossState.matcher traded]
    split
    · exact (Kept.removeOrder ⟨heldReduced, balanced⟩ maker.id).2
    · exact balanced

/-- Entering a new id keeps the invariant. -/
theorem Kept.matchOrder (kept : Kept matcher book) (sound : book.Sound) {order : Order}
    (fresh : book.Fresh order.id) : Kept (matcher.matchOrder order).2 (book.submit order).2 :=
  (crossPass_kept.submit (fun _ _ _ kept good unused => kept.restOrder good unused) kept sound
    fresh).2

/-- Every call that enters no resting id keeps the invariant. -/
theorem Kept.callMatcher (kept : Kept matcher book) (sound : book.Sound) {call : MatcherCall}
    (enters : EntersNewId matcher call) :
    ∃ next : Book, Kept (callMatcher matcher call).2 next ∧ next.Sound := by
  cases call with
  | addOrder order =>
    have fresh := fresh_of_not_resting (M := OptimizedMatcher) kept.1 sound enters
    exact ⟨(book.submit order).2, kept.matchOrder sound fresh, sound.submit fresh⟩
  | matchOrder order =>
    have fresh := fresh_of_not_resting (M := OptimizedMatcher) kept.1 sound enters
    exact ⟨(book.submit order).2, kept.matchOrder sound fresh, sound.submit fresh⟩
  | cancelOrder id => exact ⟨book.cancel id, kept.removeOrder id, sound.cancel id⟩

/-- Every run that enters no resting id keeps the invariant. -/
theorem kept_run (allocator : SlabAllocator) {calls : List MatcherCall}
    (enters : Admissible EntersNewId Titan.callMatcher (init allocator) calls) :
    ∃ book, Kept (run Titan.callMatcher (init allocator) calls).2 book ∧ book.Sound := by
  refine run_invariant (fun matcher => ∃ book, Kept matcher book ∧ book.Sound) ?_
    ⟨Book.empty, kept_init allocator, Book.sound_empty⟩ enters
  rintro matcher call ⟨book, kept, sound⟩ admitted
  exact kept.callMatcher sound admitted

/-- The addresses that the entries of the table lead to. -/
def entryAddresses (matcher : OptimizedMatcher) : List Nat :=
  matcher.orderTable.toList.map (fun entry =>
    ((matcher.level entry.2.side entry.2.price).slot entry.2.index).getD 0)

/-- The entries of the table lead to different objects. -/
theorem Holds.nodup_entryAddresses (holds : Holds matcher book) :
    matcher.entryAddresses.Nodup := by
  have entries : matcher.orderTable.toList.Nodup := by
    refine ExtTreeMap.distinct_keys_toList.imp ?_
    rintro left right apart rfl
    exact apart ReflCmp.compare_self
  refine List.Nodup.map_on ?_ entries
  rintro ⟨left, first⟩ inLeft ⟨right, second⟩ inRight same
  rw [ExtTreeMap.mem_toList_iff_getElem?_eq_some] at inLeft inRight
  obtain ⟨address, order, slot, read, own⟩ := holds.found left first inLeft
  obtain ⟨other, otherOrder, otherSlot, otherRead, otherOwn⟩ := holds.found right second inRight
  simp only [slot, otherSlot, Option.getD_some] at same
  subst same
  obtain rfl : order = otherOrder := Option.some.inj (read.symm.trans otherRead)
  obtain rfl : left = right := own.symm.trans otherOwn
  rw [Option.some.inj (inLeft.symm.trans inRight)]

/-- They are live. -/
theorem Holds.entryAddresses_subset (holds : Holds matcher book) :
    matcher.entryAddresses ⊆ matcher.orderPool.liveSlots := by
  intro address listed
  obtain ⟨⟨id, reference⟩, inside, rfl⟩ := List.mem_map.mp listed
  rw [ExtTreeMap.mem_toList_iff_getElem?_eq_some] at inside
  obtain ⟨address, _, slot, _, _⟩ := holds.found id reference inside
  rw [slot, Option.getD_some, holds.pool.laid.mem_liveSlots]
  exact (holds.referenced _ _ _ _ slot).1

/-- As many different live objects as there are live objects are all of them, so no object is
live without a slot. -/
theorem Kept.held (kept : Kept matcher book) {address : Nat}
    (live : matcher.orderPool.Live address) :
    ∃ side price index, (matcher.level side price).slot index = some address := by
  obtain ⟨holds, balanced⟩ := kept
  have count : matcher.entryAddresses.length = matcher.orderPool.liveSlots.length := by
    rw [entryAddresses, List.length_map, ExtTreeMap.length_toList, balanced]
  have all : matcher.entryAddresses.Perm matcher.orderPool.liveSlots :=
    (List.subperm_of_subset holds.nodup_entryAddresses
      holds.entryAddresses_subset).perm_of_length_le count.symm.le
  have listed := all.mem_iff.mpr (holds.pool.laid.mem_liveSlots.mpr live)
  obtain ⟨⟨id, reference⟩, inside, same⟩ := List.mem_map.mp listed
  rw [ExtTreeMap.mem_toList_iff_getElem?_eq_some] at inside
  obtain ⟨other, _, slot, _, _⟩ := holds.found id reference inside
  rw [slot, Option.getD_some] at same
  exact ⟨_, _, _, same ▸ slot⟩

/-- A matcher that keeps the invariant is well formed. -/
theorem Kept.wellFormed (kept : Kept matcher book) (sound : book.Sound) :
    matcher.WellFormed := by
  obtain ⟨holds, balanced⟩ := kept
  constructor
  · intro side price level stored
    have counted := holds.counted side price
    rw [level_of_stored stored] at counted
    exact ⟨Nat.pos_of_ne_zero (holds.stored side price level stored), counted.liveCount_eq⟩
  · intro side price level stored index before
    have counted := holds.counted side price
    rw [level_of_stored stored] at counted
    rw [← List.getElem?_take_of_lt before, counted.skipped, List.getElem?_replicate_of_lt before]
  · intro id reference entry
    obtain ⟨address, order, slot, read, own⟩ := holds.found id reference entry
    obtain ⟨member, price⟩ := holds.mem_of_slot slot read
    exact ⟨address, order, slot, read, own, sound.sided _ order member, price⟩
  · intro side price index address slot
    exact (holds.referenced side price index address slot).2
  · intro side price index address slot
    exact (holds.referenced side price index address slot).1
  · intro side price index address otherSide otherPrice otherIndex first second
    exact holds.slot_unique first second
  · exact balanced
  · intro address live
    exact Kept.held ⟨holds, balanced⟩ live

end Balance

end OptimizedMatcher

/-- The optimized matcher is well formed after every run that enters no resting id, and no call of
such a run fails: its crossing loop ends, never meets a level without a live order, and removes
only what it finds. -/
theorem optimized_well_formed (allocator : SlabAllocator) (calls : List MatcherCall)
    (enters : Admissible EntersNewId callMatcher (OptimizedMatcher.init allocator) calls) :
    (run callMatcher (OptimizedMatcher.init allocator) calls).2.WellFormed ∧
      Admissible OptimizedMatcher.Unfailing callMatcher (OptimizedMatcher.init allocator)
        calls := by
  constructor
  · obtain ⟨book, kept, sound⟩ := OptimizedMatcher.kept_run allocator enters
    exact kept.wellFormed sound
  · let Inv : OptimizedMatcher → Prop := fun matcher =>
      ∃ book, OptimizedMatcher.Kept matcher book ∧ book.Sound
    have kept : ∀ matcher call, Inv matcher → EntersNewId matcher call →
        Inv (callMatcher matcher call).2 := by
      rintro matcher call ⟨book, held, sound⟩ admitted
      exact held.callMatcher sound admitted
    have unfailing : ∀ matcher call, Inv matcher → EntersNewId matcher call →
        (EntersNewId matcher call ↔ matcher.Unfailing call) := by
      rintro matcher call ⟨book, held, sound⟩ admitted
      exact iff_of_true admitted (held.1.unfailing sound call)
    exact (admissible_congr Inv kept unfailing
      ⟨Book.empty, OptimizedMatcher.kept_init allocator, Book.sound_empty⟩ enters).mp enters

/-- Four orders at one price: the third is cancelled, the first is filled and the last is cancelled,
so that the second stands alone between tombstones; its pool has slabs of two slots. -/
theorem optimized_well_formed_tombstones :
    let allocator := SlabAllocator.consecutive 2 Nat.two_pos
    let calls : List MatcherCall :=
      [.addOrder { id := 1, side := .sell, price := 10, quantity := 5 },
        .addOrder { id := 2, side := .sell, price := 10, quantity := 5 },
        .addOrder { id := 3, side := .sell, price := 10, quantity := 5 },
        .addOrder { id := 4, side := .sell, price := 10, quantity := 5 },
        .cancelOrder 3, .matchOrder { id := 5, side := .buy, price := 10, quantity := 6 },
        .cancelOrder 4]
    (run callMatcher (OptimizedMatcher.init allocator) calls).2.WellFormed ∧
      Admissible OptimizedMatcher.Unfailing callMatcher (OptimizedMatcher.init allocator)
        calls :=
  optimized_well_formed _ _ (by decide)

end Titan
