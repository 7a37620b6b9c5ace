import TitanEngine.Book.OptimizedInvariants
import TitanEngine.Core.PoolGrowth

/-!
# The memory of the optimized matcher

A matcher holds one object of its pool for each order that rests. Crossing gives objects back before
the remainder takes one, so the pool grows with the greatest number of orders that rested at once,
and with nothing else.
-/

namespace Titan

open Library Std

/-- The orders that rest in a matcher. -/
def restingCount {M : Type} [RestingLevels M] (matcher : M) : Nat :=
  (resting matcher .buy).length + (resting matcher .sell).length

namespace OptimizedMatcher

variable {matcher : OptimizedMatcher} {book : Book} {allocator : SlabAllocator} {peak : Nat}

/-- The table has an entry for each order of the book. -/
theorem Holds.size_orderTable (holds : Holds matcher book) (sound : book.Sound) :
    matcher.orderTable.size = book.bids.length + book.asks.length := by
  have distinct : ((book.bids ++ book.asks).map Order.id).Nodup := by
    rw [List.map_append, List.nodup_append]
    refine ⟨sound.distinct .buy, sound.distinct .sell, ?_⟩
    intro left inBids right inAsks
    obtain ⟨bid, bidRests, rfl⟩ := List.mem_map.mp inBids
    obtain ⟨ask, askRests, rfl⟩ := List.mem_map.mp inAsks
    exact sound.apart bid bidRests ask askRests
  have keys : matcher.orderTable.keys.Nodup := by
    refine ExtTreeMap.distinct_keys.imp ?_
    rintro left right apart rfl
    exact apart ReflCmp.compare_self
  have same : matcher.orderTable.keys.Perm ((book.bids ++ book.asks).map Order.id) := by
    rw [List.perm_ext_iff_of_nodup keys distinct]
    intro id
    rw [ExtTreeMap.mem_keys, List.mem_map]
    constructor
    · intro inside
      rw [ExtTreeMap.mem_iff_isSome_getElem?, Option.isSome_iff_exists] at inside
      obtain ⟨reference, entry⟩ := inside
      obtain ⟨address, order, slot, read, own⟩ := holds.found id reference entry
      have rests := (holds.mem_of_slot slot read).1
      refine ⟨order, List.mem_append.mpr ?_, own⟩
      cases side : reference.side with
      | buy =>
        rw [side] at rests
        exact .inl rests
      | sell =>
        rw [side] at rests
        exact .inr rests
    · rintro ⟨order, rests, rfl⟩
      rcases List.mem_append.mp rests with bid | ask
      · exact holds.entry_of_mem (show order ∈ book.side .buy from bid)
      · exact holds.entry_of_mem (show order ∈ book.side .sell from ask)
  rw [← ExtTreeMap.length_keys, same.length_eq, List.length_map, List.length_append]

/-- A live object stands for each order that rests. -/
theorem Kept.liveCount_eq (kept : Kept matcher book) (sound : book.Sound) :
    matcher.orderPool.liveCount = restingCount matcher := by
  have bids := resting_eq (M := OptimizedMatcher) kept.1 sound .buy
  have asks := resting_eq (M := OptimizedMatcher) kept.1 sound .sell
  rw [restingCount, bids, asks]
  exact kept.2.trans (kept.1.size_orderTable sound)

/-- A removal releases one pointer, or leaves the pool alone. -/
theorem orderPool_removeOrder (matcher : OptimizedMatcher) (id : OrderId) :
    (matcher.removeOrder id).orderPool = matcher.orderPool ∨
      ∃ pointer, (matcher.removeOrder id).orderPool = matcher.orderPool.release pointer := by
  cases entry : matcher.orderTable[id]? with
  | none =>
    rw [OptimizedMatcher.removeOrder, entry]
    exact .inl rfl
  | some reference =>
    refine .inr ⟨(((matcher.levels reference.side).getD reference.price {}).orders[
      reference.index]?).join, ?_⟩
    simp only [OptimizedMatcher.removeOrder, entry]

/-- A removal needs no slab. -/
theorem snug_removeOrder (snug : matcher.orderPool.Snug allocator peak) (id : OrderId) :
    (matcher.removeOrder id).orderPool.Snug allocator peak := by
  rcases matcher.orderPool_removeOrder id with same | ⟨pointer, released⟩
  · rw [same]
    exact snug
  · rw [released]
    exact snug.release pointer

/-- A new order may raise the peak. -/
theorem snug_restOrder (snug : matcher.orderPool.Snug allocator peak) (order : Order) :
    (matcher.restOrder order).orderPool.Snug allocator
      (max peak (matcher.restOrder order).orderPool.liveCount) :=
  snug.acquire.write matcher.orderPool.acquire.1 (some order)

/-- Crossing needs no slab. -/
theorem crossPass_snug (allocator : SlabAllocator) (peak : Nat) :
    CrossPass (fun matcher book => Kept matcher book ∧ matcher.orderPool.Snug allocator peak)
      (fun matcher => matcher.orderTable.size) crossPass where
  filled := crossPass_kept.filled
  bare state book held := crossPass_kept.bare state book held.1
  beyond state book maker rest held := crossPass_kept.beyond state book maker rest held.1
  trade state book maker rest held sound positive orders reach := by
    obtain ⟨kept, snug⟩ := held
    obtain ⟨next, yields, keptNext, nonempty, smaller⟩ :=
      crossPass_kept.trade state book maker rest kept sound positive orders reach
    obtain ⟨reduced, front, _, _, address, object, pool⟩ :=
      kept.1.reduceFront sound positive orders reach
    refine ⟨next, yields, ⟨keptNext, ?_⟩, nonempty, smaller⟩
    have written : reduced.orderPool.Snug allocator peak := by
      rw [pool]
      exact snug.write address object
    have traded := crossPass_of_reduceFront front
    rw [yields, ForInStep.yield.injEq] at traded
    rw [show next = _ from congrArg CrossState.matcher traded]
    split
    · exact snug_removeOrder written maker.id
    · exact written

/-- Only a remainder that rests may raise the peak. -/
theorem snug_matchOrder (kept : Kept matcher book) (sound : book.Sound)
    (snug : matcher.orderPool.Snug allocator peak) (order : Order) :
    (matcher.matchOrder order).2.orderPool.Snug allocator
      (max peak (matcher.matchOrder order).2.orderPool.liveCount) := by
  let final := loop crossPass (matcher.orderTable.size + 1)
    { matcher := matcher, incoming := order, trades := [] }
  obtain ⟨_, _, _, crossed⟩ : final.trades = _ ∧ final.incoming = _ ∧ _ ∧
      final.matcher.orderPool.Snug allocator peak :=
    (crossPass_snug allocator peak).cross ⟨kept, snug⟩ sound _ (Nat.lt_succ_self _)
  show (if final.incoming.quantity > 0 then final.matcher.restOrder final.incoming
    else final.matcher).orderPool.Snug allocator (max peak (if final.incoming.quantity > 0 then
      final.matcher.restOrder final.incoming else final.matcher).orderPool.liveCount)
  by_cases left : final.incoming.quantity > 0
  · rw [if_pos left]
    exact snug_restOrder crossed final.incoming
  · rw [if_neg left, Nat.max_eq_left crossed.below]
    exact crossed

/-- The matcher stands for a sound book, and its pool is as large as the greatest number of orders
that rested at once needs. -/
def Housed (allocator : SlabAllocator) (peak : Nat) (matcher : OptimizedMatcher) : Prop :=
  ∃ book, Kept matcher book ∧ book.Sound ∧ matcher.orderPool.Snug allocator peak

/-- A call raises the peak to what rests after it. -/
theorem Housed.callMatcher (housed : Housed allocator peak matcher) {call : MatcherCall}
    (enters : EntersNewId matcher call) :
    Housed allocator (max peak (restingCount (callMatcher matcher call).2))
      (callMatcher matcher call).2 := by
  obtain ⟨book, kept, sound, snug⟩ := housed
  obtain ⟨next, keptNext, soundNext⟩ := kept.callMatcher sound enters
  refine ⟨next, keptNext, soundNext, ?_⟩
  rw [← keptNext.liveCount_eq soundNext]
  cases call with
  | addOrder order => exact snug_matchOrder kept sound snug order
  | matchOrder order => exact snug_matchOrder kept sound snug order
  | cancelOrder id =>
    have removed := snug_removeOrder snug id
    show (matcher.removeOrder id).orderPool.Snug allocator
      (max peak (matcher.removeOrder id).orderPool.liveCount)
    rw [Nat.max_eq_left removed.below]
    exact removed

/-- After every run that enters no resting id, the pool has as many live objects as orders rest, and
the number of its slabs is the greatest number of orders that rested at once, divided by the slab
size and rounded up. -/
theorem memory_run (allocator : SlabAllocator) (calls : List MatcherCall)
    (enters : Admissible EntersNewId Titan.callMatcher (init allocator) calls) :
    let matcher := (run Titan.callMatcher (init allocator) calls).2
    matcher.orderPool.liveCount = restingCount matcher ∧
      matcher.orderPool.slabCount =
        (peakOf restingCount Titan.callMatcher (init allocator) calls +
          (allocator.slabSize - 1)) / allocator.slabSize := by
  have begun : Housed allocator (max 0 (restingCount (init allocator))) (init allocator) :=
    ⟨Book.empty, kept_init allocator, Book.sound_empty, FixedObjectPool.snug_init allocator⟩
  have housed := run_peak restingCount (Housed allocator)
    (fun _ _ call housed enters => housed.callMatcher enters) begun enters
  obtain ⟨book, kept, sound, snug⟩ := housed
  rw [Nat.zero_max] at snug
  exact ⟨kept.liveCount_eq sound, snug.slabCount_eq⟩

/-- Three orders rest at once in slabs of two; then two are cancelled and one is filled. -/
theorem memory_run_drained :
    let allocator := SlabAllocator.consecutive 2 Nat.two_pos
    let calls : List MatcherCall :=
      [.addOrder { id := 1, side := .sell, price := 10, quantity := 5 },
        .addOrder { id := 2, side := .sell, price := 11, quantity := 5 },
        .addOrder { id := 3, side := .buy, price := 9, quantity := 5 },
        .cancelOrder 2, .cancelOrder 3,
        .matchOrder { id := 5, side := .buy, price := 10, quantity := 5 }]
    let matcher := (run Titan.callMatcher (init allocator) calls).2
    matcher.orderPool.liveCount = 0 ∧ matcher.orderPool.slabCount = 2 := by
  intro allocator calls matcher
  obtain ⟨live, slabs⟩ := memory_run allocator calls (by decide)
  exact ⟨live.trans (by decide), slabs.trans (by decide)⟩

end OptimizedMatcher

end Titan
