import TitanEngine.Core.PoolRuns

/-!
# How far a pool grows

A pool allocates a slab only when every slot is live, and it never gives one back. So after any run
it has as many slabs as the greatest number of slots that were live at once needs, and no more.
-/

namespace Titan

open Library

namespace FixedObjectPool

variable {T : Type} {pool : FixedObjectPool T}

/-- The slots in use. -/
def liveCount (pool : FixedObjectPool T) : Nat := pool.liveSlots.length

/-- The slabs have room for a peak of live slots, and would not with one slab less. -/
structure Snug (allocator : SlabAllocator) (peak : Nat) (pool : FixedObjectPool T) : Prop where
  /-- The pool is valid. -/
  valid : pool.Valid
  /-- Its slabs are allocated there. -/
  placed : pool.allocator = allocator
  /-- No more slots are live now. -/
  below : pool.liveCount ≤ peak
  /-- The peak fits the slabs. -/
  room : peak ≤ pool.slabCount * allocator.slabSize
  /-- The slabs are all needed for it. -/
  tight : pool.slabCount * allocator.slabSize < peak + allocator.slabSize

/-- A new pool has no slab. -/
theorem snug_init (allocator : SlabAllocator) :
    (init allocator : FixedObjectPool T).Snug allocator 0 where
  valid := valid_init allocator
  placed := rfl
  below := Nat.le_refl 0
  room := Nat.zero_le _
  tight := by
    have positive := allocator.positive
    show 0 * allocator.slabSize < 0 + allocator.slabSize
    omega

variable {allocator : SlabAllocator} {peak : Nat}

/-- The slabs of a snug pool are counted by its peak. -/
theorem Snug.slabCount_eq (snug : pool.Snug allocator peak) :
    pool.slabCount = (peak + (allocator.slabSize - 1)) / allocator.slabSize := by
  obtain ⟨_, _, _, room, tight⟩ := snug
  have positive := allocator.positive
  rw [eq_comm]
  refine Nat.div_eq_of_lt_le ?_ ?_
  · omega
  · rw [Nat.succ_mul]
    omega

/-- Writing an object changes no slot. -/
theorem Snug.write (snug : pool.Snug allocator peak) (address : Nat) (object : Option T) :
    (pool.write address object).Snug allocator peak where
  valid := snug.valid.write address object
  placed := snug.placed
  below := snug.below
  room := snug.room
  tight := snug.tight

/-- A released slot stays in its slab. -/
theorem Snug.release (snug : pool.Snug allocator peak) (pointer : Option Nat) :
    (pool.release pointer).Snug allocator peak := by
  by_cases held : ∃ address, pointer = some address ∧ pool.Live address
  · obtain ⟨address, rfl, live⟩ := held
    have fewer := snug.valid.length_liveSlots_release live
    have below := snug.below
    obtain ⟨valid, _, _⟩ := snug.valid.release live
    obtain ⟨place, found, set⟩ := live
    have result := release_eq found set
    have slabs : (pool.release (some address)).slabCount = pool.slabCount := by
      rw [result]
      simp [slabCount, setFlag, FixedObjectPool.write]
    refine ⟨valid, ?_, ?_, ?_, ?_⟩
    · rw [result]
      exact snug.placed
    · unfold liveCount at below ⊢
      omega
    · rw [slabs]
      exact snug.room
    · rw [slabs]
      exact snug.tight
  · rw [release_eq_self (fun address same live => held ⟨address, same, live⟩)]
    exact snug

/-- `acquire` allocates a slab exactly when no slot is free. -/
theorem Valid.slabCount_acquire [Inhabited T] (valid : pool.Valid) :
    pool.acquire.2.allocator = pool.allocator ∧
      pool.acquire.2.slabCount = pool.slabCount + if pool.freeCount = 0 then 1 else 0 := by
  obtain ⟨rest, place, _, _, _, result⟩ := valid.acquire_eq
  have grown : pool.grown.allocator = pool.allocator ∧
      pool.grown.slabCount = pool.slabCount + if pool.freeCount = 0 then 1 else 0 := by
    unfold FixedObjectPool.grown
    cases free : pool.freeList with
    | nil => simp [freeCount, free, slabCount, FixedObjectPool.growBySlab]
    | cons address list => simp [freeCount, free]
  rw [result, ← grown.1, ← grown.2]
  simp [slabCount, setFlag, FixedObjectPool.write]

/-- An acquired slot may raise the peak. -/
theorem Snug.acquire [Inhabited T] (snug : pool.Snug allocator peak) :
    pool.acquire.2.Snug allocator (max peak pool.acquire.2.liveCount) := by
  obtain ⟨valid, placed, below, room, tight⟩ := snug
  obtain ⟨same, slabs⟩ := valid.slabCount_acquire
  have more := valid.length_liveSlots_acquire
  have count := valid.partitioned.count
  have positive := allocator.positive
  rw [placed] at count
  unfold liveCount at below ⊢
  refine ⟨valid.acquire.1, same.trans placed, Nat.le_max_right _ _, ?_, ?_⟩
  · rw [slabs, more, Nat.add_mul]
    split <;> omega
  · rw [slabs, more, Nat.add_mul]
    split <;> omega

/-- A call raises the peak to what is live after it. -/
theorem Snug.callPool [Inhabited T] (snug : pool.Snug allocator peak) (call : PoolCall) :
    (pool.callPool call).2.Snug allocator (max peak (pool.callPool call).2.liveCount) := by
  cases call with
  | acquire => exact snug.acquire
  | release pointer =>
    have released := snug.release pointer
    show (pool.release pointer).Snug allocator (max peak (pool.release pointer).liveCount)
    rw [Nat.max_eq_left released.below]
    exact released

/-- After every run of `acquire` and `release` calls, whatever pointers were released, the number of
slabs is the greatest number of slots that were live at once, divided by the slab size and rounded
up. -/
theorem slabCount_run [Inhabited T] (allocator : SlabAllocator) (calls : List PoolCall) :
    (run callPool (init allocator : FixedObjectPool T) calls).2.slabCount =
      (peakOf liveCount callPool (init allocator : FixedObjectPool T) calls +
        (allocator.slabSize - 1)) / allocator.slabSize := by
  have begun : (init allocator : FixedObjectPool T).Snug allocator
      (max 0 (init allocator : FixedObjectPool T).liveCount) := snug_init allocator
  have snug := run_peak liveCount (Snug allocator)
    (fun _ _ call snug _ => snug.callPool call) begun (admissible_true callPool _ calls)
  rw [Nat.zero_max] at snug
  exact snug.slabCount_eq

end FixedObjectPool

end Titan
