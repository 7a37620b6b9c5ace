import Mathlib.Data.List.Flatten
import Mathlib.Data.List.Perm.Basic
import TitanEngine.Core.PoolInvariant
import TitanEngine.Library.Machine

/-!
# Runs of the pool

The slots of all slabs are listed, and those that are live are picked from the list by their
flags. In every state that a pool can reach, the free list and the live slots share these slots
out between them, so a slot that is handed out is one that nobody holds.
-/

namespace Titan

open Library

namespace FixedObjectPool

variable {T : Type} {pool : FixedObjectPool T}

instance (pool : FixedObjectPool T) (address : Nat) : Decidable (pool.Live address) :=
  decidable_of_iff ((pool.liveFlagFor (some address)).any pool.flag = true) <| by
    simp [Live, Option.any_eq_true]

/-- The slots of all slabs. -/
def allSlots (pool : FixedObjectPool T) : List Nat :=
  pool.slabs.flatMap (fun slab => slots slab.base pool.allocator.slabSize)

/-- The slots whose flag is set. -/
def liveSlots (pool : FixedObjectPool T) : List Nat :=
  pool.allSlots.filter (fun address => pool.Live address)

/-- The number of slots of a slab. -/
theorem length_slots (base count : Nat) : (slots base count).length = count := by
  induction count with
  | zero => rfl
  | succ count ih => rw [slots, List.length_cons, ih]

/-- The number of slots of all slabs. -/
theorem length_allSlots (pool : FixedObjectPool T) :
    pool.allSlots.length = pool.slabCount * pool.allocator.slabSize := by
  simp [allSlots, slabCount, List.length_flatMap, length_slots]

/-- An address is a slot when the pool finds a flag for it. -/
theorem Laid.mem_allSlots (laid : pool.Laid) {address : Nat} :
    address ∈ pool.allSlots ↔ ∃ place, pool.liveFlagFor (some address) = some place := by
  simp only [allSlots, List.mem_flatMap, mem_slots]
  constructor
  · rintro ⟨slab, listed, lower, upper⟩
    obtain ⟨index, stored⟩ := List.mem_iff_getElem?.mp listed
    obtain ⟨start, _⟩ := laid index slab stored
    have inside := (List.getElem?_eq_some_iff.mp stored).1
    exact ⟨(index, address - slab.base), (laid.liveFlagFor_iff _ _ _).mpr
      ⟨inside, by omega, by omega⟩⟩
  · rintro ⟨⟨index, slot⟩, found⟩
    obtain ⟨inside, within, rfl⟩ := (laid.liveFlagFor_iff _ _ _).mp found
    have stored : pool.slabs[index]? = some pool.slabs[index] := List.getElem?_eq_getElem inside
    obtain ⟨start, _⟩ := laid index _ stored
    exact ⟨pool.slabs[index], List.getElem_mem inside, by omega, by omega⟩

/-- The slots depend on how many slabs there are and where they are allocated. -/
theorem Laid.allSlots_eq (laid : pool.Laid) :
    pool.allSlots = (List.range pool.slabs.length).flatMap
      (fun index => slots (pool.allocator.base index) pool.allocator.slabSize) := by
  have bases : pool.slabs.map Slab.base =
      (List.range pool.slabs.length).map pool.allocator.base := by
    apply List.ext_getElem
    · simp
    · intro index inside _
      rw [List.length_map] at inside
      obtain ⟨start, _⟩ := laid index _ (List.getElem?_eq_getElem inside)
      simpa using start
  have listed := congrArg
    (List.flatMap (fun base => slots base pool.allocator.slabSize)) bases
  rw [List.flatMap_map, List.flatMap_map] at listed
  exact listed

/-- No slot is listed twice, since slabs do not overlap. -/
theorem Laid.nodup_allSlots (laid : pool.Laid) : pool.allSlots.Nodup := by
  refine List.nodup_flatMap.mpr ⟨fun slab _ => nodup_slots _ _, ?_⟩
  rw [List.pairwise_iff_getElem]
  intro left right leftInside rightInside before address inLeft inRight
  obtain ⟨startLeft, _⟩ := laid left _ (List.getElem?_eq_getElem leftInside)
  obtain ⟨startRight, _⟩ := laid right _ (List.getElem?_eq_getElem rightInside)
  have apart := pool.allocator.disjoint left right (Nat.ne_of_lt before)
  rw [mem_slots] at inLeft inRight
  omega

/-- A live slot is a slot. -/
theorem Laid.mem_liveSlots (laid : pool.Laid) {address : Nat} :
    address ∈ pool.liveSlots ↔ pool.Live address := by
  simp only [liveSlots, List.mem_filter, decide_eq_true_eq, and_iff_right_iff_imp]
  rintro ⟨place, found, _⟩
  exact laid.mem_allSlots.mpr ⟨place, found⟩

/-- No live slot is listed twice. -/
theorem Laid.nodup_liveSlots (laid : pool.Laid) : pool.liveSlots.Nodup :=
  laid.nodup_allSlots.filter _

/-- The free list and the live slots share the slots of all slabs out between them. -/
structure Partitioned (pool : FixedObjectPool T) : Prop where
  /-- No slot is on the free list twice. -/
  distinct : pool.freeList.Nodup
  /-- Every slot is either free or live, and nothing else is. -/
  parts : (pool.freeList ++ pool.liveSlots).Perm pool.allSlots
  /-- The slots of all slabs are different addresses. -/
  apart : pool.allSlots.Nodup
  /-- The two parts together count all slots. -/
  count : pool.freeCount + pool.liveSlots.length = pool.slabCount * pool.allocator.slabSize

/-- The free slots and the live slots of a valid pool are its slots. -/
theorem Valid.perm_allSlots (valid : pool.Valid) :
    (pool.freeList ++ pool.liveSlots).Perm pool.allSlots := by
  have disjoint : ∀ free ∈ pool.freeList, ∀ live ∈ pool.liveSlots, free ≠ live := by
    rintro address free live inLive rfl
    obtain ⟨place, found, clear⟩ := (valid.free address).mp free
    obtain ⟨same, foundLive, set⟩ := valid.laid.mem_liveSlots.mp inLive
    obtain rfl : place = same := Option.some.inj (found.symm.trans foundLive)
    simp [clear] at set
  have distinct : (pool.freeList ++ pool.liveSlots).Nodup :=
    List.nodup_append.mpr ⟨valid.nodup, valid.laid.nodup_liveSlots, disjoint⟩
  rw [List.perm_ext_iff_of_nodup distinct valid.laid.nodup_allSlots]
  intro address
  rw [List.mem_append, valid.free, valid.laid.mem_liveSlots, valid.laid.mem_allSlots]
  constructor
  · rintro (⟨place, found, _⟩ | ⟨place, found, _⟩)
    · exact ⟨place, found⟩
    · exact ⟨place, found⟩
  · rintro ⟨place, found⟩
    cases set : pool.flag place with
    | false => exact .inl ⟨place, found, set⟩
    | true => exact .inr ⟨place, found, set⟩

/-- A valid pool is partitioned. -/
theorem Valid.partitioned (valid : pool.Valid) : pool.Partitioned where
  distinct := valid.nodup
  parts := valid.perm_allSlots
  apart := valid.laid.nodup_allSlots
  count := by
    rw [freeCount, ← List.length_append, valid.perm_allSlots.length_eq, length_allSlots]

/-- A slot is handed out: one that was not live. It alone becomes live, it leaves the free list,
and a new object stands in it; the other objects stay. -/
structure HandsOut [Inhabited T] (pool : FixedObjectPool T) (address : Nat)
    (next : FixedObjectPool T) : Prop where
  /-- It is a slot of the pool. -/
  inside : address ∈ next.allSlots
  /-- It was not live. -/
  unused : ¬ pool.Live address
  /-- It alone becomes live. -/
  live : ∀ other, next.Live other ↔ other = address ∨ pool.Live other
  /-- It is free no more. -/
  taken : address ∉ next.freeList
  /-- A new object stands in it. -/
  fresh : next.read address = some default
  /-- The other objects stay. -/
  kept : ∀ other, other ≠ address → next.read other = pool.read other

/-- A live slot is taken back: it alone becomes free, and the other objects stay. -/
structure TakesBack (pool : FixedObjectPool T) (address : Nat) (next : FixedObjectPool T) :
    Prop where
  /-- It goes on the free list. -/
  free : next.freeList = address :: pool.freeList
  /-- It alone stops being live. -/
  live : ∀ other, next.Live other ↔ other ≠ address ∧ pool.Live other
  /-- No slab comes or goes. -/
  slots : next.allSlots = pool.allSlots
  /-- The other objects stay. -/
  kept : ∀ other, other ≠ address → next.read other = pool.read other

/-- `acquire` hands a slot out. -/
theorem Valid.handsOut [Inhabited T] (valid : pool.Valid) :
    pool.HandsOut pool.acquire.1 pool.acquire.2 := by
  obtain ⟨after, unused, live, kept⟩ := valid.acquire
  obtain ⟨rest, place, list, _, _, result⟩ := valid.acquire_eq
  have held : pool.acquire.2.Live pool.acquire.1 := (live _).mpr (.inl rfl)
  constructor
  · obtain ⟨at_, found, _⟩ := held
    exact after.laid.mem_allSlots.mpr ⟨at_, found⟩
  · exact unused
  · exact live
  · have distinct := valid.grown.nodup
    rw [list, List.nodup_cons] at distinct
    rw [result]
    exact distinct.1
  · rw [result, read_write, if_pos rfl]
  · exact kept

/-- `release` takes a live slot back. -/
theorem Valid.takesBack (valid : pool.Valid) {address : Nat} (held : pool.Live address) :
    pool.TakesBack address (pool.release (some address)) := by
  obtain ⟨after, live, kept⟩ := valid.release held
  obtain ⟨place, found, set⟩ := held
  have result := release_eq found set
  constructor
  · rw [result]
  · exact live
  · rw [after.laid.allSlots_eq, valid.laid.allSlots_eq, result]
    simp [setFlag, FixedObjectPool.write]
  · exact kept

/-- Handing a slot out makes one more live. -/
theorem Valid.length_liveSlots_acquire [Inhabited T] (valid : pool.Valid) :
    pool.acquire.2.liveSlots.length = pool.liveSlots.length + 1 := by
  obtain ⟨after, unused, live, _⟩ := valid.acquire
  have more : pool.acquire.2.liveSlots.Perm (pool.acquire.1 :: pool.liveSlots) := by
    have fresh : pool.acquire.1 ∉ pool.liveSlots := fun listed =>
      unused (valid.laid.mem_liveSlots.mp listed)
    rw [List.perm_ext_iff_of_nodup after.laid.nodup_liveSlots
      (List.nodup_cons.mpr ⟨fresh, valid.laid.nodup_liveSlots⟩)]
    intro other
    rw [after.laid.mem_liveSlots, live, List.mem_cons, valid.laid.mem_liveSlots]
  rw [more.length_eq, List.length_cons]

/-- Taking a live slot back makes one less live. -/
theorem Valid.length_liveSlots_release (valid : pool.Valid) {address : Nat}
    (held : pool.Live address) :
    (pool.release (some address)).liveSlots.length + 1 = pool.liveSlots.length := by
  obtain ⟨after, live, _⟩ := valid.release held
  have less : pool.liveSlots.Perm (address :: (pool.release (some address)).liveSlots) := by
    have gone : address ∉ (pool.release (some address)).liveSlots := fun listed =>
      ((live address).mp (after.laid.mem_liveSlots.mp listed)).1 rfl
    rw [List.perm_ext_iff_of_nodup valid.laid.nodup_liveSlots
      (List.nodup_cons.mpr ⟨gone, after.laid.nodup_liveSlots⟩)]
    intro other
    rw [valid.laid.mem_liveSlots, List.mem_cons, after.laid.mem_liveSlots, live]
    by_cases same : other = address
    · simp [same, held]
    · simp [same]
  rw [less.length_eq, List.length_cons]

/-- A call of the pool; any pointer may be released. -/
inductive PoolCall where
  | acquire
  | release (pointer : Option Nat)
  deriving DecidableEq, Repr

/-- Issue one call; `acquire` returns a pointer. -/
def callPool [Inhabited T] (pool : FixedObjectPool T) : PoolCall →
    Option Nat × FixedObjectPool T
  | .acquire =>
    let (address, next) := pool.acquire
    (some address, next)
  | .release pointer => (none, pool.release pointer)

/-- Every call keeps a pool valid, and its slabs where they are allocated. -/
theorem Valid.callPool [Inhabited T] (valid : pool.Valid) (call : PoolCall) :
    (pool.callPool call).2.Valid ∧ (pool.callPool call).2.allocator = pool.allocator := by
  cases call with
  | acquire =>
    obtain ⟨_, _, _, _, _, result⟩ := valid.acquire_eq
    refine ⟨valid.acquire.1, ?_⟩
    change pool.acquire.2.allocator = _
    rw [result]
    change pool.grown.allocator = _
    unfold FixedObjectPool.grown
    split <;> rfl
  | release pointer =>
    change (pool.release pointer).Valid ∧ (pool.release pointer).allocator = _
    by_cases held : ∃ address, pointer = some address ∧ pool.Live address
    · obtain ⟨address, rfl, place, found, set⟩ := held
      refine ⟨(valid.release ⟨place, found, set⟩).1, ?_⟩
      rw [release_eq found set]
      rfl
    · have ignored : pool.release pointer = pool :=
        release_eq_self (fun address same live => held ⟨address, same, live⟩)
      rw [ignored]
      exact ⟨valid, rfl⟩

/-- A pool is valid after every run. -/
theorem valid_run [Inhabited T] (allocator : SlabAllocator) (calls : List PoolCall) :
    (run callPool (init allocator : FixedObjectPool T) calls).2.Valid ∧
      (run callPool (init allocator : FixedObjectPool T) calls).2.allocator = allocator := by
  refine run_invariant (fun pool : FixedObjectPool T => pool.Valid ∧ pool.allocator = allocator)
    ?_ ⟨valid_init allocator, rfl⟩ (admissible_true callPool _ calls)
  rintro pool call ⟨valid, placed⟩ -
  obtain ⟨after, same⟩ := valid.callPool call
  exact ⟨after, same.trans placed⟩

/-- A pool never hands a slot out twice. After every run of `acquire` and `release` calls, with
whatever pointers were released, the free list and the live slots share out the slots of all
slabs; an `acquire` then hands out a slot that was not live, a `release` changes nothing unless
its argument is a live slot of this pool, and of a live slot it makes exactly that slot free. -/
theorem pool_never_aliases [Inhabited T] (allocator : SlabAllocator) (calls : List PoolCall) :
    let pool : FixedObjectPool T := (run callPool (init allocator) calls).2
    pool.Partitioned ∧ pool.allocator = allocator ∧
      pool.HandsOut pool.acquire.1 pool.acquire.2 ∧
      (∀ pointer, pool.release pointer ≠ pool →
        ∃ address, pointer = some address ∧ pool.Live address) ∧
      ∀ address, pool.Live address → pool.TakesBack address (pool.release (some address)) := by
  intro pool
  obtain ⟨valid, placed⟩ : pool.Valid ∧ pool.allocator = allocator := valid_run allocator calls
  refine ⟨valid.partitioned, placed, valid.handsOut, ?_, fun _ held => valid.takesBack held⟩
  intro pointer changed
  by_contra unused
  exact changed (release_eq_self (fun address same live => unused ⟨address, same, live⟩))

end FixedObjectPool

end Titan
