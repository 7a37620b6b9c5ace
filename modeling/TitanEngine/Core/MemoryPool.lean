import Mathlib.Data.List.Basic
import Mathlib.Data.List.Nodup
import Mathlib.Logic.Function.Basic

/-!
# The free-list slab pool

`FixedObjectPool` of `titan/core/memory_pool.hpp`. An address counts objects, not bytes, and
`nullptr` is `none`. The addresses that `make_unique` returns for the slabs are given by an
allocator: any assignment of pairwise disjoint ranges. The free list is kept with its back at
the head of a list, so `push_back` and `pop_back` act on the head. Objects live in a store
indexed by address; an address whose object was destroyed, or never constructed, holds `none`.

The state invariant says that the free list and the live slots never overlap, so an acquired
address is one that nothing live uses.
-/

namespace Titan

/-- Where the slabs of one pool are allocated: disjoint ranges of a positive length. -/
structure SlabAllocator where
  /-- Slots of one slab. -/
  slabSize : Nat
  /-- First address of each slab. -/
  base : Nat → Nat
  /-- A slab has at least one slot. -/
  positive : 0 < slabSize
  /-- Slabs do not overlap. -/
  disjoint : ∀ left right, left ≠ right →
    base left + slabSize ≤ base right ∨ base right + slabSize ≤ base left

/-- Slabs laid out one after the other. -/
def SlabAllocator.consecutive (slabSize : Nat) (positive : 0 < slabSize) : SlabAllocator where
  slabSize := slabSize
  base index := index * slabSize
  positive := positive
  disjoint := by
    intro left right apart
    rcases Nat.lt_or_gt_of_ne apart with less | more
    · exact .inl (by rw [← Nat.succ_mul]; exact Nat.mul_le_mul_right _ less)
    · exact .inr (by rw [← Nat.succ_mul]; exact Nat.mul_le_mul_right _ more)

/-- `FixedObjectPool::Slab`: where its storage starts, and one live flag for each slot. -/
structure Slab where
  /-- `storage.get()`. -/
  base : Nat
  /-- `live`. -/
  live : List Bool
  deriving DecidableEq, Repr

/-- `FixedObjectPool`. -/
structure FixedObjectPool (T : Type) where
  /-- The slab size and the addresses of the slabs. -/
  allocator : SlabAllocator
  /-- `slabs_`, oldest first. -/
  slabs : List Slab
  /-- `freeList_`, its back first. -/
  freeList : List Nat
  /-- The constructed objects. -/
  storage : Nat → Option T

namespace FixedObjectPool

variable {T : Type}

/-- A pool that has not allocated a slab. -/
def init (allocator : SlabAllocator) : FixedObjectPool T where
  allocator := allocator
  slabs := []
  freeList := []
  storage _ := none

/-- `slabCount`. -/
def slabCount (pool : FixedObjectPool T) : Nat := pool.slabs.length

/-- `freeCount`. -/
def freeCount (pool : FixedObjectPool T) : Nat := pool.freeList.length

/-- The addresses of a slab in the order the free list takes them: the last one is its back. -/
def slots (base : Nat) : Nat → List Nat
  | 0 => []
  | count + 1 => (base + count) :: slots base count

/-- `growBySlab`. -/
def growBySlab (pool : FixedObjectPool T) : FixedObjectPool T :=
  let size := pool.allocator.slabSize
  let base := pool.allocator.base pool.slabs.length
  { pool with
    slabs := pool.slabs ++ [{ base := base, live := List.replicate size false }]
    freeList := slots base size ++ pool.freeList }

/-- Whether an address lies in a slab of the given size. -/
def Slab.holds (slab : Slab) (size address : Nat) : Bool :=
  decide (slab.base ≤ address) && decide (address < slab.base + size)

/-- `liveFlagFor`: the slab and the slot of the flag of a pointer, or `none` where the source
returns `nullptr`. -/
def liveFlagFor (pool : FixedObjectPool T) (pointer : Option Nat) : Option (Nat × Nat) := do
  let address ← pointer
  let index ← pool.slabs.findIdx? (fun slab => Slab.holds slab pool.allocator.slabSize address)
  let slab ← pool.slabs[index]?
  some (index, address - slab.base)

/-- The flag at a slab and a slot. -/
def flag (pool : FixedObjectPool T) (place : Nat × Nat) : Bool :=
  ((pool.slabs[place.1]?).bind (fun slab => slab.live[place.2]?)).getD false

/-- Write the flag at a slab and a slot. -/
def setFlag (pool : FixedObjectPool T) (place : Nat × Nat) (value : Bool) : FixedObjectPool T :=
  { pool with
    slabs := pool.slabs.modify place.1
      (fun slab => { slab with live := slab.live.set place.2 value }) }

/-- Store an object at an address. -/
def write (pool : FixedObjectPool T) (address : Nat) (object : Option T) : FixedObjectPool T :=
  { pool with storage := Function.update pool.storage address object }

/-- The object at an address. -/
def read (pool : FixedObjectPool T) (address : Nat) : Option T := pool.storage address

/-- `acquire`. The free list is nonempty after `growBySlab`, so the second case of the match is
never taken. -/
def acquire [Inhabited T] (pool : FixedObjectPool T) : Nat × FixedObjectPool T :=
  let grown := if pool.freeList.isEmpty then pool.growBySlab else pool
  match grown.freeList with
  | address :: rest =>
    let popped := { grown with freeList := rest }
    let marked :=
      match popped.liveFlagFor (some address) with
      | some place => popped.setFlag place true
      | none => popped
    (address, marked.write address (some default))
  | [] => (0, grown)

/-- `release`. -/
def release (pool : FixedObjectPool T) (pointer : Option Nat) : FixedObjectPool T :=
  match pointer, pool.liveFlagFor pointer with
  | some address, some place =>
    if pool.flag place then
      let destroyed := (pool.write address none).setFlag place false
      { destroyed with freeList := address :: destroyed.freeList }
    else pool
  | _, _ => pool

end FixedObjectPool

end Titan
