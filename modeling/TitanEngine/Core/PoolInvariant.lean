import TitanEngine.Core.MemoryPool

/-!
# Free and live slots of the pool

Every slot of every slab is either on the free list, once, or live. `Valid` states this through
the pool's own lookup of a live flag, and every operation keeps it: `acquire` takes a slot that
was not live and makes it live, `release` makes a live slot free and ignores every other
pointer, and storing an object changes neither.
-/

namespace Titan.FixedObjectPool

variable {T : Type} {pool : FixedObjectPool T}

/-- The slot at an address of some slab has its flag set. -/
def Live (pool : FixedObjectPool T) (address : Nat) : Prop :=
  ∃ place, pool.liveFlagFor (some address) = some place ∧ pool.flag place = true

/-- Each slab starts where it was allocated and has one flag for each slot. -/
def Laid (pool : FixedObjectPool T) : Prop :=
  ∀ index slab, pool.slabs[index]? = some slab →
    slab.base = pool.allocator.base index ∧ slab.live.length = pool.allocator.slabSize

/-- The state invariant of the pool. -/
structure Valid (pool : FixedObjectPool T) : Prop where
  /-- The slabs are where they were allocated. -/
  laid : pool.Laid
  /-- No slot is on the free list twice. -/
  nodup : pool.freeList.Nodup
  /-- The free slots are the slots that are not live. -/
  free : ∀ address, address ∈ pool.freeList ↔
    ∃ place, pool.liveFlagFor (some address) = some place ∧ pool.flag place = false

/-- The lookup finds the slab and the slot of an address, and nothing for other addresses. -/
theorem Laid.liveFlagFor_iff (laid : pool.Laid) (address index slot : Nat) :
    pool.liveFlagFor (some address) = some (index, slot) ↔
      index < pool.slabs.length ∧ slot < pool.allocator.slabSize ∧
        address = pool.allocator.base index + slot := by
  simp only [liveFlagFor, bind, Option.bind_some, Option.bind_eq_some_iff,
    List.findIdx?_eq_some_iff_getElem, Slab.holds, Option.some.injEq, Prod.mk.injEq]
  constructor
  · rintro ⟨found, ⟨inside, holds, _⟩, entry, lookup, rfl, rfl⟩
    obtain rfl : pool.slabs[found] = entry := by
      rw [List.getElem?_eq_getElem inside] at lookup
      exact Option.some.inj lookup
    obtain ⟨start, _⟩ := laid found _ lookup
    simp only [Bool.and_eq_true, decide_eq_true_eq] at holds
    rw [start] at holds ⊢
    omega
  · rintro ⟨inside, within, rfl⟩
    have lookup : pool.slabs[index]? = some pool.slabs[index] := List.getElem?_eq_getElem inside
    obtain ⟨start, _⟩ := laid index _ lookup
    refine ⟨index, ⟨inside, ?_, ?_⟩, pool.slabs[index], lookup, rfl, ?_⟩
    · simp only [start, Bool.and_eq_true, decide_eq_true_eq]
      omega
    · intro earlier before
      have lookupEarlier : pool.slabs[earlier]? = some pool.slabs[earlier] :=
        List.getElem?_eq_getElem (Nat.lt_trans before inside)
      obtain ⟨startEarlier, _⟩ := laid earlier _ lookupEarlier
      have apart := pool.allocator.disjoint earlier index (Nat.ne_of_lt before)
      simp only [startEarlier, Bool.and_eq_true, decide_eq_true_eq]
      omega
    · rw [start]
      omega

/-- Different addresses have different flags. -/
theorem Laid.address_unique (laid : pool.Laid) {left right : Nat} {place : Nat × Nat}
    (first : pool.liveFlagFor (some left) = some place)
    (second : pool.liveFlagFor (some right) = some place) : left = right := by
  obtain ⟨_, _, rfl⟩ := (laid.liveFlagFor_iff left place.1 place.2).mp first
  obtain ⟨_, _, rfl⟩ := (laid.liveFlagFor_iff right place.1 place.2).mp second
  rfl

/-- Writing a flag moves no slab. -/
theorem Laid.setFlag (laid : pool.Laid) (place : Nat × Nat) (value : Bool) :
    (pool.setFlag place value).Laid := by
  intro index slab lookup
  simp only [FixedObjectPool.setFlag, List.getElem?_modify] at lookup
  cases old : pool.slabs[index]? with
  | none => simp [old] at lookup
  | some before =>
    obtain ⟨start, size⟩ := laid index before old
    simp only [old, Option.map_eq_map, Option.map_some, Option.some.injEq] at lookup
    subst lookup
    split
    · exact ⟨start, by rw [List.length_set]; exact size⟩
    · exact ⟨start, size⟩

/-- The lookup depends on where the slabs are and on nothing else. -/
theorem Laid.liveFlagFor_congr {other : FixedObjectPool T} (laid : pool.Laid)
    (laidOther : other.Laid) (allocator : other.allocator = pool.allocator)
    (count : other.slabs.length = pool.slabs.length) (address : Nat) :
    other.liveFlagFor (some address) = pool.liveFlagFor (some address) := by
  apply Option.ext
  rintro ⟨index, slot⟩
  rw [laidOther.liveFlagFor_iff, laid.liveFlagFor_iff, allocator, count]

/-- Writing a flag does not change where it is looked up. -/
theorem Laid.liveFlagFor_setFlag (laid : pool.Laid) (place : Nat × Nat) (value : Bool)
    (address : Nat) :
    (pool.setFlag place value).liveFlagFor (some address) = pool.liveFlagFor (some address) :=
  laid.liveFlagFor_congr (laid.setFlag place value) rfl (List.length_modify _ _ _) address

/-- The flag at a place after the flag of an address was written. -/
theorem Laid.flag_setFlag (laid : pool.Laid) {address : Nat} {written : Nat × Nat}
    (found : pool.liveFlagFor (some address) = some written) (value : Bool)
    (place : Nat × Nat) :
    (pool.setFlag written value).flag place =
      if place = written then value else pool.flag place := by
  obtain ⟨index, slot⟩ := written
  obtain ⟨otherIndex, otherSlot⟩ := place
  obtain ⟨inside, within, _⟩ := (laid.liveFlagFor_iff address index slot).mp found
  have lookup : pool.slabs[index]? = some pool.slabs[index] := List.getElem?_eq_getElem inside
  obtain ⟨_, size⟩ := laid index _ lookup
  simp only [flag, FixedObjectPool.setFlag, List.getElem?_modify, Prod.mk.injEq]
  by_cases sameIndex : index = otherIndex
  · subst sameIndex
    by_cases sameSlot : slot = otherSlot
    · subst sameSlot
      simp [lookup, size, within]
    · simp [lookup, sameSlot, Ne.symm sameSlot]
  · simp [sameIndex, Ne.symm sameIndex]

/-- A pool without slabs is valid. -/
theorem valid_init (allocator : SlabAllocator) : (init allocator : FixedObjectPool T).Valid where
  laid index slab lookup := by simp [init] at lookup
  nodup := List.nodup_nil
  free address := by simp [init, liveFlagFor]

/-- Storing an object changes no flag. -/
theorem Valid.write (valid : pool.Valid) (address : Nat) (object : Option T) :
    (pool.write address object).Valid := ⟨valid.laid, valid.nodup, valid.free⟩

@[simp] theorem live_write (pool : FixedObjectPool T) (address : Nat) (object : Option T)
    (other : Nat) : (pool.write address object).Live other ↔ pool.Live other := Iff.rfl

@[simp] theorem read_write (pool : FixedObjectPool T) (address : Nat) (object : Option T)
    (other : Nat) : (pool.write address object).read other =
      if other = address then object else pool.read other := by
  simp [read, FixedObjectPool.write, Function.update_apply]

/-- The slots of a slab are its addresses. -/
theorem mem_slots {base count address : Nat} :
    address ∈ slots base count ↔ base ≤ address ∧ address < base + count := by
  induction count with
  | zero => simp [slots]
  | succ count ih =>
    rw [slots, List.mem_cons, ih]
    omega

/-- The slots of a slab are distinct. -/
theorem nodup_slots (base count : Nat) : (slots base count).Nodup := by
  induction count with
  | zero => exact List.nodup_nil
  | succ count ih =>
    refine List.nodup_cons.mpr ⟨?_, ih⟩
    rw [mem_slots]
    omega

/-- A new slab is laid behind the others. -/
theorem Laid.growBySlab (laid : pool.Laid) : pool.growBySlab.Laid := by
  intro index slab lookup
  simp only [FixedObjectPool.growBySlab, List.getElem?_append] at lookup
  split at lookup
  · exact laid index slab lookup
  · rename_i beyond
    have last : index = pool.slabs.length := by
      have bound := (List.getElem?_eq_some_iff.mp lookup).1
      simp only [List.length_cons, List.length_nil] at bound
      omega
    subst last
    simp only [Nat.sub_self, List.getElem?_cons_zero, Option.some.injEq] at lookup
    subst lookup
    exact ⟨rfl, List.length_replicate⟩

/-- The flags after a slab was added: the new ones are clear. -/
theorem Laid.flag_growBySlab (laid : pool.Laid) (address : Nat) (value : Bool) :
    (∃ place, pool.growBySlab.liveFlagFor (some address) = some place ∧
        pool.growBySlab.flag place = value) ↔
      (∃ place, pool.liveFlagFor (some address) = some place ∧ pool.flag place = value) ∨
        (value = false ∧ address ∈ slots (pool.allocator.base pool.slabs.length)
          pool.allocator.slabSize) := by
  have count : pool.growBySlab.slabs.length = pool.slabs.length + 1 := by
    simp [FixedObjectPool.growBySlab]
  have old : ∀ index slot, index < pool.slabs.length →
      pool.growBySlab.flag (index, slot) = pool.flag (index, slot) := by
    intro index slot inside
    simp only [flag, FixedObjectPool.growBySlab, List.getElem?_append_left inside]
  have new : ∀ slot, pool.growBySlab.flag (pool.slabs.length, slot) = false := by
    intro slot
    simp only [flag, FixedObjectPool.growBySlab, List.getElem?_append_right (Nat.le_refl _),
      Nat.sub_self, List.getElem?_cons_zero, Option.bind_some, List.getElem?_replicate]
    split <;> rfl
  rw [mem_slots]
  constructor
  · rintro ⟨⟨index, slot⟩, found, holds⟩
    obtain ⟨inside, within, equal⟩ := (laid.growBySlab.liveFlagFor_iff address index slot).mp found
    rcases Nat.lt_or_ge index pool.slabs.length with earlier | last
    · rw [old index slot earlier] at holds
      exact .inl ⟨(index, slot), (laid.liveFlagFor_iff address index slot).mpr
        ⟨earlier, within, equal⟩, holds⟩
    · obtain rfl : index = pool.slabs.length := by omega
      rw [new slot] at holds
      change address = pool.allocator.base _ + slot at equal
      change slot < pool.allocator.slabSize at within
      exact .inr ⟨holds.symm, by omega, by omega⟩
  · rintro (⟨⟨index, slot⟩, found, holds⟩ | ⟨rfl, lower, upper⟩)
    · obtain ⟨inside, within, equal⟩ := (laid.liveFlagFor_iff address index slot).mp found
      refine ⟨(index, slot), (laid.growBySlab.liveFlagFor_iff address index slot).mpr
        ⟨by omega, within, equal⟩, ?_⟩
      rw [old index slot inside]
      exact holds
    · refine ⟨(pool.slabs.length, address - pool.allocator.base pool.slabs.length),
        (laid.growBySlab.liveFlagFor_iff _ _ _).mpr ⟨by omega, ?_, ?_⟩, new _⟩
      · change _ < pool.allocator.slabSize
        omega
      · change address = pool.allocator.base _ + _
        omega

/-- A new slab brings free slots only. -/
theorem Valid.growBySlab (valid : pool.Valid) : pool.growBySlab.Valid where
  laid := valid.laid.growBySlab
  nodup := by
    refine List.nodup_append.mpr ⟨nodup_slots _ _, valid.nodup, ?_⟩
    intro left member right free equal
    subst equal
    obtain ⟨⟨index, slot⟩, found, _⟩ := (valid.free left).mp free
    obtain ⟨inside, within, at_⟩ := (valid.laid.liveFlagFor_iff left index slot).mp found
    have apart := pool.allocator.disjoint index pool.slabs.length (Nat.ne_of_lt inside)
    rw [mem_slots] at member
    omega
  free address := by
    rw [valid.laid.flag_growBySlab, ← valid.free]
    simp [FixedObjectPool.growBySlab, or_comm]

/-- Adding a slab makes no slot live. -/
theorem Valid.live_growBySlab (valid : pool.Valid) (address : Nat) :
    pool.growBySlab.Live address ↔ pool.Live address := by
  unfold Live
  rw [valid.laid.flag_growBySlab]
  simp

/-- Marking the back of the free list, once it is taken off, as live. -/
theorem Valid.take (valid : pool.Valid) {address : Nat} {rest : List Nat} {place : Nat × Nat}
    (list : pool.freeList = address :: rest)
    (found : pool.liveFlagFor (some address) = some place) :
    let taken := { pool with freeList := rest }.setFlag place true
    taken.Valid ∧ ∀ other, taken.Live other ↔ other = address ∨ pool.Live other := by
  intro taken
  have nodup := valid.nodup
  rw [list, List.nodup_cons] at nodup
  have laid : ({ pool with freeList := rest } : FixedObjectPool T).Laid := valid.laid
  have lookup : ∀ other, taken.liveFlagFor (some other) = pool.liveFlagFor (some other) :=
    fun other => laid.liveFlagFor_setFlag place true other
  have flags : ∀ other, taken.flag other = if other = place then true else pool.flag other :=
    fun other => laid.flag_setFlag found true other
  refine ⟨⟨laid.setFlag place true, nodup.2, ?_⟩, ?_⟩
  · intro other
    simp only [lookup, flags]
    have before := valid.free other
    rw [list, List.mem_cons] at before
    constructor
    · intro member
      obtain ⟨at_, where_, clear⟩ := before.mp (.inr member)
      have apart : at_ ≠ place := by
        rintro rfl
        exact nodup.1 (valid.laid.address_unique where_ found ▸ member)
      exact ⟨at_, where_, by rw [if_neg apart]; exact clear⟩
    · rintro ⟨at_, where_, clear⟩
      split at clear
      · simp at clear
      · rename_i apart
        rcases before.mpr ⟨at_, where_, clear⟩ with rfl | member
        · exact absurd (Option.some.inj (where_.symm.trans found)) apart
        · exact member
  · intro other
    simp only [Live, lookup, flags]
    constructor
    · rintro ⟨at_, where_, set⟩
      split at set
      · rename_i same
        exact .inl (valid.laid.address_unique where_ (same ▸ found))
      · exact .inr ⟨at_, where_, set⟩
    · rintro (rfl | ⟨at_, where_, set⟩)
      · exact ⟨place, found, if_pos rfl⟩
      · refine ⟨at_, where_, ?_⟩
        split
        · rfl
        · exact set

/-- The pool whose free list `acquire` pops: with a new slab when the free list was empty. -/
def grown (pool : FixedObjectPool T) : FixedObjectPool T :=
  if pool.freeList.isEmpty then pool.growBySlab else pool

/-- Growing keeps the pool valid. -/
theorem Valid.grown (valid : pool.Valid) : pool.grown.Valid := by
  unfold FixedObjectPool.grown
  split
  · exact valid.growBySlab
  · exact valid

/-- Growing makes no slot live. -/
theorem Valid.live_grown (valid : pool.Valid) (address : Nat) :
    pool.grown.Live address ↔ pool.Live address := by
  unfold FixedObjectPool.grown
  split
  · exact valid.live_growBySlab address
  · exact Iff.rfl

/-- Growing touches no object. -/
theorem read_grown (pool : FixedObjectPool T) (address : Nat) :
    pool.grown.read address = pool.read address := by
  unfold grown
  split <;> rfl

/-- There is a free slot after growing. -/
theorem freeList_grown_ne_nil (pool : FixedObjectPool T) : pool.grown.freeList ≠ [] := by
  unfold grown
  split
  · simp only [growBySlab, ne_eq, List.append_eq_nil_iff, not_and]
    intro empty
    have first : pool.allocator.base pool.slabs.length ∈
        slots (pool.allocator.base pool.slabs.length) pool.allocator.slabSize :=
      mem_slots.mpr ⟨Nat.le_refl _, by have := pool.allocator.positive; omega⟩
    simp [empty] at first
  · rename_i occupied
    simpa using occupied

/-- `acquire` pops the back of the free list, finds its flag clear, sets it, and constructs an
object there. -/
theorem Valid.acquire_eq [Inhabited T] (valid : pool.Valid) : ∃ rest place,
    pool.grown.freeList = pool.acquire.1 :: rest ∧
      pool.grown.liveFlagFor (some pool.acquire.1) = some place ∧
      pool.grown.flag place = false ∧
      pool.acquire.2 = (({ pool.grown with freeList := rest } :
        FixedObjectPool T).setFlag place true).write pool.acquire.1 (some default) := by
  obtain ⟨address, rest, list⟩ := List.exists_cons_of_ne_nil pool.freeList_grown_ne_nil
  have listed : address ∈ pool.grown.freeList := list ▸ List.mem_cons_self
  obtain ⟨place, found, clear⟩ := (valid.grown.free address).mp listed
  have lookup : ({ pool.grown with freeList := rest } : FixedObjectPool T).liveFlagFor
      (some address) = some place := found
  have result : pool.acquire = (address, (({ pool.grown with freeList := rest } :
      FixedObjectPool T).setFlag place true).write address (some default)) := by
    have same : (if pool.freeList.isEmpty then pool.growBySlab else pool) = pool.grown := rfl
    simp only [FixedObjectPool.acquire, same, list, lookup]
  rw [result]
  exact ⟨rest, place, list, found, clear, rfl⟩

/-- `acquire` returns a slot that was not live, makes it live, and changes nothing else. -/
theorem Valid.acquire [Inhabited T] (valid : pool.Valid) :
    (pool.acquire).2.Valid ∧ ¬ pool.Live (pool.acquire).1 ∧
      (∀ other, (pool.acquire).2.Live other ↔ other = (pool.acquire).1 ∨ pool.Live other) ∧
      ∀ other, other ≠ (pool.acquire).1 → (pool.acquire).2.read other = pool.read other := by
  obtain ⟨rest, place, list, found, clear, result⟩ := valid.acquire_eq
  obtain ⟨validTaken, liveTaken⟩ := valid.grown.take list found
  rw [result]
  refine ⟨validTaken.write _ _, ?_, ?_, ?_⟩
  · rw [← valid.live_grown]
    rintro ⟨at_, where_, set⟩
    rw [Option.some.inj (where_.symm.trans found), clear] at set
    simp at set
  · intro other
    rw [live_write, liveTaken, valid.live_grown]
  · intro other apart
    rw [read_write, if_neg apart]
    exact pool.read_grown other

/-- `release` ignores a pointer that is not a live slot. -/
theorem release_eq_self {pointer : Option Nat}
    (unused : ∀ address, pointer = some address → ¬ pool.Live address) :
    pool.release pointer = pool := by
  cases pointer with
  | none => rfl
  | some address =>
    cases found : pool.liveFlagFor (some address) with
    | none => simp only [release, found]
    | some place =>
      have clear : pool.flag place = false := by
        cases set : pool.flag place with
        | false => rfl
        | true => exact absurd ⟨place, found, set⟩ (unused address rfl)
      simp [release, found, clear]

/-- `release` clears the flag of a live slot, destroys its object, and puts it on the free
list. -/
theorem release_eq {address : Nat} {place : Nat × Nat}
    (found : pool.liveFlagFor (some address) = some place) (set : pool.flag place = true) :
    pool.release (some address) =
      { (pool.write address none).setFlag place false with
        freeList := address :: pool.freeList } := by
  simp [release, found, set, setFlag, write]

/-- Releasing a live slot makes it free and changes no other slot. -/
theorem Valid.release (valid : pool.Valid) {address : Nat} (live : pool.Live address) :
    (pool.release (some address)).Valid ∧
      (∀ other, (pool.release (some address)).Live other ↔ other ≠ address ∧ pool.Live other) ∧
      ∀ other, other ≠ address →
        (pool.release (some address)).read other = pool.read other := by
  obtain ⟨place, found, set⟩ := live
  let cleared := (pool.write address none).setFlag place false
  have result : pool.release (some address) =
      { cleared with freeList := address :: pool.freeList } := release_eq found set
  have laid : (pool.write address none).Laid := valid.laid
  have lookup : ∀ other, ({ cleared with freeList := address :: pool.freeList } :
      FixedObjectPool T).liveFlagFor (some other) = pool.liveFlagFor (some other) :=
    fun other => laid.liveFlagFor_setFlag place false other
  have flags : ∀ other, ({ cleared with freeList := address :: pool.freeList } :
      FixedObjectPool T).flag other = if other = place then false else pool.flag other :=
    fun other => laid.flag_setFlag found false other
  rw [result]
  refine ⟨⟨laid.setFlag place false, ?_, ?_⟩, ?_, ?_⟩
  · refine List.nodup_cons.mpr ⟨?_, valid.nodup⟩
    intro member
    obtain ⟨at_, where_, clear⟩ := (valid.free address).mp member
    rw [Option.some.inj (where_.symm.trans found), set] at clear
    simp at clear
  · intro other
    simp only [lookup, flags, List.mem_cons]
    constructor
    · rintro (rfl | member)
      · exact ⟨place, found, if_pos rfl⟩
      · obtain ⟨at_, where_, clear⟩ := (valid.free other).mp member
        refine ⟨at_, where_, ?_⟩
        split
        · rfl
        · exact clear
    · rintro ⟨at_, where_, clear⟩
      split at clear
      · rename_i same
        exact .inl (valid.laid.address_unique where_ (same ▸ found))
      · exact .inr ((valid.free other).mpr ⟨at_, where_, clear⟩)
  · intro other
    simp only [Live, lookup, flags]
    constructor
    · rintro ⟨at_, where_, live⟩
      split at live
      · simp at live
      · rename_i apart
        refine ⟨?_, at_, where_, live⟩
        rintro rfl
        exact apart (Option.some.inj (where_.symm.trans found))
    · rintro ⟨apart, at_, where_, live⟩
      refine ⟨at_, where_, ?_⟩
      rw [if_neg]
      · exact live
      · intro same
        exact apart (valid.laid.address_unique where_ (same ▸ found))
  · intro other apart
    exact Function.update_of_ne apart _ _

end Titan.FixedObjectPool
