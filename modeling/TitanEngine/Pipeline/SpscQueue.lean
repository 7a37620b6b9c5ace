import Mathlib.Data.Nat.ModEq
import TitanEngine.Library.Fifo

/-!
# The ring buffer between two threads

`SpscQueue` of `titan/pipeline/spsc_queue.hpp`, one step for each access to shared memory: the
loads and stores of the two indices and the accesses to a slot. One producer calls
`try_enqueue` and one consumer calls `try_dequeue`; a list of moves says whose turn it is, so
every list is an interleaving. The atomics are sequentially consistent.

What a moved-from object holds is not specified, so it is a parameter: reading a slot leaves
`moved value` in it.
-/

namespace Titan

open Library

/-- `Capacity`, with what the `static_assert` demands of it. -/
structure Capacity where
  /-- Number of slots. -/
  size : Nat
  /-- At least two slots. -/
  atLeastTwo : 2 ≤ size
  /-- A power of two. -/
  powerOfTwo : size &&& (size - 1) = 0

namespace Capacity

/-- A slot of the buffer. -/
abbrev Index (capacity : Capacity) := Fin capacity.size

/-- `capacity()`: one slot stays empty. -/
def usable (capacity : Capacity) : Nat := capacity.size - 1

/-- `kMask`. -/
def mask (capacity : Capacity) : Nat := capacity.size - 1

/-- The first slot. -/
def first (capacity : Capacity) : capacity.Index :=
  ⟨0, Nat.lt_of_lt_of_le Nat.zero_lt_two capacity.atLeastTwo⟩

/-- `advance`. -/
def advance (capacity : Capacity) (index : capacity.Index) : capacity.Index :=
  ⟨(index.val + 1) &&& capacity.mask, by
    have masked : (index.val + 1) &&& capacity.mask ≤ capacity.mask := Nat.and_le_right
    have positive := capacity.atLeastTwo
    unfold mask at masked ⊢
    omega⟩

/-- Masking is the remainder, for the capacity is a power of two. -/
theorem and_mask (capacity : Capacity) (number : Nat) :
    number &&& capacity.mask = number % capacity.size := by
  have positive : capacity.size ≠ 0 := by
    have two := capacity.atLeastTwo
    omega
  obtain ⟨exponent, power⟩ :=
    (Nat.and_sub_one_eq_zero_iff_isPowerOfTwo positive).mp capacity.powerOfTwo
  rw [mask, power]
  exact Nat.and_two_pow_sub_one_eq_mod number exponent

/-- The slot of the value with a number, counted from the first one ever enqueued. -/
def slot (capacity : Capacity) (number : Nat) : capacity.Index :=
  ⟨number % capacity.size, Nat.mod_lt _ (by
    have two := capacity.atLeastTwo
    omega)⟩

/-- The next slot is that of the next number. -/
theorem advance_slot (capacity : Capacity) (number : Nat) :
    capacity.advance (capacity.slot number) = capacity.slot (number + 1) := by
  apply Fin.ext
  show (number % capacity.size + 1) &&& capacity.mask = (number + 1) % capacity.size
  rw [and_mask, Nat.mod_add_mod]

/-- Numbers that are less than a round apart have different slots. -/
theorem slot_injective {capacity : Capacity} {base left right : Nat}
    (leftInside : left < capacity.size) (rightInside : right < capacity.size)
    (same : capacity.slot (base + left) = capacity.slot (base + right)) : left = right := by
  have congruent : base + left ≡ base + right [MOD capacity.size] := congrArg Fin.val same
  have cancelled := Nat.ModEq.add_left_cancel' base congruent
  exact Nat.ModEq.eq_of_lt_of_lt cancelled leftInside rightInside

end Capacity

/-- `SpscQueue`. -/
structure SpscQueue (T : Type) (capacity : Capacity) where
  /-- `buffer_`. -/
  buffer : Vector T capacity.size
  /-- `head_`. -/
  head : capacity.Index
  /-- `tail_`. -/
  tail : capacity.Index

namespace SpscQueue

variable {T : Type} {capacity : Capacity}

/-- `empty()`. -/
def empty (queue : SpscQueue T capacity) : Bool := decide (queue.head = queue.tail)

/-- `full()`. -/
def full (queue : SpscQueue T capacity) : Bool := decide (capacity.advance queue.tail = queue.head)

/-- `size()`. The difference wraps in `size_t`, which the mask makes the same as wrapping at the
capacity. -/
def size (queue : SpscQueue T capacity) : Nat :=
  (queue.tail.val + capacity.size - queue.head.val) &&& capacity.mask

end SpscQueue

/-- Where the producer is in a call of `try_enqueue`, with its locals. -/
inductive Producer (T : Type) (capacity : Capacity) where
  /-- Between two calls. -/
  | idle
  /-- `tail_` is loaded, `head_` is next. -/
  | loadedTail (item : T) (tail : capacity.Index)
  /-- There is room: the slot is written next. -/
  | hasRoom (item : T) (tail : capacity.Index)
  /-- The slot is written: `tail_` is stored next. -/
  | written (item : T) (tail : capacity.Index)

/-- Where the consumer is in a call of `try_dequeue`, with its locals. -/
inductive Consumer (T : Type) (capacity : Capacity) where
  /-- Between two calls. -/
  | idle
  /-- `head_` is loaded, `tail_` is next. -/
  | loadedHead (head : capacity.Index)
  /-- There is a value: the slot is read next. -/
  | hasValue (head : capacity.Index)
  /-- The slot is read: `head_` is stored next. -/
  | read (head : capacity.Index) (out : T)

/-- The queue with its two threads. -/
structure SpscSystem (T : Type) (capacity : Capacity) where
  /-- Shared memory. -/
  queue : SpscQueue T capacity
  /-- The thread that calls `try_enqueue`. -/
  producer : Producer T capacity
  /-- The thread that calls `try_dequeue`. -/
  consumer : Consumer T capacity

/-- Whose turn it is. -/
inductive SpscMove (T : Type) where
  /-- The producer calls `try_enqueue`; nothing happens while a call is in progress. -/
  | enqueue (item : T)
  /-- The producer goes on with its call, if it is in one. -/
  | producer
  /-- The consumer goes on with its call, or begins the next one. -/
  | consumer
  deriving DecidableEq, Repr

namespace SpscSystem

variable {T : Type} {capacity : Capacity}

/-- A new queue; the slots hold whatever the default constructor puts there. -/
def init (slots : Vector T capacity.size) : SpscSystem T capacity where
  queue := { buffer := slots, head := capacity.first, tail := capacity.first }
  producer := .idle
  consumer := .idle

/-- The next step of `try_enqueue`. -/
def producerStep (system : SpscSystem T capacity) :
    Option (QueueOutcome T) × SpscSystem T capacity :=
  match system.producer with
  | .idle => (none, system)
  | .loadedTail item tail =>
    if capacity.advance tail = system.queue.head then
      (some (.refused item), { system with producer := .idle })
    else (none, { system with producer := .hasRoom item tail })
  | .hasRoom item tail =>
    (none, { system with
      queue := { system.queue with buffer := system.queue.buffer.set tail item }
      producer := .written item tail })
  | .written item tail =>
    (some (.enqueued item), { system with
      queue := { system.queue with tail := capacity.advance tail }
      producer := .idle })

/-- The next step of `try_dequeue`. -/
def consumerStep (moved : T → T) (system : SpscSystem T capacity) :
    Option (QueueOutcome T) × SpscSystem T capacity :=
  match system.consumer with
  | .idle => (none, { system with consumer := .loadedHead system.queue.head })
  | .loadedHead head =>
    if head = system.queue.tail then (some .empty, { system with consumer := .idle })
    else (none, { system with consumer := .hasValue head })
  | .hasValue head =>
    let out := system.queue.buffer.get head
    (none, { system with
      queue := { system.queue with buffer := system.queue.buffer.set head (moved out) }
      consumer := .read head out })
  | .read head out =>
    (some (.dequeued out), { system with
      queue := { system.queue with head := capacity.advance head }
      consumer := .idle })

/-- One step of either thread. -/
def step (moved : T → T) (system : SpscSystem T capacity) (move : SpscMove T) :
    Option (QueueOutcome T) × SpscSystem T capacity :=
  match move with
  | .enqueue item =>
    match system.producer with
    | .idle => (none, { system with producer := .loadedTail item system.queue.tail })
    | _ => (none, system)
  | .producer => system.producerStep
  | .consumer => system.consumerStep moved

/-- How many of the waiting values the consumer has read already. -/
def taken : Consumer T capacity → Nat
  | .read _ _ => 1
  | _ => 0

/-- The producer's locals are current, the room it saw is still there and what it wrote is in
its slot. -/
def ProducerFits (queue : SpscQueue T capacity) (waiting : List T) : Producer T capacity → Prop
  | .idle => True
  | .loadedTail _ tail => tail = queue.tail
  | .hasRoom _ tail => tail = queue.tail ∧ waiting.length < capacity.usable
  | .written item tail =>
    tail = queue.tail ∧ waiting.length < capacity.usable ∧ queue.buffer.get tail = item

/-- The consumer's locals are current, the value it saw is still there and what it read is the
front value. -/
def ConsumerFits (queue : SpscQueue T capacity) (waiting : List T) : Consumer T capacity → Prop
  | .idle => True
  | .loadedHead head => head = queue.head
  | .hasValue head => head = queue.head ∧ waiting ≠ []
  | .read head out => head = queue.head ∧ waiting.head? = some out

/-- The two threads and the memory hold a queue with its history. -/
structure Holds (system : SpscSystem T capacity) (fifo : Fifo T) : Prop where
  /-- The head is the slot of the oldest waiting value. -/
  head : system.queue.head = capacity.slot fifo.delivered.length
  /-- The tail is the slot of the next value. -/
  tail : system.queue.tail = capacity.slot (fifo.delivered.length + fifo.waiting.length)
  /-- One slot stays empty. -/
  bounded : fifo.waiting.length ≤ capacity.usable
  /-- A value that waits and was not read is in its slot. -/
  stored : ∀ (index : Nat) (inside : index < fifo.waiting.length),
    taken system.consumer ≤ index →
      system.queue.buffer.get (capacity.slot (fifo.delivered.length + index)) = fifo.waiting[index]
  /-- The producer is in step. -/
  producer : ProducerFits system.queue fifo.waiting system.producer
  /-- The consumer is in step. -/
  consumer : ConsumerFits system.queue fifo.waiting system.consumer

/-- A new queue holds nothing. -/
theorem holds_init (slots : Vector T capacity.size) : (init slots).Holds Fifo.empty where
  head := Fin.ext (Nat.zero_mod _).symm
  tail := Fin.ext (Nat.zero_mod _).symm
  bounded := Nat.zero_le _
  stored index inside := absurd inside (Nat.not_lt_zero index)
  producer := trivial
  consumer := trivial

variable {system : SpscSystem T capacity} {fifo : Fifo T}

/-- The next index is the head exactly when no usable slot is free. -/
theorem Holds.full_iff (holds : system.Holds fifo) :
    capacity.advance system.queue.tail = system.queue.head ↔
      fifo.waiting.length = capacity.usable := by
  have two := capacity.atLeastTwo
  have bounded := holds.bounded
  rw [holds.tail, holds.head, Capacity.advance_slot]
  unfold Capacity.usable at bounded ⊢
  constructor
  · intro same
    by_contra short
    have round : capacity.slot (fifo.delivered.length + (fifo.waiting.length + 1)) =
        capacity.slot (fifo.delivered.length + 0) := same
    have none_ := Capacity.slot_injective (by omega) (by omega) round
    omega
  · intro full
    apply Fin.ext
    have round : fifo.delivered.length + fifo.waiting.length + 1 =
        fifo.delivered.length + capacity.size := by omega
    show (fifo.delivered.length + fifo.waiting.length + 1) % capacity.size = _
    rw [round, Nat.add_mod_right]
    rfl

/-- The indices meet exactly when nothing waits. -/
theorem Holds.empty_iff (holds : system.Holds fifo) :
    system.queue.head = system.queue.tail ↔ fifo.waiting = [] := by
  have two := capacity.atLeastTwo
  have bounded := holds.bounded
  rw [holds.tail, holds.head]
  unfold Capacity.usable at bounded
  constructor
  · intro same
    have round : capacity.slot (fifo.delivered.length + 0) =
        capacity.slot (fifo.delivered.length + fifo.waiting.length) := same
    have none_ := Capacity.slot_injective (by omega) (by omega) round
    exact List.length_eq_zero_iff.mp none_.symm
  · intro nothing
    rw [nothing]
    rfl

/-- `empty()` and `full()` answer for the values that wait, and `size()` counts them. -/
theorem Holds.counts (holds : system.Holds fifo) :
    (system.queue.empty = true ↔ fifo.waiting = []) ∧
      (system.queue.full = true ↔ fifo.waiting.length = capacity.usable) ∧
      system.queue.size = fifo.waiting.length := by
  refine ⟨?_, ?_, ?_⟩
  · rw [SpscQueue.empty, decide_eq_true_eq]
    exact holds.empty_iff
  · rw [SpscQueue.full, decide_eq_true_eq]
    exact holds.full_iff
  · have two := capacity.atLeastTwo
    have bounded := holds.bounded
    unfold Capacity.usable at bounded
    have short : fifo.waiting.length < capacity.size := by omega
    have inside : fifo.delivered.length % capacity.size < capacity.size :=
      Nat.mod_lt _ (by omega)
    rw [SpscQueue.size, Capacity.and_mask, holds.head, holds.tail]
    show ((fifo.delivered.length + fifo.waiting.length) % capacity.size + capacity.size -
      fifo.delivered.length % capacity.size) % capacity.size = _
    rw [Nat.add_mod, Nat.mod_eq_of_lt short]
    by_cases wraps : fifo.delivered.length % capacity.size + fifo.waiting.length < capacity.size
    · have tail : (fifo.delivered.length % capacity.size + fifo.waiting.length) % capacity.size =
          fifo.delivered.length % capacity.size + fifo.waiting.length := Nat.mod_eq_of_lt wraps
      rw [tail, show fifo.delivered.length % capacity.size + fifo.waiting.length + capacity.size -
        fifo.delivered.length % capacity.size = fifo.waiting.length + capacity.size by omega,
        Nat.add_mod_right, Nat.mod_eq_of_lt short]
    · have tail : (fifo.delivered.length % capacity.size + fifo.waiting.length) % capacity.size =
          fifo.delivered.length % capacity.size + fifo.waiting.length - capacity.size := by
        rw [Nat.mod_eq_sub_mod (Nat.le_of_not_lt wraps)]
        exact Nat.mod_eq_of_lt (by omega)
      rw [tail, show fifo.delivered.length % capacity.size + fifo.waiting.length - capacity.size +
        capacity.size - fifo.delivered.length % capacity.size = fifo.waiting.length by omega,
        Nat.mod_eq_of_lt short]

/-- A slot that is written holds what was written. -/
theorem get_set_self {buffer : Vector T capacity.size} {index : capacity.Index} {item : T} :
    (buffer.set index item).get index = item := by
  exact Vector.getElem_set_self _

/-- Writing a slot leaves the others alone. -/
theorem get_set_ne {buffer : Vector T capacity.size} {index other : capacity.Index} {item : T}
    (apart : other ≠ index) : (buffer.set index item).get other = buffer.get other := by
  exact Vector.getElem_set_ne _ _ (fun same => apart (Fin.ext same.symm))

/-- A producer in step stays so while its tail is not touched and nothing more waits. -/
theorem ProducerFits.congr {queue other : SpscQueue T capacity} {waiting later : List T}
    {producer : Producer T capacity} (fits : ProducerFits queue waiting producer)
    (tail : other.tail = queue.tail) (fewer : later.length ≤ waiting.length)
    (slot : other.buffer.get queue.tail = queue.buffer.get queue.tail) :
    ProducerFits other later producer := by
  cases producer with
  | idle => trivial
  | loadedTail item loaded => exact fits.trans tail.symm
  | hasRoom item loaded => exact ⟨fits.1.trans tail.symm, Nat.lt_of_le_of_lt fewer fits.2⟩
  | written item loaded =>
    obtain ⟨rfl, room, stored⟩ := fits
    exact ⟨tail.symm, Nat.lt_of_le_of_lt fewer room, slot.trans stored⟩

/-- A consumer in step stays so while its head is not touched and the front value waits. -/
theorem ConsumerFits.congr {queue other : SpscQueue T capacity} {waiting later : List T}
    {consumer : Consumer T capacity} (fits : ConsumerFits queue waiting consumer)
    (head : other.head = queue.head)
    (front : ∀ out, waiting.head? = some out → later.head? = some out) :
    ConsumerFits other later consumer := by
  cases consumer with
  | idle => trivial
  | loadedHead loaded => exact fits.trans head.symm
  | hasValue loaded =>
    refine ⟨fits.1.trans head.symm, ?_⟩
    obtain ⟨out, rest, shape⟩ := List.exists_cons_of_ne_nil fits.2
    have still := front out (by rw [shape, List.head?_cons])
    intro nothing
    rw [nothing] at still
    simp at still
  | read loaded out => exact ⟨fits.1.trans head.symm, front out fits.2⟩

/-- The slot of the next value is none of those that wait. -/
theorem Holds.slot_ne_tail (holds : system.Holds fifo) {index : Nat}
    (inside : index < fifo.waiting.length) :
    capacity.slot (fifo.delivered.length + index) ≠ system.queue.tail := by
  intro same
  have two := capacity.atLeastTwo
  have bounded := holds.bounded
  unfold Capacity.usable at bounded
  rw [holds.tail] at same
  have equal := Capacity.slot_injective (by omega) (by omega) same
  omega

/-- Every step of `try_enqueue` is a step of the bounded queue. -/
theorem Holds.producerStep (holds : system.Holds fifo) :
    ∃ next, FifoStep capacity.usable fifo system.producerStep.1 next ∧
      system.producerStep.2.Holds next := by
  have fits := holds.producer
  cases phase : system.producer with
  | idle =>
    simp only [SpscSystem.producerStep, phase]
    exact ⟨fifo, .silent, holds⟩
  | loadedTail item tail =>
    rw [phase] at fits
    obtain rfl : tail = system.queue.tail := fits
    simp only [SpscSystem.producerStep, phase]
    by_cases full : capacity.advance system.queue.tail = system.queue.head
    · rw [if_pos full]
      exact ⟨fifo, .refused (holds.full_iff.mp full), { holds with producer := trivial }⟩
    · rw [if_neg full]
      have room : fifo.waiting.length < capacity.usable :=
        lt_of_le_of_ne holds.bounded (fun all => full (holds.full_iff.mpr all))
      exact ⟨fifo, .silent, { holds with producer := ⟨rfl, room⟩ }⟩
  | hasRoom item tail =>
    rw [phase] at fits
    obtain ⟨rfl, room⟩ := fits
    simp only [SpscSystem.producerStep, phase]
    refine ⟨fifo, .silent, { holds with stored := ?_, producer := ?_, consumer := ?_ }⟩
    · intro index inside unread
      have other := holds.slot_ne_tail inside
      rw [← holds.stored index inside unread]
      exact get_set_ne other
    · exact ⟨rfl, room, get_set_self⟩
    · exact holds.consumer.congr rfl (fun _ front => front)
  | written item tail =>
    rw [phase] at fits
    obtain ⟨rfl, room, stored⟩ := fits
    simp only [SpscSystem.producerStep, phase]
    refine ⟨_, .enqueued room, ?_⟩
    constructor
    · exact holds.head
    · show capacity.advance system.queue.tail = _
      rw [holds.tail, Capacity.advance_slot, List.length_append, List.length_singleton,
        Nat.add_assoc]
    · show (fifo.waiting ++ [item]).length ≤ capacity.usable
      rw [List.length_append, List.length_singleton]
      exact room
    · intro index inside unread
      by_cases old : index < fifo.waiting.length
      · show system.queue.buffer.get (capacity.slot (fifo.delivered.length + index)) = _
        rw [holds.stored index old unread, List.getElem_append_left old]
      · have last : index = fifo.waiting.length := by
          rw [List.length_append, List.length_singleton] at inside
          omega
        subst last
        show system.queue.buffer.get
          (capacity.slot (fifo.delivered.length + fifo.waiting.length)) = _
        rw [← holds.tail, stored]
        simp
    · trivial
    · refine holds.consumer.congr rfl ?_
      intro out front
      rw [List.head?_append, front]
      rfl

/-- Every step of `try_dequeue` is a step of the bounded queue. -/
theorem Holds.consumerStep (moved : T → T) (holds : system.Holds fifo) :
    ∃ next, FifoStep capacity.usable fifo (system.consumerStep moved).1 next ∧
      (system.consumerStep moved).2.Holds next := by
  have fits := holds.consumer
  cases phase : system.consumer with
  | idle =>
    simp only [SpscSystem.consumerStep, phase]
    refine ⟨fifo, .silent, { holds with stored := ?_, consumer := rfl }⟩
    intro index inside _
    exact holds.stored index inside (by rw [phase]; exact Nat.zero_le index)
  | loadedHead head =>
    rw [phase] at fits
    obtain rfl : head = system.queue.head := fits
    have unread : ∀ (index : Nat) (inside : index < fifo.waiting.length),
        system.queue.buffer.get (capacity.slot (fifo.delivered.length + index)) =
          fifo.waiting[index] :=
      fun index inside => holds.stored index inside (by rw [phase]; exact Nat.zero_le index)
    simp only [SpscSystem.consumerStep, phase]
    by_cases met : system.queue.head = system.queue.tail
    · rw [if_pos met]
      exact ⟨fifo, .empty (holds.empty_iff.mp met),
        { holds with stored := fun index inside _ => unread index inside, consumer := trivial }⟩
    · rw [if_neg met]
      exact ⟨fifo, .silent,
        { holds with
          stored := fun index inside _ => unread index inside
          consumer := ⟨rfl, fun nothing => met (holds.empty_iff.mpr nothing)⟩ }⟩
  | hasValue head =>
    rw [phase] at fits
    obtain ⟨rfl, some_⟩ := fits
    obtain ⟨out, rest, shape⟩ := List.exists_cons_of_ne_nil some_
    have positive : 0 < fifo.waiting.length := by
      rw [shape]
      exact Nat.zero_lt_succ _
    have front : system.queue.buffer.get system.queue.head = out := by
      have stored := holds.stored 0 positive (by rw [phase]; exact Nat.le_refl 0)
      rw [holds.head]
      simpa [shape] using stored
    simp only [SpscSystem.consumerStep, phase]
    refine ⟨fifo, .silent, { holds with stored := ?_, producer := ?_, consumer := ?_ }⟩
    · intro index inside unread
      have behind : 0 < index := unread
      have other : capacity.slot (fifo.delivered.length + index) ≠ system.queue.head := by
        intro same
        have two := capacity.atLeastTwo
        have bounded := holds.bounded
        unfold Capacity.usable at bounded
        rw [holds.head] at same
        have round : capacity.slot (fifo.delivered.length + index) =
            capacity.slot (fifo.delivered.length + 0) := same
        have equal := Capacity.slot_injective (by omega) (by omega) round
        omega
      rw [← holds.stored index inside (by rw [phase]; exact Nat.zero_le index)]
      exact get_set_ne other
    · refine holds.producer.congr rfl (Nat.le_refl _) ?_
      have apart : system.queue.head ≠ system.queue.tail :=
        fun met => some_ (holds.empty_iff.mp met)
      exact get_set_ne apart.symm
    · exact ⟨rfl, by rw [front, shape, List.head?_cons]⟩
  | read head out =>
    rw [phase] at fits
    obtain ⟨rfl, front⟩ := fits
    obtain ⟨rest, shape⟩ : ∃ rest, fifo.waiting = out :: rest := by
      cases values : fifo.waiting with
      | nil => simp [values] at front
      | cons first rest =>
        obtain rfl : first = out := by simpa [values] using front
        exact ⟨rest, rfl⟩
    simp only [SpscSystem.consumerStep, phase]
    refine ⟨_, .dequeued shape, ?_⟩
    have count : (fifo.delivered ++ [out]).length = fifo.delivered.length + 1 := by simp
    constructor
    · show capacity.advance system.queue.head = _
      rw [holds.head, Capacity.advance_slot, count]
    · show system.queue.tail = capacity.slot ((fifo.delivered ++ [out]).length + rest.length)
      rw [holds.tail, shape, count, List.length_cons, Nat.add_assoc, Nat.add_comm 1]
    · have bounded := holds.bounded
      rw [shape, List.length_cons] at bounded
      exact Nat.le_of_succ_le bounded
    · intro index inside _
      have stored := holds.stored (index + 1) (by rw [shape]; exact Nat.succ_lt_succ inside)
        (by rw [phase]; exact Nat.le_add_left 1 index)
      show system.queue.buffer.get (capacity.slot ((fifo.delivered ++ [out]).length + index)) = _
      simp only [count, Nat.add_assoc, Nat.add_comm 1 index]
      simpa [shape] using stored
    · refine holds.producer.congr rfl ?_ rfl
      rw [shape]
      exact Nat.le_succ _
    · trivial

/-- Every step is a step of the bounded queue. -/
theorem Holds.step (moved : T → T) (holds : system.Holds fifo) (move : SpscMove T) :
    ∃ next, FifoStep capacity.usable fifo (system.step moved move).1 next ∧
      (system.step moved move).2.Holds next := by
  cases move with
  | enqueue item =>
    cases phase : system.producer with
    | idle =>
      simp only [SpscSystem.step, phase]
      exact ⟨fifo, .silent, { holds with producer := rfl }⟩
    | _ =>
      simp only [SpscSystem.step, phase]
      exact ⟨fifo, .silent, holds⟩
  | producer => exact holds.producerStep
  | consumer => exact holds.consumerStep moved

/-- Every interleaving is a run of the bounded queue. -/
theorem holds_run (moved : T → T) (slots : Vector T capacity.size) (moves : List (SpscMove T)) :
    ∃ fifo, Trace (FifoStep capacity.usable) Fifo.empty
        (run (SpscSystem.step moved) (init slots) moves).1 fifo ∧
      (run (SpscSystem.step moved) (init slots) moves).2.Holds fifo :=
  run_refines Holds (fun _ _ move holds => holds.step moved move) (holds_init slots) moves

/-- What the calls answered and the memory behave as a bounded queue. -/
structure RefinesFifo (outcomes : List (Option (QueueOutcome T)))
    (system : SpscSystem T capacity) : Prop where
  /-- The answers are those of a queue of `capacity()` values. -/
  answers : ∃ fifo, Trace (FifoStep capacity.usable) Fifo.empty outcomes fifo
  /-- The dequeued values are a prefix of the enqueued ones, in their order. -/
  inOrder : leftBy outcomes <+: enteredBy outcomes
  /-- At most one value less than there are slots is published and not dequeued. -/
  outstanding : (enteredBy outcomes).length ≤ (leftBy outcomes).length + (capacity.size - 1)
  /-- A published value that was not read yet is in its slot. -/
  kept : ∀ (number : Nat) (published : number < (enteredBy outcomes).length),
    (leftBy outcomes).length + taken system.consumer ≤ number →
      system.queue.buffer.get (capacity.slot number) = (enteredBy outcomes)[number]
  /-- The producer never is about to write the slot of such a value. -/
  untouched : ∀ (number : Nat), number < (enteredBy outcomes).length →
    (leftBy outcomes).length + taken system.consumer ≤ number →
      ∀ item, system.producer ≠ .hasRoom item (capacity.slot number)

/-- A call of `try_enqueue` that fails, whatever the consumer does meanwhile, gives the item back
as it was, and leaves what the consumer alone would have left. -/
def FailureLeavesNoTrace (moved : T → T) (system : SpscSystem T capacity) : Prop :=
  ∀ (item returned : T) (count : Nat), system.producer = .idle →
    let consumed := List.replicate count SpscMove.consumer
    let called := run (SpscSystem.step moved) system (.enqueue item :: consumed ++ [.producer])
    called.1.getLast? = some (some (.refused returned)) →
      returned = item ∧ called.2 = (run (SpscSystem.step moved) system consumed).2

/-- A trace that ends in what the memory holds makes the memory behave as the queue. -/
theorem Holds.refines {outcomes : List (Option (QueueOutcome T))} (holds : system.Holds fifo)
    (trace : Trace (FifoStep capacity.usable) Fifo.empty outcomes fifo) :
    RefinesFifo outcomes system := by
  obtain ⟨delivered, entered⟩ := trace.account
  obtain ⟨handed, waiting⟩ := fifo
  simp only [Fifo.empty, List.nil_append] at delivered entered
  subst delivered
  have bounded := holds.bounded
  -- a value that waits has its number behind those that were handed out
  have split : ∀ number, number < (enteredBy outcomes).length →
      (leftBy outcomes).length ≤ number →
      ∃ index, number = (leftBy outcomes).length + index ∧ index < waiting.length := by
    intro number published unread
    rw [← entered, List.length_append] at published
    exact ⟨number - (leftBy outcomes).length, by omega, by omega⟩
  constructor
  · exact ⟨_, trace⟩
  · exact ⟨waiting, entered⟩
  · rw [← entered, List.length_append]
    exact Nat.add_le_add_left bounded _
  · intro number published unread
    obtain ⟨index, rfl, inside⟩ := split number published (Nat.le_of_add_right_le unread)
    have stored := holds.stored index inside (Nat.le_of_add_le_add_left unread)
    rw [stored]
    simp only [← entered, List.getElem_append_right (Nat.le_add_right _ _),
      Nat.add_sub_cancel_left]
  · intro number published unread item writing
    obtain ⟨index, rfl, inside⟩ := split number published (Nat.le_of_add_right_le unread)
    have fits := holds.producer
    rw [writing] at fits
    exact holds.slot_ne_tail inside fits.1

/-- The consumer's steps neither read nor change where the producer is. -/
theorem consumerStep_producer (moved : T → T) (system : SpscSystem T capacity)
    (producer : Producer T capacity) :
    ({ system with producer := producer } : SpscSystem T capacity).consumerStep moved =
      ((system.consumerStep moved).1,
        { (system.consumerStep moved).2 with producer := producer }) := by
  cases phase : system.consumer with
  | loadedHead head =>
    simp only [SpscSystem.consumerStep, phase]
    split_ifs <;> rfl
  | _ => simp only [SpscSystem.consumerStep, phase]

/-- Neither do any number of them. -/
theorem run_consumer_producer (moved : T → T) (system : SpscSystem T capacity)
    (producer : Producer T capacity) (count : Nat) :
    run (SpscSystem.step moved) { system with producer := producer }
        (List.replicate count .consumer) =
      ((run (SpscSystem.step moved) system (List.replicate count .consumer)).1,
        { (run (SpscSystem.step moved) system (List.replicate count .consumer)).2 with
          producer := producer }) := by
  induction count generalizing system with
  | zero => rfl
  | succ count ih =>
    have first := consumerStep_producer moved system producer
    have later := ih (system.consumerStep moved).2
    simp only [List.replicate_succ, run, SpscSystem.step, first, later]

/-- A failed `try_enqueue` only loads the two indices. -/
theorem failureLeavesNoTrace (moved : T → T) (system : SpscSystem T capacity) :
    FailureLeavesNoTrace moved system := by
  intro item returned count idle consumed called failed
  have kept := run_consumer_producer moved system system.producer count
  have ended : (run (SpscSystem.step moved) system consumed).2.producer = .idle := by
    rw [← idle]
    exact congrArg (fun result => result.2.producer) kept
  have called_eq : called = run (SpscSystem.step moved) system
      (.enqueue item :: consumed ++ [.producer]) := rfl
  have begun := run_consumer_producer moved system (.loadedTail item system.queue.tail) count
  simp only [List.cons_append, run, SpscSystem.step, idle, run_append] at called_eq
  rw [begun] at called_eq
  simp only [SpscSystem.producerStep] at called_eq
  by_cases full : capacity.advance system.queue.tail =
      (run (SpscSystem.step moved) system consumed).2.queue.head
  · rw [if_pos full] at called_eq
    rw [called_eq] at failed ⊢
    have same : item = returned := by simpa [List.getLast?_cons] using failed
    refine ⟨same.symm, ?_⟩
    show ({ (run (SpscSystem.step moved) system consumed).2 with producer := .idle } :
      SpscSystem T capacity) = _
    rw [← ended]
  · rw [if_neg full] at called_eq
    rw [called_eq] at failed
    simp [List.getLast?_cons] at failed

/-- Every interleaving of the steps of one producer and one consumer, for every capacity, every
element type and every initial contents of the slots, is a run of a bounded first-in first-out
queue: nothing is lost, repeated or overtaken, no slot is overwritten before it is read, and a
call that fails leaves no trace. -/
theorem refines_bounded_fifo (moved : T → T) (slots : Vector T capacity.size)
    (moves : List (SpscMove T)) :
    RefinesFifo (run (SpscSystem.step moved) (init slots) moves).1
        (run (SpscSystem.step moved) (init slots) moves).2 ∧
      FailureLeavesNoTrace moved (run (SpscSystem.step moved) (init slots) moves).2 := by
  obtain ⟨fifo, trace, holds⟩ := holds_run moved slots moves
  exact ⟨holds.refines trace, failureLeavesNoTrace moved _⟩

/-- With two slots the second value waits until the first one is out, then takes the other
slot. -/
example :
    (run (SpscSystem.step id)
      (init (Vector.replicate 2 0) : SpscSystem Nat ⟨2, by decide, by decide⟩)
      [.enqueue 7, .producer, .producer, .producer, .enqueue 8, .producer, .consumer, .consumer,
        .consumer, .consumer, .enqueue 8, .producer, .producer, .consumer, .producer]).1 =
      [none, none, none, some (.enqueued 7), none, some (.refused 8), none, none, none,
        some (.dequeued 7), none, none, none, none, some (.enqueued 8)] := by
  decide

end SpscSystem

end Titan
