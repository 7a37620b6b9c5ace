import TitanEngine.Pipeline.SpscQueue

/-!
# What `size()` promises

`size()` loads the two indices one after the other while both threads go on. What it returns is
the difference of two counts taken at different moments, up to a round of the ring. A thread that
asks for itself learns more: the consumer sees how many of its next calls will get a value, and the
producer how much room is left for its next ones, whatever the other thread does meanwhile.
-/

namespace Titan

open Library

namespace Capacity

/-- The masked difference of two slots is the difference of their numbers, up to a round. -/
theorem slot_distance (capacity : Capacity) (number more : Nat) :
    ((capacity.slot (number + more)).val + capacity.size - (capacity.slot number).val) &&&
      capacity.mask = more % capacity.size := by
  have two := capacity.atLeastTwo
  have inside : number % capacity.size < capacity.size := Nat.mod_lt _ (by omega)
  have round : number + more + (capacity.size - number % capacity.size) =
      more + capacity.size * (number / capacity.size + 1) := by
    have parts := Nat.div_add_mod number capacity.size
    rw [Nat.mul_add, Nat.mul_one]
    omega
  rw [and_mask]
  show ((number + more) % capacity.size + capacity.size - number % capacity.size) % capacity.size =
    more % capacity.size
  rw [Nat.add_sub_assoc (Nat.le_of_lt inside), Nat.mod_add_mod, round, Nat.add_mul_mod_self_left]

end Capacity

namespace SpscSystem

variable {T : Type} {capacity : Capacity} {system : SpscSystem T capacity} {fifo : Fifo T}

/-- `size()` with the moves the threads make between its two loads; `head_` is loaded first. -/
def sizeAcross (moved : T → T) (system : SpscSystem T capacity) (between : List (SpscMove T)) :
    Nat :=
  { (run (step moved) system between).2.queue with head := system.queue.head }.size

/-- A run goes on as the bounded queue it holds. -/
theorem Holds.run (moved : T → T) (holds : system.Holds fifo) (moves : List (SpscMove T)) :
    ∃ final, Trace (FifoStep capacity.usable) fifo
        (Library.run (SpscSystem.step moved) system moves).1 final ∧
      (Library.run (SpscSystem.step moved) system moves).2.Holds final :=
  run_refines Holds (fun _ _ move kept => kept.step moved move) holds moves

/-- `size()` counts what waits at its second load and what was handed out since its first. -/
theorem Holds.sizeAcross (moved : T → T) (holds : system.Holds fifo)
    {between : List (SpscMove T)} {later : Fifo T}
    (still : (Library.run (SpscSystem.step moved) system between).2.Holds later)
    {handed : List T} (delivered : later.delivered = fifo.delivered ++ handed) :
    system.sizeAcross moved between =
      (handed.length + later.waiting.length) % capacity.size := by
  have distance := capacity.slot_distance fifo.delivered.length
    (handed.length + later.waiting.length)
  rw [← Nat.add_assoc, ← List.length_append, ← delivered, ← holds.head, ← still.tail] at distance
  exact distance

/-- Called at any moment of any run, with any moves between its loads, `size()` returns the number
of values published by its second load less those handed out by its first, up to a round. If none
is handed out between the loads, as when the consumer asks, it is exact at the second one, and
that many next calls of `try_dequeue` get those values in order. If none is published between
them, as when the producer asks, it is exact at the first one, and as many next calls of
`try_enqueue` as it leaves room for are accepted. -/
theorem size_promises (moved : T → T) (slots : Vector T capacity.size)
    (moves between later : List (SpscMove T)) :
    let first := run (step moved) (init slots) moves
    let second := run (step moved) (init slots) (moves ++ between)
    let seen := first.2.sizeAcross moved between
    let published := (enteredBy second.1).length
    seen = (published - (leftBy first.1).length) % capacity.size ∧
      (leftBy second.1 = leftBy first.1 →
        seen = published - (leftBy second.1).length ∧
          (takesOf (run (step moved) second.2 later).1).take seen <+:
            ((enteredBy second.1).drop (leftBy second.1).length).map some) ∧
      (enteredBy second.1 = enteredBy first.1 →
        seen = published - (leftBy first.1).length ∧
          ∀ accepted ∈ (putsOf (run (step moved) first.2 (between ++ later)).1).take
            (capacity.usable - seen), accepted = true) := by
  intro first second seen published
  obtain ⟨early, begun, holds⟩ := holds_run moved slots moves
  obtain ⟨late, passed, still⟩ := holds.run moved between
  obtain ⟨startDelivered, startEntered⟩ := begun.account
  obtain ⟨nextDelivered, nextEntered⟩ := passed.account
  simp only [Fifo.empty, List.nil_append] at startDelivered startEntered
  have count : seen = _ := holds.sizeAcross moved still nextDelivered
  have two := capacity.atLeastTwo
  have lateBound := still.bounded
  have earlyBound := holds.bounded
  have apart : second = (first.1 ++ (run (step moved) first.2 between).1,
      (run (step moved) first.2 between).2) := run_append _ _ _ _
  have left : leftBy second.1 = leftBy first.1 ++ leftBy (run (step moved) first.2 between).1 := by
    rw [apart]
    exact List.filterMap_append
  have entered : enteredBy second.1 =
      enteredBy first.1 ++ enteredBy (run (step moved) first.2 between).1 := by
    rw [apart]
    exact List.filterMap_append
  have accounts : leftBy second.1 ++ late.waiting = enteredBy second.1 := by
    rw [left, entered, ← startEntered, ← startDelivered, ← nextDelivered, nextEntered]
  have total : published = (leftBy second.1).length + late.waiting.length := by
    rw [← List.length_append, accounts]
  unfold Capacity.usable at lateBound earlyBound
  refine ⟨?_, ?_, ?_⟩
  · rw [count, total, left, List.length_append, Nat.add_assoc, Nat.add_sub_cancel_left]
  · intro none_
    have idle : leftBy (run (step moved) first.2 between).1 = [] :=
      List.append_cancel_left (left.symm.trans (none_.trans (List.append_nil _).symm))
    have exact_ : seen = late.waiting.length := by
      rw [count, idle, List.length_nil, Nat.zero_add, Nat.mod_eq_of_lt (by omega)]
    refine ⟨by rw [exact_, total, Nat.add_sub_cancel_left], ?_⟩
    obtain ⟨final, onward, _⟩ := still.run moved later
    have got := onward.takes (List.prefix_refl late.waiting)
    rw [exact_, ← accounts, List.drop_left, apart]
    exact got
  · intro none_
    have idle : enteredBy (run (step moved) first.2 between).1 = [] :=
      List.append_cancel_left (entered.symm.trans (none_.trans (List.append_nil _).symm))
    -- what was handed out since the first load waited there
    have shift : leftBy (run (step moved) first.2 between).1 ++ late.waiting = early.waiting := by
      rw [idle, List.append_nil, nextDelivered, List.append_assoc] at nextEntered
      exact List.append_cancel_left nextEntered
    have exact_ : seen = early.waiting.length := by
      rw [count, ← List.length_append, shift, Nat.mod_eq_of_lt (by omega)]
    refine ⟨?_, ?_⟩
    · rw [exact_, total, left, ← shift, List.length_append, List.length_append, Nat.add_assoc,
        Nat.add_sub_cancel_left]
    · obtain ⟨final, onward, _⟩ := holds.run moved (between ++ later)
      refine onward.puts ?_
      rw [exact_]
      exact Nat.le_of_eq (Nat.add_sub_cancel' holds.bounded)

end SpscSystem

end Titan
