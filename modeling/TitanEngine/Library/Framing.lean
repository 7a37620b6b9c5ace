import Mathlib.Algebra.GroupWithZero.Nat
import Mathlib.Data.List.Basic
import TitanEngine.Library.Loop

/-!
# Incremental framing

A framer looks at unread elements and either takes an item off their front or waits for more.
What it takes is decided by what it saw: more elements behind do not change it. The reading of a
stream is the list of items taken until it has to wait, with the tail it waits on. Reading a
first part, then the tail with a second part behind it, is reading both parts at once. A code
writes values so that the framer takes them back one by one; when it writes every item, each
stream is the code of one list of values and a tail.
-/

namespace Library

variable {α β : Type*}

/-- Takes items off the front of a stream. -/
structure Framer (α β : Type*) where
  /-- The next item and how many elements it takes; none to wait. -/
  next : List α → Option (β × Nat)
  /-- An item takes something. -/
  progress : ∀ {unread item taken}, next unread = some (item, taken) → 0 < taken
  /-- An item takes only what was seen. -/
  within : ∀ {unread item taken}, next unread = some (item, taken) → taken ≤ unread.length
  /-- What arrives later does not change an item. -/
  stable : ∀ {unread item taken} (later : List α), next unread = some (item, taken) →
    next (unread ++ later) = some (item, taken)

namespace Framer

/-- The items of a stream up to the tail that has to wait. -/
inductive Reads (framer : Framer α β) : List α → List β → List α → Prop
  | wait {unread : List α} (waits : framer.next unread = none) : Reads framer unread [] unread
  | take {unread : List α} {item : β} {taken : Nat} {items : List β} {tail : List α}
      (takes : framer.next unread = some (item, taken))
      (rest : Reads framer (unread.drop taken) items tail) :
      Reads framer unread (item :: items) tail

variable {framer : Framer α β} {unread tail : List α} {items : List β}

/-- A stream has one reading. -/
theorem Reads.unique {others : List β} {other : List α} (left : framer.Reads unread items tail)
    (right : framer.Reads unread others other) : items = others ∧ tail = other := by
  induction left generalizing others other with
  | wait waits =>
    cases right with
    | wait _ => exact ⟨rfl, rfl⟩
    | take takes _ => simp [waits] at takes
  | take takes _ ih =>
    cases right with
    | wait waits => simp [takes] at waits
    | take again rest =>
      obtain ⟨rfl, rfl⟩ : _ = _ ∧ _ = _ := by simpa [takes] using again
      obtain ⟨rfl, rfl⟩ := ih rest
      exact ⟨rfl, rfl⟩

/-- The tail of a reading has to wait. -/
theorem Reads.waits (reads : framer.Reads unread items tail) : framer.next tail = none := by
  induction reads with
  | wait waits => exact waits
  | take _ _ ih => exact ih

/-- When every item tells how many elements it took, a stream is as long as its items and its
tail. -/
theorem Reads.length_eq {size : β → Nat}
    (sized : ∀ {unread item taken}, framer.next unread = some (item, taken) → taken = size item)
    (reads : framer.Reads unread items tail) :
    unread.length = (items.map size).sum + tail.length := by
  induction reads with
  | wait _ => simp
  | take takes _ ih =>
    have seen := framer.within takes
    rw [List.length_drop, sized takes] at ih
    rw [sized takes] at seen
    rw [List.map_cons, List.sum_cons]
    omega

/-- A reading may stop anywhere and go on from its tail with what arrived meanwhile. -/
theorem Reads.append {later final : List α} {others : List β}
    (first : framer.Reads unread items tail)
    (second : framer.Reads (tail ++ later) others final) :
    framer.Reads (unread ++ later) (items ++ others) final := by
  induction first with
  | wait _ => exact second
  | take takes _ ih =>
    refine .take (framer.stable later takes) ?_
    rw [List.drop_append_of_le_length (framer.within takes)]
    exact ih second

/-- Items that are taken off the front of whatever stands behind them are read back, one by one,
from their concatenation, and nothing is left. -/
theorem reads_flatMap {γ : Type*} (encode : γ → List α) (item : γ → β)
    (taken : ∀ value later,
      framer.next (encode value ++ later) = some (item value, (encode value).length))
    (empty : framer.next [] = none) (values : List γ) :
    framer.Reads (values.flatMap encode) (values.map item) [] := by
  induction values with
  | nil => exact .wait empty
  | cons value values ih =>
    refine .take (taken value (values.flatMap encode)) ?_
    rw [List.flatMap_cons, List.drop_left]
    exact ih

/-- Writes values as elements that the framer takes back. -/
structure Code (framer : Framer α β) (γ : Type*) where
  /-- The elements of a value. -/
  encode : γ → List α
  /-- The item that is found for a value. -/
  item : γ → β
  /-- A value is taken off the front of whatever stands behind it. -/
  taken : ∀ value later,
    framer.next (encode value ++ later) = some (item value, (encode value).length)
  /-- No two values are written alike. -/
  injective : ∀ {value other}, encode value = encode other → value = other
  /-- Every item was written as some value. -/
  covers : ∀ {unread item taken}, framer.next unread = some (item, taken) →
    ∃ value, encode value = unread.take taken

namespace Code

variable {γ : Type*} (code : framer.Code γ)

/-- A value that has not arrived whole has to wait. -/
theorem waits_of_take (value : γ) {arrived : ℕ} (cut : arrived < (code.encode value).length) :
    framer.next ((code.encode value).take arrived) = none := by
  cases found : framer.next ((code.encode value).take arrived) with
  | none => rfl
  | some next =>
    obtain ⟨item, taken⟩ := next
    -- what was taken of the part would be taken of the whole
    have whole := framer.stable ((code.encode value).drop arrived) found
    have again := code.taken value []
    rw [List.append_nil] at again
    rw [List.take_append_drop, again] at whole
    obtain ⟨_, size⟩ := Prod.mk.inj (Option.some.inj whole)
    have seen := framer.within found
    rw [List.length_take] at seen
    omega

/-- Values are read back, one by one, up to a tail that has to wait. -/
theorem reads (values : List γ) {part : List α} (waits : framer.next part = none) :
    framer.Reads (values.flatMap code.encode ++ part) (values.map code.item) part := by
  induction values with
  | nil => exact .wait waits
  | cons value values ih =>
    rw [List.flatMap_cons, List.append_assoc]
    refine .take (code.taken value (values.flatMap code.encode ++ part)) ?_
    rw [List.drop_left]
    exact ih

/-- Every stream is written as some values, and a tail that has to wait. -/
theorem exists_values (stream : List α) :
    ∃ (values : List γ) (part : List α),
      stream = values.flatMap code.encode ++ part ∧ framer.next part = none := by
  induction whole : stream.length using Nat.strongRecOn generalizing stream with
  | ind size ih =>
    cases found : framer.next stream with
    | none => exact ⟨[], stream, rfl, found⟩
    | some next =>
      obtain ⟨item, taken⟩ := next
      obtain ⟨value, written⟩ := code.covers found
      have moved := framer.progress found
      have seen := framer.within found
      have shorter : (stream.drop taken).length < size := by
        rw [List.length_drop]
        omega
      obtain ⟨values, part, rest, waits⟩ := ih _ shorter (stream.drop taken) rfl
      refine ⟨value :: values, part, ?_, waits⟩
      rw [List.flatMap_cons, List.append_assoc, ← rest, written, List.take_append_drop]

/-- They are the only ones. -/
theorem values_unique {values others : List γ} {part other : List α}
    (same : values.flatMap code.encode ++ part = others.flatMap code.encode ++ other)
    (waits : framer.next part = none) (otherWaits : framer.next other = none) :
    values = others ∧ part = other := by
  induction values generalizing others with
  | nil =>
    cases others with
    | nil => exact ⟨rfl, same⟩
    | cons first others =>
      rw [List.flatMap_nil, List.nil_append] at same
      rw [same, List.flatMap_cons, List.append_assoc, code.taken] at waits
      cases waits
  | cons value values ih =>
    cases others with
    | nil =>
      rw [List.flatMap_nil, List.nil_append] at same
      rw [← same, List.flatMap_cons, List.append_assoc, code.taken] at otherWaits
      cases otherWaits
    | cons first others =>
      rw [List.flatMap_cons, List.flatMap_cons, List.append_assoc, List.append_assoc] at same
      have found := code.taken value (values.flatMap code.encode ++ part)
      rw [same, code.taken] at found
      obtain ⟨_, size⟩ := Prod.mk.inj (Option.some.inj found)
      obtain ⟨written, rest⟩ := List.append_inj same size.symm
      obtain rfl := code.injective written
      obtain ⟨rfl, rfl⟩ := ih rest
      exact ⟨rfl, rfl⟩

/-- The values that stand whole in a first part of a stream are its first values. -/
theorem values_prefix {values others : List γ} {part : List α}
    (ahead : values.flatMap code.encode ++ part <+: others.flatMap code.encode) :
    values <+: others := by
  obtain ⟨more, whole⟩ := ahead
  obtain ⟨later, tail, rest, waits⟩ := code.exists_values (part ++ more)
  have empty : framer.next [] = none := by
    cases found : framer.next [] with
    | none => rfl
    | some next =>
      have moved := framer.progress found
      have seen := framer.within found
      exact absurd (Nat.lt_of_lt_of_le moved seen) (Nat.lt_irrefl 0)
  refine ⟨later, (code.values_unique ?_ waits empty).1⟩
  rw [List.flatMap_append, List.append_assoc, ← rest, ← List.append_assoc, whole, List.append_nil]

end Code

end Framer

end Library
