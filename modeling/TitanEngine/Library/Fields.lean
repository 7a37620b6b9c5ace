import Mathlib.Data.List.Induction
import Mathlib.Data.Nat.ModEq
import Mathlib.Tactic.Linarith
import Mathlib.Tactic.Ring

/-!
# Fixed-width fields

A number is written as a fixed count of bytes, the highest first, and such bytes stand for one
number. A field is a writer and a reader at an offset; it is exact when reading finds the value
whose bytes stand there and writing that value puts the same bytes back. Bytes from an offset on
are then a written value and a rest exactly when the reader returns the value there and the rest
starts where the field ends, so that a record written field by field is compared with its
readers one field at a time.
-/

namespace Library

/-- The low `width` bytes of a number, the highest first. -/
def bigEndian : Nat → Nat → List UInt8
  | 0, _ => []
  | width + 1, value => UInt8.ofNat (value / 256 ^ width) :: bigEndian width value

/-- The number that bytes stand for, the highest first. -/
def ofBigEndian (bytes : List UInt8) : Nat :=
  bytes.foldl (fun value byte => value * 256 + byte.toNat) 0

@[simp] theorem length_bigEndian (width value : Nat) : (bigEndian width value).length = width := by
  induction width with
  | zero => rfl
  | succ width ih => simp [bigEndian, ih]

/-- One byte further down. -/
theorem ofBigEndian_concat (bytes : List UInt8) (byte : UInt8) :
    ofBigEndian (bytes ++ [byte]) = ofBigEndian bytes * 256 + byte.toNat := by
  simp [ofBigEndian]

/-- The first byte counts for all the bytes behind it. -/
theorem ofBigEndian_cons (byte : UInt8) (bytes : List UInt8) :
    ofBigEndian (byte :: bytes) = byte.toNat * 256 ^ bytes.length + ofBigEndian bytes := by
  induction bytes using List.reverseRecOn with
  | nil => simp [ofBigEndian]
  | append_singleton bytes last ih =>
    rw [← List.cons_append, ofBigEndian_concat, ofBigEndian_concat, ih, List.length_append,
      List.length_singleton, Nat.pow_succ]
    ring

/-- Bytes stand for a number of their own width. -/
theorem ofBigEndian_lt (bytes : List UInt8) : ofBigEndian bytes < 256 ^ bytes.length := by
  induction bytes with
  | nil => simp [ofBigEndian]
  | cons byte bytes ih =>
    have small : byte.toNat < 256 := byte.toNat_lt
    have top : (byte.toNat + 1) * 256 ^ bytes.length ≤ 256 * 256 ^ bytes.length :=
      Nat.mul_le_mul_right _ small
    rw [ofBigEndian_cons, List.length_cons, Nat.pow_succ]
    linarith

/-- Only the low bytes of a number are written. -/
theorem ofBigEndian_bigEndian (width value : Nat) :
    ofBigEndian (bigEndian width value) = value % 256 ^ width := by
  induction width with
  | zero => simp [bigEndian, ofBigEndian, Nat.mod_one]
  | succ width ih =>
    rw [bigEndian, ofBigEndian_cons, length_bigEndian, ih, Nat.mod_pow_succ, UInt8.toNat_ofNat']
    ring

/-- Bytes of one width that stand for one number are the same bytes. -/
theorem ofBigEndian_injective {left right : List UInt8} (width : left.length = right.length)
    (same : ofBigEndian left = ofBigEndian right) : left = right := by
  induction left generalizing right with
  | nil => simpa using width.symm
  | cons first left ih =>
    match right, width with
    | second :: right, width =>
      have shorter : left.length = right.length := by simpa using width
      rw [ofBigEndian_cons, ofBigEndian_cons, shorter] at same
      have below := ofBigEndian_lt left
      have above := ofBigEndian_lt right
      rw [shorter] at below
      have positive : 0 < 256 ^ right.length := Nat.pow_pos (by decide)
      have heads : first.toNat = second.toNat := by
        have quotient := congrArg (· / 256 ^ right.length) same
        simpa [Nat.mul_comm _ (256 ^ right.length), Nat.mul_add_div positive,
          Nat.div_eq_of_lt below, Nat.div_eq_of_lt above] using quotient
      have tails : ofBigEndian left = ofBigEndian right := by
        rw [heads] at same
        omega
      rw [UInt8.toNat_inj.mp heads, ih shorter tails]

/-- Bytes are what their number is written as. -/
theorem bigEndian_ofBigEndian (bytes : List UInt8) :
    bigEndian bytes.length (ofBigEndian bytes) = bytes := by
  apply ofBigEndian_injective (length_bigEndian _ _)
  rw [ofBigEndian_bigEndian, Nat.mod_eq_of_lt (ofBigEndian_lt bytes)]

/-- A field of fixed width. -/
structure WireField (α : Type) where
  /-- How many bytes it takes. -/
  width : Nat
  /-- The bytes of a value. -/
  write : α → List UInt8
  /-- The value at an offset. -/
  read : List UInt8 → Nat → α

namespace WireField

variable {α : Type} {field : WireField α} {fits : α → Prop} {bytes rest : List UInt8}
variable {offset : Nat} {value : α}

/-- The bytes of the field at an offset. -/
def window (field : WireField α) (bytes : List UInt8) (offset : Nat) : List UInt8 :=
  (bytes.drop offset).take field.width

/-- A field reads back the values that fit and writes back the bytes it read. -/
structure Exact (field : WireField α) (fits : α → Prop) : Prop where
  /-- Every value takes the field's width. -/
  length_write : ∀ value, (field.write value).length = field.width
  /-- What is read fits. -/
  fits_read : ∀ {bytes offset}, offset + field.width ≤ bytes.length →
    fits (field.read bytes offset)
  /-- Writing puts back the bytes that were read. -/
  write_read : ∀ {bytes offset}, offset + field.width ≤ bytes.length →
    field.write (field.read bytes offset) = field.window bytes offset
  /-- Values that fit are told apart by their bytes. -/
  write_injective : ∀ {left right}, fits left → fits right →
    field.write left = field.write right → left = right

/-- Bytes from an offset on are a written value and a rest exactly when the value is read there
and the rest starts behind the field. -/
theorem Exact.drop_eq_iff (exact : field.Exact fits)
    (within : offset + field.width ≤ bytes.length) (valid : fits value) :
    bytes.drop offset = field.write value ++ rest ↔
      field.read bytes offset = value ∧ bytes.drop (offset + field.width) = rest := by
  have split : bytes.drop offset =
      field.write (field.read bytes offset) ++ bytes.drop (offset + field.width) := by
    rw [exact.write_read within, window, ← List.drop_drop, List.take_append_drop]
  constructor
  · intro written
    have pieces := List.append_inj (split.symm.trans written)
      (by rw [exact.length_write, exact.length_write])
    exact ⟨exact.write_injective (exact.fits_read within) valid pieces.1, pieces.2⟩
  · rintro ⟨read, behind⟩
    rw [split, read, behind]

/-- A field that writes the number of a value, and whose reader returns the value of the number
that stands there, is exact on the numbers of its width. -/
theorem exact_of_number (number : α → Nat) (injective : Function.Injective number)
    (writes : ∀ value, field.write value = bigEndian field.width (number value))
    (reads : ∀ {bytes offset}, offset + field.width ≤ bytes.length →
      number (field.read bytes offset) = ofBigEndian (field.window bytes offset)) :
    field.Exact (fun value => number value < 256 ^ field.width) := by
  have size {bytes : List UInt8} {offset : Nat} (within : offset + field.width ≤ bytes.length) :
      (field.window bytes offset).length = field.width := by
    rw [window, List.length_take, List.length_drop]
    omega
  constructor
  · intro value
    rw [writes, length_bigEndian]
  · intro bytes offset within
    have small := ofBigEndian_lt (field.window bytes offset)
    rwa [size within, ← reads within] at small
  · intro bytes offset within
    have restored := bigEndian_ofBigEndian (field.window bytes offset)
    rwa [size within, ← reads within, ← writes] at restored
  · intro left right leftFits rightFits same
    have numbers := congrArg ofBigEndian same
    rw [writes, writes, ofBigEndian_bigEndian, ofBigEndian_bigEndian,
      Nat.mod_eq_of_lt leftFits, Nat.mod_eq_of_lt rightFits] at numbers
    exact injective numbers

end WireField

/-- A reader that refuses every other length returns a value exactly for the bytes the value is
written as, when on bytes of that length reading and writing agree. -/
theorem sized_read_eq_some_iff {α : Type} {size : Nat} {read : List UInt8 → α}
    {write : α → List UInt8} {fits : α → Prop} {bytes : List UInt8} {value : α}
    (length_write : ∀ value, (write value).length = size)
    (fits_read : ∀ {bytes}, bytes.length = size → fits (read bytes))
    (agree : ∀ {bytes value}, bytes.length = size → fits value →
      (bytes.drop 0 = write value ↔ read bytes = value)) :
    (if bytes.length ≠ size then none else some (read bytes)) = some value ↔
      bytes = write value ∧ fits value := by
  by_cases sized : bytes.length = size
  · rw [if_neg (not_not.mpr sized), Option.some.injEq]
    constructor
    · rintro rfl
      have fitting := fits_read sized
      exact ⟨(agree sized fitting).mpr rfl, fitting⟩
    · rintro ⟨written, fitting⟩
      exact (agree sized fitting).mp written
  · rw [if_pos sized]
    constructor
    · intro impossible
      cases impossible
    · rintro ⟨rfl, _⟩
      exact absurd (length_write value) sized

/-- Bytes are a head of known length and a tail exactly when they are cut there. -/
theorem eq_append_iff_of_length {bytes head tail : List UInt8} {size : Nat}
    (sized : head.length = size) :
    bytes = head ++ tail ↔ bytes.take size = head ∧ bytes.drop size = tail := by
  constructor
  · rintro rfl
    rw [← sized]
    exact ⟨List.take_left, List.drop_left⟩
  · rintro ⟨rfl, rfl⟩
    exact (List.take_append_drop _ _).symm

/-- A record that extends another one reads the other from its front and the rest from behind
it, and so returns a value exactly for the bytes the value is written as. -/
theorem extended_read_eq_some_iff {α β : Type} {front size : Nat}
    {readBase : List UInt8 → Option β} {writeBase : β → List UInt8} {fits : β → Prop}
    {build : List UInt8 → β → α} {base : α → β} {writeRest : α → List UInt8}
    {bytes : List UInt8} {value : α} (length_base : ∀ inner, (writeBase inner).length = front)
    (length_write : ∀ value, (writeBase (base value) ++ writeRest value).length = size)
    (reads : ∀ {bytes inner}, readBase bytes = some inner ↔ bytes = writeBase inner ∧ fits inner)
    (base_build : ∀ bytes inner, base (build bytes inner) = inner)
    (agree : ∀ {bytes value}, bytes.length = size →
      (bytes.drop front = writeRest value ↔ build bytes (base value) = value)) :
    (if bytes.length ≠ size then none else (readBase (bytes.take front)).map (build bytes)) =
        some value ↔
      bytes = writeBase (base value) ++ writeRest value ∧ fits (base value) := by
  by_cases sized : bytes.length = size
  · rw [if_neg (not_not.mpr sized), Option.map_eq_some_iff,
      eq_append_iff_of_length (length_base _), agree sized]
    constructor
    · rintro ⟨inner, read, rfl⟩
      obtain ⟨written, fitting⟩ := reads.mp read
      rw [base_build]
      exact ⟨⟨written, rfl⟩, fitting⟩
    · rintro ⟨⟨written, built⟩, fitting⟩
      exact ⟨base value, reads.mpr ⟨written, fitting⟩, built⟩
  · rw [if_pos sized]
    constructor
    · intro impossible
      cases impossible
    · rintro ⟨rfl, _⟩
      exact absurd (length_write value) sized

end Library
