import TitanEngine.Feed.RoundTrip
import TitanEngine.Library.Fields

/-!
# The message codec

Each of the ten messages is written as its fields in order, numbers with the high byte first, as
the fixtures of `tests/unit/test_itch_parser.cpp` push them. `decodeMessage` reads exactly these
payloads: a payload decodes to a message exactly when it is what the message is written as and
the message's timestamp, which the wire holds in six bytes, is below `2 ^ 48`.
-/

namespace Titan

open Library

/-- One character. -/
def pushU8 (value : UInt8) : List UInt8 := [value]

/-- `pushU32` of the fixtures. -/
def pushU32 (value : UInt32) : List UInt8 :=
  ([24, 16, 8, 0] : List UInt32).map (fun shift => (value >>> shift).toUInt8)

/-- `pushU48` of the fixtures: the two high bytes are not sent. -/
def pushU48 (value : UInt64) : List UInt8 :=
  ([40, 32, 24, 16, 8, 0] : List UInt64).map (fun shift => (value >>> shift).toUInt8)

/-- `pushU64` of the fixtures. -/
def pushU64 (value : UInt64) : List UInt8 :=
  ([56, 48, 40, 32, 24, 16, 8, 0] : List UInt64).map (fun shift => (value >>> shift).toUInt8)

/-- `pushStr` of the fixtures. -/
def pushStr {n : Nat} (chars : Chars n) : List UInt8 := chars.toList

@[simp] theorem length_pushU8 (value : UInt8) : (pushU8 value).length = 1 := rfl

@[simp] theorem length_pushU16 (value : UInt16) : (pushU16 value).length = 2 := rfl

@[simp] theorem length_pushU32 (value : UInt32) : (pushU32 value).length = 4 := rfl

@[simp] theorem length_pushU48 (value : UInt64) : (pushU48 value).length = 6 := rfl

@[simp] theorem length_pushU64 (value : UInt64) : (pushU64 value).length = 8 := rfl

@[simp] theorem length_pushStr {n : Nat} (chars : Chars n) : (pushStr chars).length = n :=
  chars.length_toList

/-- A single character. -/
def u8Field : WireField UInt8 := ⟨1, pushU8, byteAt⟩

/-- `readU16BE` against `pushU16`. -/
def u16Field : WireField UInt16 := ⟨2, pushU16, readU16BE⟩

/-- `readU32BE` against `pushU32`. -/
def u32Field : WireField UInt32 := ⟨4, pushU32, readU32BE⟩

/-- `readU48BE` against `pushU48`. -/
def u48Field : WireField UInt64 := ⟨6, pushU48, readU48BE⟩

/-- `readU64BE` against `pushU64`. -/
def u64Field : WireField UInt64 := ⟨8, pushU64, readU64BE⟩

/-- `std::copy` of an array of characters. -/
def charsField (n : Nat) : WireField (Chars n) :=
  ⟨n, pushStr, fun payload offset => copyChars payload offset n⟩

section Reading

variable {payload : List UInt8} {offset width : Nat}

/-- The bytes of a field inside its payload are the ones its reader looks at. -/
theorem take_drop_eq_map_byteAt (within : offset + width ≤ payload.length) :
    (payload.drop offset).take width =
      (List.range width).map (fun i => byteAt payload (offset + i)) := by
  apply List.ext_getElem
  · simp only [List.length_take, List.length_drop, List.length_map, List.length_range]
    omega
  · intro i inside _
    have held : offset + i < payload.length := by
      simp only [List.length_take, List.length_drop] at inside
      omega
    simp [byteAt, List.getElem?_eq_getElem held]

/-- One round of `readBE` on a value that leaves room for a byte. -/
theorem toNat_shift_or (value : UInt64) (byte : UInt8) (room : value.toNat < 2 ^ 56) :
    (value <<< 8 ||| byte.toUInt64).toNat = value.toNat * 256 + byte.toNat := by
  have small : byte.toNat < 2 ^ 8 := byte.toNat_lt
  have kept : value.toNat <<< 8 % 2 ^ 64 = value.toNat <<< 8 := by
    rw [Nat.shiftLeft_eq]
    omega
  simp only [UInt64.toNat_or, UInt64.toNat_shiftLeft, UInt8.toNat_toUInt64, UInt64.reduceToNat,
    Nat.reduceMod]
  rw [kept, ← Nat.shiftLeft_add_eq_or_of_lt small, Nat.shiftLeft_eq]

/-- The loop reads the number that stands there. -/
theorem toNat_readBE (payload : List UInt8) (offset : Nat) (narrow : width ≤ 8) :
    (readBE payload offset width).toNat =
      ofBigEndian ((List.range width).map (fun i => byteAt payload (offset + i))) := by
  -- The rounds so far have read a number of as many bytes, which leaves room for the next byte.
  induction width with
  | zero => rfl
  | succ width ih =>
    have before := ih (by omega)
    have room : (readBE payload offset width).toNat < 2 ^ 56 := by
      have small := ofBigEndian_lt ((List.range width).map (fun i => byteAt payload (offset + i)))
      have wide : 256 ^ width ≤ 256 ^ 7 := Nat.pow_le_pow_right (by decide) (by omega)
      rw [List.length_map, List.length_range, ← before] at small
      omega
    have round : readBE payload offset (width + 1) =
        readBE payload offset width <<< 8 ||| (byteAt payload (offset + width)).toUInt64 := by
      simp only [readBE, List.range_succ, List.foldl_append, List.foldl_cons, List.foldl_nil]
    rw [round, toNat_shift_or _ _ room, before, List.range_succ, List.map_append, List.map_cons,
      List.map_nil, ofBigEndian_concat]

/-- `readU16BE` reads the number that stands there. -/
theorem toNat_readU16BE (payload : List UInt8) (offset : Nat) :
    (readU16BE payload offset).toNat =
      ofBigEndian [byteAt payload offset, byteAt payload (offset + 1)] := by
  have high : (byteAt payload offset).toNat < 2 ^ 8 := UInt8.toNat_lt _
  have low : (byteAt payload (offset + 1)).toNat < 2 ^ 8 := UInt8.toNat_lt _
  have kept : (byteAt payload offset).toNat <<< 8 % 2 ^ 16 =
      (byteAt payload offset).toNat <<< 8 := by
    rw [Nat.shiftLeft_eq]
    omega
  simp only [readU16BE, UInt16.toNat_or, UInt16.toNat_shiftLeft, UInt8.toNat_toUInt16,
    UInt16.reduceToNat, Nat.reduceMod]
  rw [kept, ← Nat.shiftLeft_add_eq_or_of_lt low, Nat.shiftLeft_eq]
  simp [ofBigEndian]

/-- Four bytes put side by side are a sum. -/
theorem or_shifts_eq (first second third fourth : Nat) (secondSmall : second < 2 ^ 8)
    (thirdSmall : third < 2 ^ 8) (fourthSmall : fourth < 2 ^ 8) :
    first <<< 24 ||| second <<< 16 ||| third <<< 8 ||| fourth =
      ((first * 256 + second) * 256 + third) * 256 + fourth := by
  have two : first <<< 24 ||| second <<< 16 = (first * 256 + second) <<< 16 := by
    rw [← Nat.shiftLeft_add_eq_or_of_lt (by rw [Nat.shiftLeft_eq]; omega)]
    simp only [Nat.shiftLeft_eq]
    omega
  have three : (first * 256 + second) <<< 16 ||| third <<< 8 =
      ((first * 256 + second) * 256 + third) <<< 8 := by
    rw [← Nat.shiftLeft_add_eq_or_of_lt (by rw [Nat.shiftLeft_eq]; omega)]
    simp only [Nat.shiftLeft_eq]
    omega
  rw [two, three, ← Nat.shiftLeft_add_eq_or_of_lt fourthSmall, Nat.shiftLeft_eq]

/-- `readU32BE` reads the number that stands there. -/
theorem toNat_readU32BE (payload : List UInt8) (offset : Nat) :
    (readU32BE payload offset).toNat =
      ofBigEndian [byteAt payload offset, byteAt payload (offset + 1),
        byteAt payload (offset + 2), byteAt payload (offset + 3)] := by
  have kept (byte : UInt8) (shift : Nat) (fits : shift ≤ 24) :
      byte.toNat <<< shift % 2 ^ 32 = byte.toNat <<< shift := by
    have small : byte.toNat < 2 ^ 8 := byte.toNat_lt
    have wide : 2 ^ shift ≤ 2 ^ 24 := Nat.pow_le_pow_right (by decide) fits
    rw [Nat.shiftLeft_eq]
    exact Nat.mod_eq_of_lt (by nlinarith)
  simp only [readU32BE, UInt32.toNat_or, UInt32.toNat_shiftLeft, UInt8.toNat_toUInt32,
    UInt32.reduceToNat, Nat.reduceMod]
  rw [kept _ 24 (by decide), kept _ 16 (by decide), kept _ 8 (by decide),
    or_shifts_eq _ _ _ _ (UInt8.toNat_lt _) (UInt8.toNat_lt _) (UInt8.toNat_lt _)]
  simp [ofBigEndian]

end Reading

section Exactness

/-- A character is read back. -/
theorem u8Field_exact : u8Field.Exact (fun value => value.toNat < 256 ^ u8Field.width) := by
  apply WireField.exact_of_number UInt8.toNat (fun _ _ => UInt8.toNat_inj.mp)
  · intro value
    simp [u8Field, pushU8, bigEndian]
  · intro payload offset within
    rw [WireField.window, take_drop_eq_map_byteAt within]
    simp [u8Field, ofBigEndian]

/-- A 16-bit word is read back. -/
theorem u16Field_exact : u16Field.Exact (fun value => value.toNat < 256 ^ u16Field.width) := by
  apply WireField.exact_of_number UInt16.toNat (fun _ _ => UInt16.toNat_inj.mp)
  · intro value
    simp [u16Field, pushU16, bigEndian, ← UInt8.toNat_inj, Nat.shiftRight_eq_div_pow]
  · intro payload offset within
    rw [WireField.window, take_drop_eq_map_byteAt within]
    exact toNat_readU16BE payload offset

/-- A 32-bit word is read back. -/
theorem u32Field_exact : u32Field.Exact (fun value => value.toNat < 256 ^ u32Field.width) := by
  apply WireField.exact_of_number UInt32.toNat (fun _ _ => UInt32.toNat_inj.mp)
  · intro value
    simp [u32Field, pushU32, bigEndian, ← UInt8.toNat_inj, Nat.shiftRight_eq_div_pow]
  · intro payload offset within
    rw [WireField.window, take_drop_eq_map_byteAt within]
    exact toNat_readU32BE payload offset

/-- A timestamp of six bytes is read back. -/
theorem u48Field_exact : u48Field.Exact (fun value => value.toNat < 256 ^ u48Field.width) := by
  apply WireField.exact_of_number UInt64.toNat (fun _ _ => UInt64.toNat_inj.mp)
  · intro value
    simp [u48Field, pushU48, bigEndian, ← UInt8.toNat_inj, Nat.shiftRight_eq_div_pow]
  · intro payload offset within
    rw [WireField.window, take_drop_eq_map_byteAt within]
    exact toNat_readBE payload offset (by decide)

/-- A 64-bit word is read back. -/
theorem u64Field_exact : u64Field.Exact (fun value => value.toNat < 256 ^ u64Field.width) := by
  apply WireField.exact_of_number UInt64.toNat (fun _ _ => UInt64.toNat_inj.mp)
  · intro value
    simp [u64Field, pushU64, bigEndian, ← UInt8.toNat_inj, Nat.shiftRight_eq_div_pow]
  · intro payload offset within
    rw [WireField.window, take_drop_eq_map_byteAt within]
    exact toNat_readBE payload offset (by decide)

/-- Characters are read back. -/
theorem charsField_exact (n : Nat) : (charsField n).Exact (fun _ => True) := by
  constructor
  · intro chars
    simp [charsField, pushStr]
  · intro _ _ _
    trivial
  · intro payload offset within
    rw [WireField.window, take_drop_eq_map_byteAt within]
    simp only [charsField, pushStr, copyChars]
    apply List.ext_getElem
    · simp
    · intro i _ _
      simp
  · intro left right _ _ same
    exact Vector.toList_inj.mp same

end Exactness

section Layout

variable {payload rest : List UInt8} {offset : Nat}

/-- A character in its place. -/
theorem drop_eq_pushU8_iff {value : UInt8} (within : offset + 1 ≤ payload.length) :
    payload.drop offset = pushU8 value ++ rest ↔
      byteAt payload offset = value ∧ payload.drop (offset + 1) = rest :=
  u8Field_exact.drop_eq_iff within value.toNat_lt

/-- A 16-bit word in its place. -/
theorem drop_eq_pushU16_iff {value : UInt16} (within : offset + 2 ≤ payload.length) :
    payload.drop offset = pushU16 value ++ rest ↔
      readU16BE payload offset = value ∧ payload.drop (offset + 2) = rest :=
  u16Field_exact.drop_eq_iff within value.toNat_lt

/-- A 32-bit word in its place. -/
theorem drop_eq_pushU32_iff {value : UInt32} (within : offset + 4 ≤ payload.length) :
    payload.drop offset = pushU32 value ++ rest ↔
      readU32BE payload offset = value ∧ payload.drop (offset + 4) = rest :=
  u32Field_exact.drop_eq_iff within value.toNat_lt

/-- A timestamp of six bytes in its place. -/
theorem drop_eq_pushU48_iff {value : UInt64} (within : offset + 6 ≤ payload.length)
    (small : value.toNat < 2 ^ 48) :
    payload.drop offset = pushU48 value ++ rest ↔
      readU48BE payload offset = value ∧ payload.drop (offset + 6) = rest :=
  u48Field_exact.drop_eq_iff within small

/-- A 64-bit word in its place. -/
theorem drop_eq_pushU64_iff {value : UInt64} (within : offset + 8 ≤ payload.length) :
    payload.drop offset = pushU64 value ++ rest ↔
      readU64BE payload offset = value ∧ payload.drop (offset + 8) = rest :=
  u64Field_exact.drop_eq_iff within value.toNat_lt

/-- Characters in their place. -/
theorem drop_eq_pushStr_iff {n : Nat} {chars : Chars n} (within : offset + n ≤ payload.length) :
    payload.drop offset = pushStr chars ++ rest ↔
      copyChars payload offset n = chars ∧ payload.drop (offset + n) = rest :=
  (charsField_exact n).drop_eq_iff within trivial

/-- A timestamp read from six bytes. -/
theorem toNat_readU48BE_lt (within : offset + 6 ≤ payload.length) :
    (readU48BE payload offset).toNat < 2 ^ 48 :=
  u48Field_exact.fits_read within

end Layout

/-- The payload of a system event. -/
def SystemEventMessage.encode (message : SystemEventMessage) : List UInt8 :=
  List.flatten
    [pushU16 message.stockLocate, pushU16 message.trackingNumber, pushU48 message.timestamp,
      pushU8 message.eventCode]

theorem SystemEventMessage.length_encode (message : SystemEventMessage) :
    message.encode.length = 11 := by
  simp [encode]

/-- A payload is read as the system event it was written from. -/
theorem decodeSystemEvent_eq_some_iff {payload : List UInt8} {message : SystemEventMessage} :
    decodeSystemEvent payload = some message ↔
      payload = message.encode ∧ message.timestamp.toNat < 2 ^ 48 := by
  apply sized_read_eq_some_iff SystemEventMessage.length_encode
  · intro payload sized
    exact toNat_readU48BE_lt (by omega)
  · intro payload message sized small
    cases message
    simp (disch := omega) only [SystemEventMessage.encode, List.flatten_cons, List.flatten_nil,
      drop_eq_pushU16_iff, drop_eq_pushU48_iff, drop_eq_pushU8_iff, List.drop_eq_nil_iff, sized,
      SystemEventMessage.mk.injEq, Nat.reduceAdd, Nat.zero_add, Nat.le_refl, and_true]

/-- The payload of a stock directory entry. -/
def StockDirectoryMessage.encode (message : StockDirectoryMessage) : List UInt8 :=
  List.flatten
    [pushU16 message.stockLocate, pushU16 message.trackingNumber, pushU48 message.timestamp,
      pushStr message.stock, pushU8 message.marketCategory, pushU8 message.financialStatus,
      pushU32 message.roundLotSize, pushU8 message.roundLotsOnly, pushU8
      message.issueClassification, pushStr message.issueSubType, pushU8 message.authenticity,
      pushU8 message.shortSaleThreshold, pushU8 message.ipoFlag, pushU8 message.luldRefPriceTier,
      pushU8 message.etpFlag, pushU32 message.etpLeverageFactor, pushU8 message.inverseIndicator]

theorem StockDirectoryMessage.length_encode (message : StockDirectoryMessage) :
    message.encode.length = 38 := by
  simp [encode]

/-- A payload is read as a stock directory entry exactly when it was written from it. -/
theorem decodeStockDirectory_eq_some_iff {payload : List UInt8} {message : StockDirectoryMessage} :
    decodeStockDirectory payload = some message ↔
      payload = message.encode ∧ message.timestamp.toNat < 2 ^ 48 := by
  apply sized_read_eq_some_iff StockDirectoryMessage.length_encode
  · intro payload sized
    exact toNat_readU48BE_lt (by omega)
  · intro payload message sized small
    cases message
    simp (disch := omega) only [StockDirectoryMessage.encode, List.flatten_cons, List.flatten_nil,
      drop_eq_pushU16_iff, drop_eq_pushU48_iff, drop_eq_pushStr_iff, drop_eq_pushU8_iff,
      drop_eq_pushU32_iff, List.drop_eq_nil_iff, sized, StockDirectoryMessage.mk.injEq,
      Nat.reduceAdd, Nat.zero_add, Nat.le_refl, and_true]

/-- The payload of an added order. -/
def AddOrderMessage.encode (message : AddOrderMessage) : List UInt8 :=
  List.flatten
    [pushU16 message.stockLocate, pushU16 message.trackingNumber, pushU48 message.timestamp,
      pushU64 message.orderReferenceNumber, pushU8 message.buySellIndicator, pushU32
      message.shares, pushStr message.stock, pushU32 message.price]

theorem AddOrderMessage.length_encode (message : AddOrderMessage) :
    message.encode.length = 35 := by
  simp [encode]

/-- A payload is read as an added order exactly when it was written from it. -/
theorem decodeAddOrder_eq_some_iff {payload : List UInt8} {message : AddOrderMessage} :
    decodeAddOrder payload = some message ↔
      payload = message.encode ∧ message.timestamp.toNat < 2 ^ 48 := by
  apply sized_read_eq_some_iff AddOrderMessage.length_encode
  · intro payload sized
    exact toNat_readU48BE_lt (by omega)
  · intro payload message sized small
    cases message
    simp (disch := omega) only [AddOrderMessage.encode, List.flatten_cons, List.flatten_nil,
      drop_eq_pushU16_iff, drop_eq_pushU48_iff, drop_eq_pushU64_iff, drop_eq_pushU8_iff,
      drop_eq_pushU32_iff, drop_eq_pushStr_iff, List.drop_eq_nil_iff, sized,
      AddOrderMessage.mk.injEq, Nat.reduceAdd, Nat.zero_add, Nat.le_refl, and_true]

/-- The payload of an execution. -/
def OrderExecutedMessage.encode (message : OrderExecutedMessage) : List UInt8 :=
  List.flatten
    [pushU16 message.stockLocate, pushU16 message.trackingNumber, pushU48 message.timestamp,
      pushU64 message.orderReferenceNumber, pushU32 message.executedShares, pushU64
      message.matchNumber]

theorem OrderExecutedMessage.length_encode (message : OrderExecutedMessage) :
    message.encode.length = 30 := by
  simp [encode]

/-- A payload is read as an execution exactly when it was written from it. -/
theorem decodeOrderExecuted_eq_some_iff {payload : List UInt8} {message : OrderExecutedMessage} :
    decodeOrderExecuted payload = some message ↔
      payload = message.encode ∧ message.timestamp.toNat < 2 ^ 48 := by
  apply sized_read_eq_some_iff OrderExecutedMessage.length_encode
  · intro payload sized
    exact toNat_readU48BE_lt (by omega)
  · intro payload message sized small
    cases message
    simp (disch := omega) only [OrderExecutedMessage.encode, List.flatten_cons, List.flatten_nil,
      drop_eq_pushU16_iff, drop_eq_pushU48_iff, drop_eq_pushU64_iff, drop_eq_pushU32_iff,
      List.drop_eq_nil_iff, sized, OrderExecutedMessage.mk.injEq, Nat.reduceAdd, Nat.zero_add,
      Nat.le_refl, and_true]

/-- The payload of a cancel. -/
def OrderCancelMessage.encode (message : OrderCancelMessage) : List UInt8 :=
  List.flatten
    [pushU16 message.stockLocate, pushU16 message.trackingNumber, pushU48 message.timestamp,
      pushU64 message.orderReferenceNumber, pushU32 message.cancelledShares]

theorem OrderCancelMessage.length_encode (message : OrderCancelMessage) :
    message.encode.length = 22 := by
  simp [encode]

/-- A payload is read as a cancel exactly when it was written from it. -/
theorem decodeOrderCancel_eq_some_iff {payload : List UInt8} {message : OrderCancelMessage} :
    decodeOrderCancel payload = some message ↔
      payload = message.encode ∧ message.timestamp.toNat < 2 ^ 48 := by
  apply sized_read_eq_some_iff OrderCancelMessage.length_encode
  · intro payload sized
    exact toNat_readU48BE_lt (by omega)
  · intro payload message sized small
    cases message
    simp (disch := omega) only [OrderCancelMessage.encode, List.flatten_cons, List.flatten_nil,
      drop_eq_pushU16_iff, drop_eq_pushU48_iff, drop_eq_pushU64_iff, drop_eq_pushU32_iff,
      List.drop_eq_nil_iff, sized, OrderCancelMessage.mk.injEq, Nat.reduceAdd, Nat.zero_add,
      Nat.le_refl, and_true]

/-- The payload of a delete. -/
def OrderDeleteMessage.encode (message : OrderDeleteMessage) : List UInt8 :=
  List.flatten
    [pushU16 message.stockLocate, pushU16 message.trackingNumber, pushU48 message.timestamp,
      pushU64 message.orderReferenceNumber]

theorem OrderDeleteMessage.length_encode (message : OrderDeleteMessage) :
    message.encode.length = 18 := by
  simp [encode]

/-- A payload is read as a delete exactly when it was written from it. -/
theorem decodeOrderDelete_eq_some_iff {payload : List UInt8} {message : OrderDeleteMessage} :
    decodeOrderDelete payload = some message ↔
      payload = message.encode ∧ message.timestamp.toNat < 2 ^ 48 := by
  apply sized_read_eq_some_iff OrderDeleteMessage.length_encode
  · intro payload sized
    exact toNat_readU48BE_lt (by omega)
  · intro payload message sized small
    cases message
    simp (disch := omega) only [OrderDeleteMessage.encode, List.flatten_cons, List.flatten_nil,
      drop_eq_pushU16_iff, drop_eq_pushU48_iff, drop_eq_pushU64_iff, List.drop_eq_nil_iff, sized,
      OrderDeleteMessage.mk.injEq, Nat.reduceAdd, Nat.zero_add, Nat.le_refl, and_true]

/-- The payload of a replacement. -/
def OrderReplaceMessage.encode (message : OrderReplaceMessage) : List UInt8 :=
  List.flatten
    [pushU16 message.stockLocate, pushU16 message.trackingNumber, pushU48 message.timestamp,
      pushU64 message.originalOrderReferenceNumber, pushU64 message.newOrderReferenceNumber,
      pushU32 message.shares, pushU32 message.price]

theorem OrderReplaceMessage.length_encode (message : OrderReplaceMessage) :
    message.encode.length = 34 := by
  simp [encode]

/-- A payload is read as a replacement exactly when it was written from it. -/
theorem decodeOrderReplace_eq_some_iff {payload : List UInt8} {message : OrderReplaceMessage} :
    decodeOrderReplace payload = some message ↔
      payload = message.encode ∧ message.timestamp.toNat < 2 ^ 48 := by
  apply sized_read_eq_some_iff OrderReplaceMessage.length_encode
  · intro payload sized
    exact toNat_readU48BE_lt (by omega)
  · intro payload message sized small
    cases message
    simp (disch := omega) only [OrderReplaceMessage.encode, List.flatten_cons, List.flatten_nil,
      drop_eq_pushU16_iff, drop_eq_pushU48_iff, drop_eq_pushU64_iff, drop_eq_pushU32_iff,
      List.drop_eq_nil_iff, sized, OrderReplaceMessage.mk.injEq, Nat.reduceAdd, Nat.zero_add,
      Nat.le_refl, and_true]

/-- The payload of a timestamp. -/
def TimestampSecondsMessage.encode (message : TimestampSecondsMessage) : List UInt8 :=
  List.flatten [pushU32 message.seconds]

theorem TimestampSecondsMessage.length_encode (message : TimestampSecondsMessage) :
    message.encode.length = 4 := by
  simp [encode]

/-- A payload is read as a timestamp exactly when it was written from it. -/
theorem decodeTimestampSeconds_eq_some_iff {payload : List UInt8}
    {message : TimestampSecondsMessage} :
    decodeTimestampSeconds payload = some message ↔ payload = message.encode := by
  have read : decodeTimestampSeconds payload = some message ↔
      payload = message.encode ∧ True := by
    apply sized_read_eq_some_iff TimestampSecondsMessage.length_encode
    · intro _ _
      trivial
    · intro payload message sized _
      cases message
      simp (disch := omega) only [TimestampSecondsMessage.encode, List.flatten_cons,
        List.flatten_nil, drop_eq_pushU32_iff, List.drop_eq_nil_iff, sized,
        TimestampSecondsMessage.mk.injEq, Nat.zero_add, Nat.le_refl, and_true]
  rwa [and_true] at read

/-- The payload of an attributed order: the plain order's, then the attribution. -/
def AddOrderMpidMessage.encode (message : AddOrderMpidMessage) : List UInt8 :=
  message.base.encode ++ List.flatten [pushStr message.attribution]

theorem AddOrderMpidMessage.length_encode (message : AddOrderMpidMessage) :
    message.encode.length = 39 := by
  simp [encode, AddOrderMessage.length_encode]

/-- A payload is read as an attributed order exactly when it was written from it. -/
theorem decodeAddOrderMpid_eq_some_iff {payload : List UInt8} {message : AddOrderMpidMessage} :
    decodeAddOrderMpid payload = some message ↔
      payload = message.encode ∧ message.base.timestamp.toNat < 2 ^ 48 := by
  apply extended_read_eq_some_iff AddOrderMessage.length_encode
    AddOrderMpidMessage.length_encode decodeAddOrder_eq_some_iff (fun _ _ => rfl)
  intro payload message sized
  cases message
  simp (disch := omega) only [List.flatten_cons, List.flatten_nil, drop_eq_pushStr_iff,
    List.drop_eq_nil_iff, sized, AddOrderMpidMessage.mk.injEq, Nat.reduceAdd, Nat.le_refl,
    and_true, true_and]

/-- The payload of an execution at a price of its own: the plain execution's, then the two
further fields. -/
def OrderExecutedWithPriceMessage.encode (message : OrderExecutedWithPriceMessage) :
    List UInt8 :=
  message.base.encode ++
    List.flatten [pushU8 message.printable, pushU32 message.executionPrice]

theorem OrderExecutedWithPriceMessage.length_encode (message : OrderExecutedWithPriceMessage) :
    message.encode.length = 35 := by
  simp [encode, OrderExecutedMessage.length_encode]

/-- A payload is read as an execution at a price exactly when it was written from it. -/
theorem decodeOrderExecutedWithPrice_eq_some_iff {payload : List UInt8}
    {message : OrderExecutedWithPriceMessage} :
    decodeOrderExecutedWithPrice payload = some message ↔
      payload = message.encode ∧ message.base.timestamp.toNat < 2 ^ 48 := by
  apply extended_read_eq_some_iff OrderExecutedMessage.length_encode
    OrderExecutedWithPriceMessage.length_encode decodeOrderExecuted_eq_some_iff (fun _ _ => rfl)
  intro payload message sized
  cases message
  simp (disch := omega) only [List.flatten_cons, List.flatten_nil, drop_eq_pushU8_iff,
    drop_eq_pushU32_iff, List.drop_eq_nil_iff, sized, OrderExecutedWithPriceMessage.mk.injEq,
    Nat.reduceAdd, Nat.le_refl, and_true, true_and]

namespace ItchMessage

/-- The type byte a message is sent under. -/
def type : ItchMessage → UInt8
  | .systemEvent _ => kItchSystemEvent
  | .stockDirectory _ => kItchStockDirectory
  | .addOrder _ => kItchAddOrder
  | .addOrderMpid _ => kItchAddOrderMpid
  | .orderExecuted _ => kItchOrderExecuted
  | .orderExecutedWithPrice _ => kItchOrderExecutedWithPrice
  | .orderCancel _ => kItchOrderCancel
  | .orderDelete _ => kItchOrderDelete
  | .orderReplace _ => kItchOrderReplace
  | .timestampSeconds _ => kItchTimestampSeconds

/-- The payload a message is sent as. -/
def encode : ItchMessage → List UInt8
  | .systemEvent message => message.encode
  | .stockDirectory message => message.encode
  | .addOrder message => message.encode
  | .addOrderMpid message => message.encode
  | .orderExecuted message => message.encode
  | .orderExecutedWithPrice message => message.encode
  | .orderCancel message => message.encode
  | .orderDelete message => message.encode
  | .orderReplace message => message.encode
  | .timestampSeconds message => message.encode

/-- The timestamp of a message; a 'T' message has none. -/
def timestamp? : ItchMessage → Option ItchTimestampNs
  | .systemEvent message => some message.timestamp
  | .stockDirectory message => some message.timestamp
  | .addOrder message => some message.timestamp
  | .addOrderMpid message => some message.base.timestamp
  | .orderExecuted message => some message.timestamp
  | .orderExecutedWithPrice message => some message.base.timestamp
  | .orderCancel message => some message.timestamp
  | .orderDelete message => some message.timestamp
  | .orderReplace message => some message.timestamp
  | .timestampSeconds _ => none

end ItchMessage

/-- The fixed payload length of each of the ten types. -/
def payloadLength? (type : UInt8) : Option Nat :=
  if type = kItchSystemEvent then some 11
  else if type = kItchStockDirectory then some 38
  else if type = kItchAddOrder then some 35
  else if type = kItchAddOrderMpid then some 39
  else if type = kItchOrderExecuted then some 30
  else if type = kItchOrderExecutedWithPrice then some 35
  else if type = kItchOrderCancel then some 22
  else if type = kItchOrderDelete then some 18
  else if type = kItchOrderReplace then some 34
  else if type = kItchTimestampSeconds then some 4
  else none

/-- Every message is as long as its type asks. -/
theorem payloadLength?_type (message : ItchMessage) :
    payloadLength? message.type = some message.encode.length := by
  cases message with
  | systemEvent message => rw [ItchMessage.encode, message.length_encode]; rfl
  | stockDirectory message => rw [ItchMessage.encode, message.length_encode]; rfl
  | addOrder message => rw [ItchMessage.encode, message.length_encode]; rfl
  | addOrderMpid message => rw [ItchMessage.encode, message.length_encode]; rfl
  | orderExecuted message => rw [ItchMessage.encode, message.length_encode]; rfl
  | orderExecutedWithPrice message => rw [ItchMessage.encode, message.length_encode]; rfl
  | orderCancel message => rw [ItchMessage.encode, message.length_encode]; rfl
  | orderDelete message => rw [ItchMessage.encode, message.length_encode]; rfl
  | orderReplace message => rw [ItchMessage.encode, message.length_encode]; rfl
  | timestampSeconds message => rw [ItchMessage.encode, message.length_encode]; rfl

/-- One round of a chain of tests. -/
theorem ite_eq_some_cases {α : Type*} {c : Prop} [Decidable c] {yes no : Option α} {value : α}
    (found : (if c then yes else no) = some value) :
    c ∧ yes = some value ∨ no = some value := by
  by_cases holds : c
  · rw [if_pos holds] at found
    exact .inl ⟨holds, found⟩
  · rw [if_neg holds] at found
    exact .inr found

/-- What the decoder of a message's own type makes of a payload. -/
def ItchMessage.ReadFrom (payload : List UInt8) : ItchMessage → Prop
  | .systemEvent message => decodeSystemEvent payload = some message
  | .stockDirectory message => decodeStockDirectory payload = some message
  | .addOrder message => decodeAddOrder payload = some message
  | .addOrderMpid message => decodeAddOrderMpid payload = some message
  | .orderExecuted message => decodeOrderExecuted payload = some message
  | .orderExecutedWithPrice message => decodeOrderExecutedWithPrice payload = some message
  | .orderCancel message => decodeOrderCancel payload = some message
  | .orderDelete message => decodeOrderDelete payload = some message
  | .orderReplace message => decodeOrderReplace payload = some message
  | .timestampSeconds message => decodeTimestampSeconds payload = some message

/-- `decodeMessage` runs the decoder of the type byte. -/
theorem decodeMessage_eq_some_iff_readFrom {type : UInt8} {payload : List UInt8}
    {message : ItchMessage} :
    decodeMessage type payload = some message ↔
      type = message.type ∧ message.ReadFrom payload := by
  constructor
  · intro decoded
    unfold decodeMessage at decoded
    iterate 10
      rcases ite_eq_some_cases decoded with ⟨is, read⟩ | decoded
      · obtain ⟨_, own, rfl⟩ := Option.map_eq_some_iff.mp read
        exact ⟨is, own⟩
    cases decoded
  · rintro ⟨rfl, read⟩
    cases message
    all_goals exact Option.map_eq_some_iff.mpr ⟨_, read, rfl⟩

/-- The decoders read exactly the payloads that are written. -/
theorem ItchMessage.readFrom_iff {payload : List UInt8} {message : ItchMessage} :
    message.ReadFrom payload ↔
      payload = message.encode ∧
        ∀ timestamp ∈ message.timestamp?, timestamp.toNat < 2 ^ 48 := by
  cases message with
  | systemEvent message =>
    simpa [ReadFrom, encode, timestamp?] using decodeSystemEvent_eq_some_iff
  | stockDirectory message =>
    simpa [ReadFrom, encode, timestamp?] using decodeStockDirectory_eq_some_iff
  | addOrder message =>
    simpa [ReadFrom, encode, timestamp?] using decodeAddOrder_eq_some_iff
  | addOrderMpid message =>
    simpa [ReadFrom, encode, timestamp?] using decodeAddOrderMpid_eq_some_iff
  | orderExecuted message =>
    simpa [ReadFrom, encode, timestamp?] using decodeOrderExecuted_eq_some_iff
  | orderExecutedWithPrice message =>
    simpa [ReadFrom, encode, timestamp?] using decodeOrderExecutedWithPrice_eq_some_iff
  | orderCancel message =>
    simpa [ReadFrom, encode, timestamp?] using decodeOrderCancel_eq_some_iff
  | orderDelete message =>
    simpa [ReadFrom, encode, timestamp?] using decodeOrderDelete_eq_some_iff
  | orderReplace message =>
    simpa [ReadFrom, encode, timestamp?] using decodeOrderReplace_eq_some_iff
  | timestampSeconds message =>
    simpa [ReadFrom, encode, timestamp?] using decodeTimestampSeconds_eq_some_iff

/-- A payload decodes to a message exactly when it is what the message is sent as. -/
theorem decodeMessage_eq_some_iff {type : UInt8} {payload : List UInt8} {message : ItchMessage} :
    decodeMessage type payload = some message ↔
      type = message.type ∧ payload = message.encode ∧
        ∀ timestamp ∈ message.timestamp?, timestamp.toNat < 2 ^ 48 := by
  rw [decodeMessage_eq_some_iff_readFrom, ItchMessage.readFrom_iff]

/-- A payload of its type's length is decoded. -/
theorem decodeMessage_isSome {type : UInt8} {payload : List UInt8}
    (sized : payloadLength? type = some payload.length) :
    (decodeMessage type payload).isSome = true := by
  unfold payloadLength? at sized
  obtain ⟨rfl, sized⟩ | sized := ite_eq_some_cases sized
  · change ((decodeSystemEvent payload).map _).isSome = true
    simp [decodeSystemEvent, ← Option.some.inj sized]
  obtain ⟨rfl, sized⟩ | sized := ite_eq_some_cases sized
  · change ((decodeStockDirectory payload).map _).isSome = true
    simp [decodeStockDirectory, ← Option.some.inj sized]
  obtain ⟨rfl, sized⟩ | sized := ite_eq_some_cases sized
  · change ((decodeAddOrder payload).map _).isSome = true
    simp [decodeAddOrder, ← Option.some.inj sized]
  obtain ⟨rfl, sized⟩ | sized := ite_eq_some_cases sized
  · change ((decodeAddOrderMpid payload).map _).isSome = true
    simp [decodeAddOrderMpid, decodeAddOrder, ← Option.some.inj sized]
  obtain ⟨rfl, sized⟩ | sized := ite_eq_some_cases sized
  · change ((decodeOrderExecuted payload).map _).isSome = true
    simp [decodeOrderExecuted, ← Option.some.inj sized]
  obtain ⟨rfl, sized⟩ | sized := ite_eq_some_cases sized
  · change ((decodeOrderExecutedWithPrice payload).map _).isSome = true
    simp [decodeOrderExecutedWithPrice, decodeOrderExecuted, ← Option.some.inj sized]
  obtain ⟨rfl, sized⟩ | sized := ite_eq_some_cases sized
  · change ((decodeOrderCancel payload).map _).isSome = true
    simp [decodeOrderCancel, ← Option.some.inj sized]
  obtain ⟨rfl, sized⟩ | sized := ite_eq_some_cases sized
  · change ((decodeOrderDelete payload).map _).isSome = true
    simp [decodeOrderDelete, ← Option.some.inj sized]
  obtain ⟨rfl, sized⟩ | sized := ite_eq_some_cases sized
  · change ((decodeOrderReplace payload).map _).isSome = true
    simp [decodeOrderReplace, ← Option.some.inj sized]
  obtain ⟨rfl, sized⟩ | sized := ite_eq_some_cases sized
  · change ((decodeTimestampSeconds payload).map _).isSome = true
    simp [decodeTimestampSeconds, ← Option.some.inj sized]
  cases sized

/-- A payload of another length than its type's is refused. -/
theorem decodeMessage_eq_none {type : UInt8} {payload : List UInt8}
    (unfit : payloadLength? type ≠ some payload.length) : decodeMessage type payload = none := by
  cases found : decodeMessage type payload with
  | none => rfl
  | some message =>
    obtain ⟨rfl, rfl, _⟩ := decodeMessage_eq_some_iff.mp found
    exact absurd (payloadLength?_type message) unfit

/-- `decodeMessage` as its caller sees it: the flag it returns and what `out` holds then. -/
def decodeInto (type : UInt8) (payload : List UInt8) (out : ItchMessage) : Bool × ItchMessage :=
  match decodeMessage type payload with
  | some message => (true, message)
  | none => (false, out)

/-- `decodeMessage` is an exact codec. Every message whose timestamp fits six bytes is read back
from its type and payload; every decoded message was sent as exactly the type and payload it was
decoded from; and decoding succeeds exactly on the ten types at their fixed lengths, leaving
`out` as it was otherwise. -/
theorem decodeMessage_exact_codec :
    (∀ (message out : ItchMessage),
      (∀ timestamp ∈ message.timestamp?, timestamp.toNat < 2 ^ 48) →
        decodeInto message.type message.encode out = (true, message)) ∧
      (∀ (type : UInt8) (payload : List UInt8) (out message : ItchMessage),
        decodeInto type payload out = (true, message) →
          message.type = type ∧ message.encode = payload) ∧
      ∀ (type : UInt8) (payload : List UInt8) (out : ItchMessage),
        ((decodeInto type payload out).1 = true ↔
          payloadLength? type = some payload.length) ∧
        ((decodeInto type payload out).1 = false → (decodeInto type payload out).2 = out) := by
  refine ⟨?_, ?_, ?_⟩
  · intro message out small
    have decoded : decodeMessage message.type message.encode = some message :=
      decodeMessage_eq_some_iff.mpr ⟨rfl, rfl, small⟩
    rw [decodeInto, decoded]
  · intro type payload out message decoded
    cases found : decodeMessage type payload with
    | none => simp [decodeInto, found] at decoded
    | some read =>
      obtain rfl : read = message := by simpa [decodeInto, found] using decoded
      obtain ⟨sameType, samePayload, _⟩ := decodeMessage_eq_some_iff.mp found
      exact ⟨sameType.symm, samePayload.symm⟩
  · intro type payload out
    cases found : decodeMessage type payload with
    | none =>
      have refused : payloadLength? type ≠ some payload.length := by
        intro sized
        simpa [found] using decodeMessage_isSome sized
      simp [decodeInto, found, refused]
    | some message =>
      obtain ⟨rfl, rfl, _⟩ := decodeMessage_eq_some_iff.mp found
      simp [decodeInto, found, payloadLength?_type]

/-- A delete written out: two words, the six bytes of its timestamp and eight of its reference. -/
theorem decodeMessage_exact_codec_delete :
    decodeInto kItchOrderDelete
        [0, 1, 0, 2, 0, 0, 0, 0, 3, 232, 0, 0, 0, 0, 0, 0, 1, 44] default =
      (true, .orderDelete ⟨1, 2, 1000, 300⟩) :=
  decodeMessage_exact_codec.1 (.orderDelete ⟨1, 2, 1000, 300⟩) default (by
    intro timestamp stamped
    cases stamped
    decide)

end Titan
