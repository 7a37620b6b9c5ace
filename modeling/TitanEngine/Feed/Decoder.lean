import TitanEngine.Feed.Messages

/-!
# Decoding one message

`decodeMessage` of `src/feed/itch/decoder.cpp`. Every type has one fixed payload length; a
payload of another length, or of an unknown type, is refused before any byte of it is read, so
no reader below runs past its payload. The two types that extend another one decode its prefix
with the other's decoder, as the source does by calling itself.
-/

namespace Titan

/-- `p[index]`. -/
def byteAt (payload : List UInt8) (index : Nat) : UInt8 := payload.getD index 0

/-- `readU16BE`. -/
def readU16BE (payload : List UInt8) (index : Nat) : UInt16 :=
  (byteAt payload index).toUInt16 <<< 8 ||| (byteAt payload (index + 1)).toUInt16

/-- `readU32BE`. -/
def readU32BE (payload : List UInt8) (index : Nat) : UInt32 :=
  (byteAt payload index).toUInt32 <<< 24 ||| (byteAt payload (index + 1)).toUInt32 <<< 16 |||
    (byteAt payload (index + 2)).toUInt32 <<< 8 ||| (byteAt payload (index + 3)).toUInt32

/-- The loop of `readU48BE` and `readU64BE` over `width` bytes. -/
def readBE (payload : List UInt8) (index width : Nat) : UInt64 :=
  (List.range width).foldl
    (fun value i => value <<< 8 ||| (byteAt payload (index + i)).toUInt64) 0

/-- `readU48BE`. -/
def readU48BE (payload : List UInt8) (index : Nat) : UInt64 := readBE payload index 6

/-- `readU64BE`. -/
def readU64BE (payload : List UInt8) (index : Nat) : UInt64 := readBE payload index 8

/-- `std::copy(p + index, p + index + n, …)`. -/
def copyChars (payload : List UInt8) (index n : Nat) : Chars n :=
  Vector.ofFn (fun i => byteAt payload (index + i))

/-- The case 'S'. -/
def decodeSystemEvent (payload : List UInt8) : Option SystemEventMessage :=
  if payload.length ≠ 11 then none
  else some
    { stockLocate := readU16BE payload 0
      trackingNumber := readU16BE payload 2
      timestamp := readU48BE payload 4
      eventCode := byteAt payload 10 }

/-- The case 'R'. -/
def decodeStockDirectory (payload : List UInt8) : Option StockDirectoryMessage :=
  if payload.length ≠ 38 then none
  else some
    { stockLocate := readU16BE payload 0
      trackingNumber := readU16BE payload 2
      timestamp := readU48BE payload 4
      stock := copyChars payload 10 8
      marketCategory := byteAt payload 18
      financialStatus := byteAt payload 19
      roundLotSize := readU32BE payload 20
      roundLotsOnly := byteAt payload 24
      issueClassification := byteAt payload 25
      issueSubType := copyChars payload 26 2
      authenticity := byteAt payload 28
      shortSaleThreshold := byteAt payload 29
      ipoFlag := byteAt payload 30
      luldRefPriceTier := byteAt payload 31
      etpFlag := byteAt payload 32
      etpLeverageFactor := readU32BE payload 33
      inverseIndicator := byteAt payload 37 }

/-- The case 'A'. -/
def decodeAddOrder (payload : List UInt8) : Option AddOrderMessage :=
  if payload.length ≠ 35 then none
  else some
    { stockLocate := readU16BE payload 0
      trackingNumber := readU16BE payload 2
      timestamp := readU48BE payload 4
      orderReferenceNumber := readU64BE payload 10
      buySellIndicator := byteAt payload 18
      shares := readU32BE payload 19
      stock := copyChars payload 23 8
      price := readU32BE payload 31 }

/-- The case 'F'. -/
def decodeAddOrderMpid (payload : List UInt8) : Option AddOrderMpidMessage :=
  if payload.length ≠ 39 then none
  else (decodeAddOrder (payload.take 35)).map (fun base =>
    { base := base, attribution := copyChars payload 35 4 })

/-- The case 'E'. -/
def decodeOrderExecuted (payload : List UInt8) : Option OrderExecutedMessage :=
  if payload.length ≠ 30 then none
  else some
    { stockLocate := readU16BE payload 0
      trackingNumber := readU16BE payload 2
      timestamp := readU48BE payload 4
      orderReferenceNumber := readU64BE payload 10
      executedShares := readU32BE payload 18
      matchNumber := readU64BE payload 22 }

/-- The case 'C'. -/
def decodeOrderExecutedWithPrice (payload : List UInt8) : Option OrderExecutedWithPriceMessage :=
  if payload.length ≠ 35 then none
  else (decodeOrderExecuted (payload.take 30)).map (fun base =>
    { base := base
      printable := byteAt payload 30
      executionPrice := readU32BE payload 31 })

/-- The case 'X'. -/
def decodeOrderCancel (payload : List UInt8) : Option OrderCancelMessage :=
  if payload.length ≠ 22 then none
  else some
    { stockLocate := readU16BE payload 0
      trackingNumber := readU16BE payload 2
      timestamp := readU48BE payload 4
      orderReferenceNumber := readU64BE payload 10
      cancelledShares := readU32BE payload 18 }

/-- The case 'D'. -/
def decodeOrderDelete (payload : List UInt8) : Option OrderDeleteMessage :=
  if payload.length ≠ 18 then none
  else some
    { stockLocate := readU16BE payload 0
      trackingNumber := readU16BE payload 2
      timestamp := readU48BE payload 4
      orderReferenceNumber := readU64BE payload 10 }

/-- The case 'U'. -/
def decodeOrderReplace (payload : List UInt8) : Option OrderReplaceMessage :=
  if payload.length ≠ 34 then none
  else some
    { stockLocate := readU16BE payload 0
      trackingNumber := readU16BE payload 2
      timestamp := readU48BE payload 4
      originalOrderReferenceNumber := readU64BE payload 10
      newOrderReferenceNumber := readU64BE payload 18
      shares := readU32BE payload 26
      price := readU32BE payload 30 }

/-- The case 'T'. -/
def decodeTimestampSeconds (payload : List UInt8) : Option TimestampSecondsMessage :=
  if payload.length ≠ 4 then none else some { seconds := readU32BE payload 0 }

/-- `decodeMessage`: nothing is written for an unknown type or a wrong length. -/
def decodeMessage (type : UInt8) (payload : List UInt8) : Option ItchMessage :=
  if type = kItchSystemEvent then (decodeSystemEvent payload).map .systemEvent
  else if type = kItchStockDirectory then (decodeStockDirectory payload).map .stockDirectory
  else if type = kItchAddOrder then (decodeAddOrder payload).map .addOrder
  else if type = kItchAddOrderMpid then (decodeAddOrderMpid payload).map .addOrderMpid
  else if type = kItchOrderExecuted then (decodeOrderExecuted payload).map .orderExecuted
  else if type = kItchOrderExecutedWithPrice then
    (decodeOrderExecutedWithPrice payload).map .orderExecutedWithPrice
  else if type = kItchOrderCancel then (decodeOrderCancel payload).map .orderCancel
  else if type = kItchOrderDelete then (decodeOrderDelete payload).map .orderDelete
  else if type = kItchOrderReplace then (decodeOrderReplace payload).map .orderReplace
  else if type = kItchTimestampSeconds then
    (decodeTimestampSeconds payload).map .timestampSeconds
  else none

end Titan
