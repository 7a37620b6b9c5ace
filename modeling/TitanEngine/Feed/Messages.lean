import Mathlib.Data.List.DropRight
import TitanEngine.Core.Types

/-!
# ITCH messages

The decoded messages of `titan/feed/itch/messages.hpp`, one structure for each of the ten types.
A `char` is its byte. Shares and prices are 32-bit words on the wire and are widened when they
enter a book.
-/

namespace Titan

/-- `StockLocate`. -/
abbrev StockLocate := UInt16

/-- `TrackingNumber`. -/
abbrev TrackingNumber := UInt16

/-- `ItchTimestampNs`: 48 bits on the wire. -/
abbrev ItchTimestampNs := UInt64

/-- `OrderRefNumber`. -/
abbrev OrderRefNumber := UInt64

/-- `MatchNumber`. -/
abbrev MatchNumber := UInt64

/-- `std::array<char, n>`. -/
abbrev Chars (n : Nat) := Vector UInt8 n

/-- `SystemEventMessage`. -/
structure SystemEventMessage where
  /-- Ignored by both books. -/
  stockLocate : StockLocate
  /-- Internal sequence of the venue. -/
  trackingNumber : TrackingNumber
  /-- Nanoseconds since midnight. -/
  timestamp : ItchTimestampNs
  /-- What happened; 'C' ends the session. -/
  eventCode : UInt8
  deriving DecidableEq, Repr, Inhabited

/-- `StockDirectoryMessage`. -/
structure StockDirectoryMessage where
  /-- The locate being registered. -/
  stockLocate : StockLocate
  /-- Internal sequence of the venue. -/
  trackingNumber : TrackingNumber
  /-- Nanoseconds since midnight. -/
  timestamp : ItchTimestampNs
  /-- Symbol, padded with spaces. -/
  stock : Chars 8
  /-- Listing market. -/
  marketCategory : UInt8
  /-- Financial status. -/
  financialStatus : UInt8
  /-- Shares of a round lot. -/
  roundLotSize : UInt32
  /-- Whether only round lots trade. -/
  roundLotsOnly : UInt8
  /-- Security class. -/
  issueClassification : UInt8
  /-- Security sub-type. -/
  issueSubType : Chars 2
  /-- Live or test. -/
  authenticity : UInt8
  /-- Short-sale threshold. -/
  shortSaleThreshold : UInt8
  /-- Whether a public offering is set. -/
  ipoFlag : UInt8
  /-- Price-band tier. -/
  luldRefPriceTier : UInt8
  /-- Exchange-traded product. -/
  etpFlag : UInt8
  /-- Leverage of the product. -/
  etpLeverageFactor : UInt32
  /-- Inverse product. -/
  inverseIndicator : UInt8
  deriving DecidableEq, Repr, Inhabited

/-- `AddOrderMessage`. -/
structure AddOrderMessage where
  /-- The book. -/
  stockLocate : StockLocate
  /-- Internal sequence of the venue. -/
  trackingNumber : TrackingNumber
  /-- Nanoseconds since midnight. -/
  timestamp : ItchTimestampNs
  /-- The reference being introduced. -/
  orderReferenceNumber : OrderRefNumber
  /-- 'B' buys, anything else sells. -/
  buySellIndicator : UInt8
  /-- Shares added. -/
  shares : UInt32
  /-- Symbol, padded with spaces. -/
  stock : Chars 8
  /-- Limit, in ten-thousandths. -/
  price : UInt32
  deriving DecidableEq, Repr, Inhabited

/-- `AddOrderMpidMessage`. -/
structure AddOrderMpidMessage where
  /-- The order. -/
  base : AddOrderMessage
  /-- Market participant. -/
  attribution : Chars 4
  deriving DecidableEq, Repr, Inhabited

/-- `OrderExecutedMessage`. -/
structure OrderExecutedMessage where
  /-- The book. -/
  stockLocate : StockLocate
  /-- Internal sequence of the venue. -/
  trackingNumber : TrackingNumber
  /-- Nanoseconds since midnight. -/
  timestamp : ItchTimestampNs
  /-- The order executed. -/
  orderReferenceNumber : OrderRefNumber
  /-- Shares executed. -/
  executedShares : UInt32
  /-- Number of the match. -/
  matchNumber : MatchNumber
  deriving DecidableEq, Repr, Inhabited

/-- `OrderExecutedWithPriceMessage`. -/
structure OrderExecutedWithPriceMessage where
  /-- The execution. -/
  base : OrderExecutedMessage
  /-- Whether it is printed. -/
  printable : UInt8
  /-- Its price, when it is not the order's own. -/
  executionPrice : UInt32
  deriving DecidableEq, Repr, Inhabited

/-- `OrderCancelMessage`. -/
structure OrderCancelMessage where
  /-- The book. -/
  stockLocate : StockLocate
  /-- Internal sequence of the venue. -/
  trackingNumber : TrackingNumber
  /-- Nanoseconds since midnight. -/
  timestamp : ItchTimestampNs
  /-- The order reduced. -/
  orderReferenceNumber : OrderRefNumber
  /-- Shares taken off. -/
  cancelledShares : UInt32
  deriving DecidableEq, Repr, Inhabited

/-- `OrderDeleteMessage`. -/
structure OrderDeleteMessage where
  /-- The book. -/
  stockLocate : StockLocate
  /-- Internal sequence of the venue. -/
  trackingNumber : TrackingNumber
  /-- Nanoseconds since midnight. -/
  timestamp : ItchTimestampNs
  /-- The order removed. -/
  orderReferenceNumber : OrderRefNumber
  deriving DecidableEq, Repr, Inhabited

/-- `OrderReplaceMessage`. -/
structure OrderReplaceMessage where
  /-- The book. -/
  stockLocate : StockLocate
  /-- Internal sequence of the venue. -/
  trackingNumber : TrackingNumber
  /-- Nanoseconds since midnight. -/
  timestamp : ItchTimestampNs
  /-- The order replaced. -/
  originalOrderReferenceNumber : OrderRefNumber
  /-- The reference being introduced. -/
  newOrderReferenceNumber : OrderRefNumber
  /-- Shares of the new order. -/
  shares : UInt32
  /-- Price of the new order. -/
  price : UInt32
  deriving DecidableEq, Repr, Inhabited

/-- `TimestampSecondsMessage`. -/
structure TimestampSecondsMessage where
  /-- Seconds since midnight. -/
  seconds : UInt32
  deriving DecidableEq, Repr, Inhabited

/-- `ItchMessage`. -/
inductive ItchMessage where
  | systemEvent (message : SystemEventMessage)
  | stockDirectory (message : StockDirectoryMessage)
  | addOrder (message : AddOrderMessage)
  | addOrderMpid (message : AddOrderMpidMessage)
  | orderExecuted (message : OrderExecutedMessage)
  | orderExecutedWithPrice (message : OrderExecutedWithPriceMessage)
  | orderCancel (message : OrderCancelMessage)
  | orderDelete (message : OrderDeleteMessage)
  | orderReplace (message : OrderReplaceMessage)
  | timestampSeconds (message : TimestampSecondsMessage)
  deriving DecidableEq, Repr, Inhabited

/-- `kItchSystemEvent`, 'S'. -/
def kItchSystemEvent : UInt8 := 0x53

/-- `kItchStockDirectory`, 'R'. -/
def kItchStockDirectory : UInt8 := 0x52

/-- `kItchAddOrder`, 'A'. -/
def kItchAddOrder : UInt8 := 0x41

/-- `kItchAddOrderMpid`, 'F'. -/
def kItchAddOrderMpid : UInt8 := 0x46

/-- `kItchOrderExecuted`, 'E'. -/
def kItchOrderExecuted : UInt8 := 0x45

/-- `kItchOrderExecutedWithPrice`, 'C'. -/
def kItchOrderExecutedWithPrice : UInt8 := 0x43

/-- `kItchOrderCancel`, 'X'. -/
def kItchOrderCancel : UInt8 := 0x58

/-- `kItchOrderDelete`, 'D'. -/
def kItchOrderDelete : UInt8 := 0x44

/-- `kItchOrderReplace`, 'U'. -/
def kItchOrderReplace : UInt8 := 0x55

/-- `kItchTimestampSeconds`, 'T'. -/
def kItchTimestampSeconds : UInt8 := 0x54

/-- The event code of the end of messages, 'C'. -/
def endOfMessages : UInt8 := 0x43

/-- The side of an added order: 'B' buys. -/
def AddOrderMessage.side (message : AddOrderMessage) : Side :=
  if message.buySellIndicator = 0x42 then .buy else .sell

/-- `trimTrailingSpaces`. -/
def trimTrailingSpaces (stock : Chars 8) : Symbol :=
  stock.toList.rdropWhile (fun byte => byte == 0x20)

end Titan
