import TitanEngine.Feed.Parser

/-!
# The framing round trip

A sender writes each record as its length, its type byte and its payload, as the fixtures under
`tests/` do. Whatever the records hold, the parser finds exactly their boundaries: it returns one
result a record, in order, and keeps no byte back, however the stream reaches it.
-/

namespace Titan

open Library

/-- `pushU16` of the fixtures: the high byte first. -/
def pushU16 (value : UInt16) : List UInt8 := [(value >>> 8).toUInt8, value.toUInt8]

/-- `framed`: the length counts the type byte. -/
def framed (type : UInt8) (payload : List UInt8) : List UInt8 :=
  pushU16 (UInt16.ofNat (1 + payload.length)) ++ type :: payload

/-- A record whose length stays within `kMaxMessageSize`; its type may be unknown and its payload
of the wrong size. -/
structure FeedRecord where
  /-- The type byte. -/
  type : UInt8
  /-- The bytes after it. -/
  payload : List UInt8
  /-- The type byte and the payload fit a message. -/
  fits : payload.length ≤ 8191

namespace FeedRecord

/-- The bytes a record is sent as. -/
def encode (record : FeedRecord) : List UInt8 := framed record.type record.payload

/-- The frame the parser should find. -/
def frame (record : FeedRecord) : Frame := .record record.type record.payload

/-- What `decodeMessage` makes of a record. -/
def decoded (record : FeedRecord) : Option ItchMessage :=
  decodeMessage record.type record.payload

/-- The parse result a record should give: its own type, and `ok` and the message from
`decodeMessage`. -/
def result (record : FeedRecord) : ItchParseResult where
  ok := record.decoded.isSome
  rawType := record.type
  message := record.decoded.getD default

end FeedRecord

/-- A length written high byte first is read back. -/
theorem readU16BE_pushU16 (value : UInt16) (later : List UInt8) :
    readU16BE (pushU16 value ++ later) 0 = value := by
  have high : byteAt (pushU16 value ++ later) 0 = (value >>> 8).toUInt8 := rfl
  have low : byteAt (pushU16 value ++ later) (0 + 1) = value.toUInt8 := rfl
  rw [readU16BE, high, low]
  apply UInt16.toNat_inj.mp
  have bound : value.toNat < 2 ^ 16 := value.toNat_lt
  have rest : value.toNat % 2 ^ 8 < 2 ^ 8 := Nat.mod_lt _ (by decide)
  have quotient : value.toNat / 2 ^ 8 < 2 ^ 8 := by omega
  have shifted : (value.toNat / 2 ^ 8) <<< 8 % 2 ^ 16 = (value.toNat / 2 ^ 8) <<< 8 := by
    rw [Nat.shiftLeft_eq]
    omega
  simp only [UInt16.toNat_or, UInt16.toNat_shiftLeft, UInt8.toNat_toUInt16,
    UInt16.toNat_toUInt8, UInt16.toNat_shiftRight, Nat.shiftRight_eq_div_pow,
    UInt16.reduceToNat, Nat.reduceMod, Nat.mod_eq_of_lt quotient]
  rw [shifted, ← Nat.shiftLeft_add_eq_or_of_lt rest, Nat.shiftLeft_eq]
  omega

/-- The parser's result for a frame is the one `decodeMessage` gives. -/
theorem FeedRecord.frame_results (record : FeedRecord) :
    record.frame.results = [record.result] := by
  simp only [frame, Frame.results, parseRecord, result, decoded]
  cases decodeMessage record.type record.payload with
  | none => rfl
  | some message => rfl

/-- A frame counts as decoded when `decodeMessage` reads it. -/
theorem FeedRecord.frame_decoded (record : FeedRecord) :
    record.frame.decoded = record.decoded.isSome := by
  simp only [frame, Frame.decoded, parseRecord, decoded]
  cases decodeMessage record.type record.payload with
  | none => rfl
  | some message => rfl

/-- A sent record is the next frame, whatever follows it. -/
theorem FeedRecord.nextFrame_encode (record : FeedRecord) (later : List UInt8) :
    nextFrame (record.encode ++ later) =
      some (record.frame, record.encode.length) := by
  have fits := record.fits
  have size : record.encode.length = 2 + (1 + record.payload.length) := by
    simp only [encode, framed, pushU16, List.length_append, List.length_cons, List.length_nil]
    omega
  have total : (record.encode ++ later).length = record.encode.length + later.length :=
    List.length_append
  have split : record.encode ++ later =
      pushU16 (UInt16.ofNat (1 + record.payload.length)) ++
        record.type :: (record.payload ++ later) := by
    simp only [encode, framed, List.append_assoc, List.cons_append]
  have length : (readU16BE (record.encode ++ later) 0).toNat = 1 + record.payload.length := by
    rw [split, readU16BE_pushU16, UInt16.toNat_ofNat']
    omega
  have type : byteAt (record.encode ++ later) 2 = record.type := by
    rw [split]
    rfl
  have payload : ((record.encode ++ later).drop 3).take (1 + record.payload.length - 1) =
      record.payload := by
    have rest : (record.encode ++ later).drop 3 = record.payload ++ later := by
      rw [split]
      rfl
    rw [rest, Nat.add_sub_cancel_left, List.take_left]
  have headed : 2 ≤ (record.encode ++ later).length := by omega
  have sound : ¬(1 + record.payload.length = 0 ∨ 1 + record.payload.length > kMaxMessageSize) := by
    unfold kMaxMessageSize
    omega
  have whole : 2 + (1 + record.payload.length) ≤ (record.encode ++ later).length := by omega
  simp only [nextFrame, if_pos headed, length, if_neg sound, if_pos whole, type, payload, size,
    frame]

namespace ItchParser

/-- Records sent as frames, cut into chunks in any way and fed to a fresh parser come back one by
one in order, each as `decodeMessage` reads it; the counters count the decoded and the undecoded
ones and no byte stays buffered. -/
theorem feed_framed_records (records : List FeedRecord) (chunks : List (List UInt8))
    (split : chunks.flatten = records.flatMap FeedRecord.encode) :
    (init.feedAll chunks).1 = records.map FeedRecord.result ∧
      (init.feedAll chunks).2.messagesDecoded =
        records.countP (fun record => record.decoded.isSome) ∧
      (init.feedAll chunks).2.messagesSkipped =
        records.countP (fun record => record.decoded.isNone) ∧
      (init.feedAll chunks).2.buffer = [] := by
  have reads : itchFramer.Reads (init.buffer ++ records.flatMap FeedRecord.encode)
      (records.map FeedRecord.frame) [] :=
    Framer.reads_flatMap FeedRecord.encode FeedRecord.frame FeedRecord.nextFrame_encode rfl records
  have fed : init.feedAll chunks =
      ((records.map FeedRecord.frame).flatMap Frame.results,
        init.after (records.map FeedRecord.frame) []) := by
    rw [feedAll_init, split, feed_of_reads reads]
  have results : (records.map FeedRecord.frame).flatMap Frame.results =
      records.map FeedRecord.result := by
    simp only [List.flatMap_map, FeedRecord.frame_results]
    exact List.map_eq_flatMap.symm
  have isNone (record : FeedRecord) : record.decoded.isNone = !record.frame.decoded := by
    rw [record.frame_decoded, Option.not_isSome]
  rw [fed, results]
  simp only [after, init, Nat.zero_add, List.countP_map, Function.comp_def, isNone,
    FeedRecord.frame_decoded, and_self]

/-- A record of an unknown type and an empty one, fed in pieces that cut a length field. -/
theorem feed_framed_records_cut :
    [[0], [3, 90, 7, 8, 0], [1, 0]].flatten =
        [FeedRecord.mk 90 [7, 8] (by decide), FeedRecord.mk 0 [] (by decide)].flatMap
          FeedRecord.encode ∧
      (init.feedAll [[0], [3, 90, 7, 8, 0], [1, 0]]).2.buffer = [] :=
  ⟨by decide,
    (feed_framed_records [.mk 90 [7, 8] (by decide), .mk 0 [] (by decide)]
      [[0], [3, 90, 7, 8, 0], [1, 0]] (by decide)).2.2.2⟩

end ItchParser

end Titan
