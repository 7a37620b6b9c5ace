import TitanEngine.Feed.Codec

/-!
# The feed on the wire

A feed is a stream of messages, of records that nobody can decode and of corrupt length fields. The
parser gives every message back, skips the rest one by one and waits for what has not arrived
whole, wherever the stream is cut. Every stream of bytes is such a feed, in one way only.
-/

namespace Titan

open Library

/-- What may stand in a feed. -/
inductive WireItem where
  /-- A message, with a timestamp that six bytes can hold. -/
  | message (message : ItchMessage)
      (fits : ∀ timestamp ∈ message.timestamp?, timestamp.toNat < 2 ^ 48)
  /-- A record of an unknown type or of the wrong size. -/
  | unknown (record : FeedRecord) (undecoded : record.decoded = none)
  /-- A length that no record has. -/
  | corrupt (length : UInt16) (refused : length.toNat = 0 ∨ length.toNat > kMaxMessageSize)

/-- No message is longer than the longest of the ten types. -/
theorem ItchMessage.length_encode_le (message : ItchMessage) : message.encode.length ≤ 39 := by
  have sized := payloadLength?_type message
  cases message <;> exact (Nat.le_of_eq (Option.some.inj sized).symm).trans (by decide)

/-- The record a message is sent as. -/
def ItchMessage.record (message : ItchMessage) : FeedRecord where
  type := message.type
  payload := message.encode
  fits := message.length_encode_le.trans (by decide)

/-- A frame tells its record. -/
theorem FeedRecord.eq_of_frame {record other : FeedRecord} (same : record.frame = other.frame) :
    record = other := by
  obtain ⟨type, payload, fits⟩ := record
  obtain ⟨rfl, rfl⟩ := Frame.record.inj same
  rfl

namespace WireItem

/-- The bytes of an item. -/
def encode : WireItem → List UInt8
  | message sent _ => sent.record.encode
  | unknown record _ => record.encode
  | corrupt length _ => pushU16 length

/-- The frame the parser finds. -/
def frame : WireItem → Frame
  | message sent _ => sent.record.frame
  | unknown record _ => record.frame
  | corrupt _ _ => .corrupt

/-- What the parser returns for an item. -/
def results : WireItem → List ItchParseResult
  | message sent _ => [{ ok := true, rawType := sent.type, message := sent }]
  | unknown record _ => [{ ok := false, rawType := record.type, message := default }]
  | corrupt _ _ => []

/-- The message of an item. -/
def message? : WireItem → Option ItchMessage
  | message sent _ => some sent
  | unknown _ _ => none
  | corrupt _ _ => none

/-- A sent message is decoded as itself. -/
theorem decoded_record {sent : ItchMessage}
    (fits : ∀ timestamp ∈ sent.timestamp?, timestamp.toNat < 2 ^ 48) :
    sent.record.decoded = some sent :=
  decodeMessage_eq_some_iff.mpr ⟨rfl, rfl, fits⟩

/-- An item is the next frame, whatever follows it. -/
theorem nextFrame_encode (item : WireItem) (later : List UInt8) :
    nextFrame (item.encode ++ later) = some (item.frame, item.encode.length) := by
  cases item with
  | message sent fits => exact sent.record.nextFrame_encode later
  | unknown record undecoded => exact record.nextFrame_encode later
  | corrupt length refused =>
    have headed : 2 ≤ (pushU16 length ++ later).length := by
      rw [List.length_append]
      exact Nat.le_add_right 2 later.length
    simp only [encode, frame, nextFrame, if_pos headed, readU16BE_pushU16, if_pos refused]
    rfl

/-- The frame of an item gives its results. -/
theorem results_frame (item : WireItem) : item.frame.results = item.results := by
  cases item with
  | message sent fits =>
    rw [frame, sent.record.frame_results, FeedRecord.result, decoded_record fits]
    rfl
  | unknown record undecoded =>
    rw [frame, record.frame_results, FeedRecord.result, undecoded]
    rfl
  | corrupt length refused => rfl

/-- Messages count as decoded, and nothing else does. -/
theorem decoded_frame (item : WireItem) : item.frame.decoded = item.message?.isSome := by
  cases item with
  | message sent fits =>
    rw [frame, sent.record.frame_decoded, decoded_record fits]
    rfl
  | unknown record undecoded =>
    rw [frame, record.frame_decoded, undecoded]
    rfl
  | corrupt length refused => rfl

/-- Two items are not written alike. -/
theorem encode_injective {item other : WireItem} (same : item.encode = other.encode) :
    item = other := by
  have found := item.nextFrame_encode []
  rw [same, other.nextFrame_encode] at found
  obtain ⟨frames, _⟩ := Prod.mk.inj (Option.some.inj found)
  cases item with
  | message sent fits =>
    cases other with
    | message sent' fits' =>
      have decoded := decoded_record fits
      rw [← FeedRecord.eq_of_frame frames, decoded_record fits'] at decoded
      obtain rfl := Option.some.inj decoded
      rfl
    | unknown record undecoded =>
      have decoded := decoded_record fits
      rw [← FeedRecord.eq_of_frame frames, undecoded] at decoded
      cases decoded
    | corrupt length refused => cases frames
  | unknown record undecoded =>
    cases other with
    | message sent fits =>
      have decoded := decoded_record fits
      rw [FeedRecord.eq_of_frame frames, undecoded] at decoded
      cases decoded
    | unknown record' undecoded' =>
      obtain rfl := FeedRecord.eq_of_frame frames
      rfl
    | corrupt length refused => cases frames
  | corrupt length refused =>
    cases other with
    | message sent fits => cases frames
    | unknown record undecoded => cases frames
    | corrupt length' refused' =>
      have read : readU16BE (pushU16 length ++ []) 0 = length := readU16BE_pushU16 length []
      have same : pushU16 length = pushU16 length' := same
      rw [same, readU16BE_pushU16] at read
      subst read
      rfl

/-- Every record is that of some item. -/
theorem exists_encode_record (record : FeedRecord) :
    ∃ item : WireItem, item.encode = record.encode := by
  cases decoded : record.decoded with
  | none => exact ⟨.unknown record decoded, rfl⟩
  | some sent =>
    obtain ⟨type, payload, fits⟩ := decodeMessage_eq_some_iff.mp decoded
    refine ⟨.message sent fits, ?_⟩
    rw [encode, FeedRecord.encode, FeedRecord.encode, type, payload]
    rfl

/-- A whole record in front is its length, its type and its payload. -/
theorem take_whole {unread : List UInt8} (headed : 3 ≤ unread.length) (size : Nat) :
    unread.take (2 + (1 + size)) =
      pushU16 (readU16BE unread 0) ++ byteAt unread 2 :: (unread.drop 3).take size := by
  have read : unread.drop 0 = pushU16 (readU16BE unread 0) ++ unread.drop 2 :=
    (drop_eq_pushU16_iff (by omega)).mpr ⟨rfl, rfl⟩
  have typed : unread.drop 2 = pushU8 (byteAt unread 2) ++ unread.drop 3 :=
    (drop_eq_pushU8_iff headed).mpr ⟨rfl, rfl⟩
  calc unread.take (2 + (1 + size))
      = (unread.drop 0).take ((pushU16 (readU16BE unread 0)).length + (1 + size)) := rfl
    _ = pushU16 (readU16BE unread 0) ++
        (pushU8 (byteAt unread 2) ++ unread.drop 3).take (1 + size) := by
      rw [read, List.take_length_add_append, typed]
    _ = _ := by
      rw [Nat.add_comm]
      rfl

/-- A whole record stands in front as it was sent. -/
theorem encode_whole {unread : List UInt8} (some_ : (readU16BE unread 0).toNat ≠ 0)
    (sound : (readU16BE unread 0).toNat ≤ kMaxMessageSize)
    (whole : 2 + (readU16BE unread 0).toNat ≤ unread.length) :
    ∃ record : FeedRecord, record.encode = unread.take (2 + (readU16BE unread 0).toNat) := by
  obtain ⟨size, length⟩ : ∃ size, (readU16BE unread 0).toNat = 1 + size :=
    ⟨(readU16BE unread 0).toNat - 1, by omega⟩
  have paid : ((unread.drop 3).take size).length = size := by
    rw [List.length_take, List.length_drop]
    omega
  have fits : ((unread.drop 3).take size).length ≤ 8191 := by
    unfold kMaxMessageSize at sound
    omega
  refine ⟨⟨byteAt unread 2, (unread.drop 3).take size, fits⟩, ?_⟩
  rw [length, take_whole (by omega), FeedRecord.encode, framed, paid, ← length,
    UInt16.ofNat_toNat]

/-- Every frame was sent as some item. -/
theorem exists_encode {unread : List UInt8} {found : Frame} {taken : Nat}
    (front : nextFrame unread = some (found, taken)) :
    ∃ item : WireItem, item.encode = unread.take taken := by
  unfold nextFrame at front
  by_cases headed : 2 ≤ unread.length
  · by_cases refused : (readU16BE unread 0).toNat = 0 ∨
        (readU16BE unread 0).toNat > kMaxMessageSize
    · simp only [if_pos headed, if_pos refused, Option.some.injEq, Prod.mk.injEq] at front
      obtain ⟨_, rfl⟩ := front
      refine ⟨.corrupt (readU16BE unread 0) refused, ?_⟩
      have read : unread.drop 0 = pushU16 (readU16BE unread 0) ++ unread.drop 2 :=
        (drop_eq_pushU16_iff headed).mpr ⟨rfl, rfl⟩
      rw [List.drop_zero] at read
      have front := congrArg (List.take 2) read
      rw [front]
      rfl
    · simp only [if_pos headed, if_neg refused] at front
      split at front
      · rename_i whole
        obtain ⟨some_, sound⟩ := not_or.mp refused
        obtain ⟨record, written⟩ := encode_whole some_ (by omega) whole
        obtain ⟨item, sent⟩ := exists_encode_record record
        obtain ⟨_, rfl⟩ := Prod.mk.inj (Option.some.inj front)
        exact ⟨item, sent.trans written⟩
      · cases front
  · rw [if_neg headed] at front
    cases front

/-- The feed as a code of the parser's frames. -/
def code : itchFramer.Code WireItem where
  encode := encode
  item := frame
  taken := nextFrame_encode
  injective := encode_injective
  covers := exists_encode

end WireItem

namespace ItchParser

/-- A fresh parser after items, with a part that waits. -/
def afterItems (items : List WireItem) (part : List UInt8) : ItchParser where
  buffer := part
  messagesDecoded := items.countP (fun item => item.message?.isSome)
  messagesSkipped := items.countP (fun item => item.message?.isNone)

/-- Items that arrive in any chunks are returned one by one, and the rest waits. -/
theorem feedAll_items (items : List WireItem) {part : List UInt8} (waits : nextFrame part = none)
    (chunks : List (List UInt8))
    (sent : chunks.flatten = items.flatMap WireItem.encode ++ part) :
    init.feedAll chunks = (items.flatMap WireItem.results, afterItems items part) := by
  have reads : itchFramer.Reads (init.buffer ++ (items.flatMap WireItem.encode ++ part))
      (items.map WireItem.frame) part := WireItem.code.reads items waits
  have results : (items.map WireItem.frame).flatMap Frame.results =
      items.flatMap WireItem.results := by
    simp only [List.flatMap_map, WireItem.results_frame]
  have isNone (item : WireItem) : item.message?.isNone = !item.frame.decoded := by
    rw [item.decoded_frame, Option.not_isSome]
  rw [feedAll_init, sent, feed_of_reads reads, results]
  simp only [after, afterItems, init, Nat.zero_add, List.countP_map, Function.comp_def, isNone,
    WireItem.decoded_frame]

/-- A feed that was cut anywhere, between two items or inside one, and arrives in any chunks: the
items that arrived whole are returned in order, messages as they were sent, and the part of the last
one waits in the buffer. -/
theorem wire_round_trip (items : List WireItem) (last : WireItem) (arrived : Nat)
    (cut : arrived < last.encode.length) (chunks : List (List UInt8))
    (sent : chunks.flatten = items.flatMap WireItem.encode ++ last.encode.take arrived) :
    init.feedAll chunks =
      (items.flatMap WireItem.results, afterItems items (last.encode.take arrived)) :=
  feedAll_items items (WireItem.code.waits_of_take last cut) chunks sent

/-- A deletion of the given order, at time zero. -/
def deletion (ref : OrderRefNumber) : WireItem :=
  .message (.orderDelete { (default : OrderDeleteMessage) with orderReferenceNumber := ref })
    (fun _ stamped => Option.some.inj stamped ▸ Nat.two_pow_pos 48)

/-- Junk between two deletions, and seven bytes of a third one. -/
theorem wire_round_trip_junk :
    let items := [deletion 5, .corrupt 0 (.inl rfl), .unknown ⟨90, [7], by decide⟩ rfl, deletion 6]
    let chunk := items.flatMap WireItem.encode
    (init.feedAll [chunk.take 4, chunk.drop 4, (deletion 7).encode.take 7]).2.buffer.length = 7 ∧
      (init.feedAll [chunk.take 4, chunk.drop 4, (deletion 7).encode.take 7]).2.messagesDecoded
        = 2 := by
  intro items chunk
  have sent : [chunk.take 4, chunk.drop 4, (deletion 7).encode.take 7].flatten =
      items.flatMap WireItem.encode ++ (deletion 7).encode.take 7 := by
    simp only [List.flatten_cons, List.flatten_nil, List.append_nil, ← List.append_assoc,
      List.take_append_drop]
    rfl
  rw [wire_round_trip items (deletion 7) 7 (by decide) _ sent]
  decide

/-- Any stream of bytes is a feed in one way only, and the parser returns what that feed holds. -/
theorem wire_exact (chunks : List (List UInt8)) :
    ∃ (items : List WireItem) (part : List UInt8),
      chunks.flatten = items.flatMap WireItem.encode ++ part ∧ nextFrame part = none ∧
        init.feedAll chunks = (items.flatMap WireItem.results, afterItems items part) ∧
        ∀ others other, chunks.flatten = others.flatMap WireItem.encode ++ other →
          nextFrame other = none → others = items ∧ other = part := by
  obtain ⟨items, part, sent, waits⟩ := WireItem.code.exists_values chunks.flatten
  refine ⟨items, part, sent, waits, feedAll_items items waits chunks sent, ?_⟩
  intro others other again otherWaits
  exact WireItem.code.values_unique (again.symm.trans sent) otherWaits waits

end ItchParser

end Titan
