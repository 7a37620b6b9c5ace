import TitanEngine.Feed.Codec

/-!
# Where the bytes of the feed go

Every byte that is fed to the parser belongs to a record that was returned, to a corrupt length
that was dropped, or to the tail that is still buffered. The tail waits for the rest of one
record, so it is short, and every index that a pass reads lies inside the buffer.
-/

namespace Titan

open Library

namespace Frame

/-- What the length field of a record says: it counts the type byte and the payload. -/
def length : Frame → Nat
  | corrupt => 0
  | record _ payload => 1 + payload.length

/-- The bytes that a frame takes: its length field, and what the field counts. -/
def size (frame : Frame) : Nat := 2 + frame.length

/-- The length of a record, with the result that is returned for it. -/
def returned : Frame → Option (Nat × ItchParseResult)
  | corrupt => none
  | record type payload => some (1 + payload.length, parseRecord type payload)

/-- The bytes of frames are those of the records returned and two for each corrupt length. -/
theorem sum_size (frames : List Frame) : (frames.map size).sum =
    ((frames.filterMap returned).map (fun record => 2 + record.1)).sum +
      2 * frames.count corrupt := by
  induction frames with
  | nil => rfl
  | cons frame frames ih =>
    rw [List.map_cons, List.sum_cons, ih]
    cases frame with
    | corrupt =>
      rw [List.filterMap_cons_none (f := returned) rfl, List.count_cons_self]
      simp only [size, length]
      omega
    | record type payload =>
      rw [List.filterMap_cons_some (f := returned) rfl, List.map_cons, List.sum_cons,
        List.count_cons_of_ne (by simp)]
      simp only [size, length]
      omega

/-- The results of frames are those of the records returned. -/
theorem flatMap_results (frames : List Frame) :
    frames.flatMap results = (frames.filterMap returned).map Prod.snd := by
  induction frames with
  | nil => rfl
  | cons frame frames ih =>
    rw [List.flatMap_cons, ih]
    cases frame <;> rfl

/-- A frame is a record that is returned or a corrupt length. -/
theorem length_eq (frames : List Frame) :
    frames.length = (frames.flatMap results).length + frames.count corrupt := by
  induction frames with
  | nil => rfl
  | cons frame frames ih =>
    rw [List.flatMap_cons, List.length_append, List.length_cons, ih]
    cases frame with
    | corrupt =>
      rw [List.count_cons_self, results, List.length_nil]
      omega
    | record type payload =>
      rw [List.count_cons_of_ne (by simp), results, List.length_singleton]
      omega

/-- A frame counts as decoded or as skipped. -/
theorem length_eq_countP (frames : List Frame) :
    frames.length = frames.countP decoded + frames.countP (fun frame => !frame.decoded) := by
  have others : frames.countP (fun frame => !frame.decoded) =
      frames.countP (fun frame => decide (¬frame.decoded = true)) := by
    apply List.countP_congr
    intro frame _
    cases frame.decoded <;> simp
  rw [others]
  exact List.length_eq_countP_add_countP decoded

end Frame

/-- The tail of a stream waits for more: the length field is not there, or it counts more bytes
than are there and is not corrupt. -/
def Waits (tail : List UInt8) : Prop :=
  tail.length < 2 ∨
    1 ≤ (readU16BE tail 0).toNat ∧ (readU16BE tail 0).toNat ≤ kMaxMessageSize ∧
      tail.length < 2 + (readU16BE tail 0).toNat

/-- A tail without a whole frame in front waits for more. -/
theorem waits_of_nextFrame {tail : List UInt8} (waits : nextFrame tail = none) : Waits tail := by
  unfold nextFrame at waits
  simp only at waits
  split_ifs at waits with headed corrupt whole
  · exact .inr ⟨by omega, by omega, by omega⟩
  · exact .inl (by omega)

/-- A tail that waits is shorter than the longest message. -/
theorem Waits.length_le {tail : List UInt8} (waits : Waits tail) : tail.length ≤ 8193 := by
  have largest : kMaxMessageSize = 8192 := rfl
  unfold Waits at waits
  omega

/-- A frame takes as many bytes as its length field counts, behind the field. -/
theorem nextFrame_size {unread : List UInt8} {frame : Frame} {taken : Nat}
    (found : nextFrame unread = some (frame, taken)) : taken = frame.size := by
  unfold nextFrame at found
  simp only at found
  split_ifs at found with headed corrupt whole
  · obtain ⟨rfl, rfl⟩ := Prod.mk.inj (Option.some.inj found)
    rfl
  · obtain ⟨rfl, rfl⟩ := Prod.mk.inj (Option.some.inj found)
    simp only [Frame.size, Frame.length, List.length_take, List.length_drop]
    omega

/-- The fields that `decodeMessage` reads of a payload of its type's length, as offsets and
widths, in the order of the source. -/
def fieldsRead (type : UInt8) : List (Nat × Nat) :=
  if type = kItchSystemEvent then [(0, 2), (2, 2), (4, 6), (10, 1)]
  else if type = kItchStockDirectory then
    [(0, 2), (2, 2), (4, 6), (10, 8), (18, 1), (19, 1), (20, 4), (24, 1), (25, 1), (26, 2),
      (28, 1), (29, 1), (30, 1), (31, 1), (32, 1), (33, 4), (37, 1)]
  else if type = kItchAddOrder then
    [(0, 2), (2, 2), (4, 6), (10, 8), (18, 1), (19, 4), (23, 8), (31, 4)]
  else if type = kItchAddOrderMpid then
    [(0, 2), (2, 2), (4, 6), (10, 8), (18, 1), (19, 4), (23, 8), (31, 4), (35, 4)]
  else if type = kItchOrderExecuted then
    [(0, 2), (2, 2), (4, 6), (10, 8), (18, 4), (22, 8)]
  else if type = kItchOrderExecutedWithPrice then
    [(0, 2), (2, 2), (4, 6), (10, 8), (18, 4), (22, 8), (30, 1), (31, 4)]
  else if type = kItchOrderCancel then [(0, 2), (2, 2), (4, 6), (10, 8), (18, 4)]
  else if type = kItchOrderDelete then [(0, 2), (2, 2), (4, 6), (10, 8)]
  else if type = kItchOrderReplace then
    [(0, 2), (2, 2), (4, 6), (10, 8), (18, 8), (26, 4), (30, 4)]
  else if type = kItchTimestampSeconds then [(0, 4)]
  else []

/-- The indices of a payload that `decodeMessage` reads: none when the length is not the type's. -/
def decodeReads (type : UInt8) (size : Nat) : List Nat :=
  if payloadLength? type = some size then
    (fieldsRead type).flatMap (fun field => List.range' field.1 field.2)
  else []

/-- The fields of a type lie one behind the other and fill a payload of its length. -/
theorem fieldsRead_fill {type : UInt8} {size : Nat} (sized : payloadLength? type = some size) :
    (fieldsRead type).flatMap (fun field => List.range' field.1 field.2) = List.range size := by
  unfold payloadLength? at sized
  iterate 10
    obtain ⟨rfl, sized⟩ | sized := ite_eq_some_cases sized
    · obtain rfl := Option.some.inj sized
      decide
  cases sized

/-- `decodeMessage` reads inside its payload. -/
theorem lt_of_mem_decodeReads {type : UInt8} {size index : Nat}
    (read : index ∈ decodeReads type size) : index < size := by
  unfold decodeReads at read
  split at read
  · rename_i sized
    rw [fieldsRead_fill sized] at read
    exact List.mem_range.mp read
  · cases read

/-- `decodeMessage` looks at nothing but the length and the bytes that it reads. -/
theorem decodeMessage_congr {type : UInt8} {payload other : List UInt8}
    (sized : other.length = payload.length)
    (same : ∀ index ∈ decodeReads type payload.length,
      byteAt other index = byteAt payload index) :
    decodeMessage type other = decodeMessage type payload := by
  by_cases fits : payloadLength? type = some payload.length
  · have all : decodeReads type payload.length = List.range payload.length := by
      rw [decodeReads, if_pos fits, fieldsRead_fill fits]
    suffices bytes : other = payload by rw [bytes]
    apply List.ext_getElem sized
    intro index inOther inPayload
    have read := same index (by rw [all]; exact List.mem_range.mpr inPayload)
    simpa [byteAt, List.getElem?_eq_getElem inOther, List.getElem?_eq_getElem inPayload]
      using read
  · have refused : decodeMessage type payload = none := decodeMessage_eq_none fits
    have refusedOther : decodeMessage type other = none :=
      decodeMessage_eq_none (by rw [sized]; exact fits)
    rw [refused, refusedOther]

namespace ItchParser

/-- Where the loop of `feed` starts. -/
def startOf (parser : ItchParser) : FeedState where
  offset := 0
  results := []
  messagesDecoded := parser.messagesDecoded
  messagesSkipped := parser.messagesSkipped

/-- The state the loop of `feed` breaks with. -/
def finalOf (parser : ItchParser) (data : List UInt8) : FeedState :=
  let buffer := parser.buffer ++ data
  loop (feedPass buffer) (buffer.length + 1) parser.startOf

/-- The indices of the buffer that a pass reads: those of the length, of the type and of what
`decodeMessage` reads of the payload. -/
def passReads (buffer : List UInt8) (state : FeedState) : List Nat :=
  if buffer.length - state.offset ≥ 2 then
    let length := (readU16BE buffer state.offset).toNat
    [state.offset, state.offset + 1] ++
      if length = 0 ∨ length > kMaxMessageSize then []
      else if buffer.length - state.offset < 2 + length then []
      else
        (state.offset + 2) ::
          (decodeReads (byteAt buffer (state.offset + 2)) (length - 1)).map
            (fun index => state.offset + 3 + index)
  else []

/-- A byte of the payload of a record is the byte of the buffer behind its offset. -/
theorem byteAt_take_drop (buffer : List UInt8) (start : Nat) {width index : Nat}
    (inside : index < width) :
    byteAt ((buffer.drop start).take width) index = byteAt buffer (start + index) := by
  simp only [byteAt, List.getD_eq_getElem?_getD, List.getElem?_take_of_lt inside,
    List.getElem?_drop]

/-- The result of a whole record is decided by what is read of its payload. -/
theorem parseRecord_congr {buffer other : List UInt8} {type : UInt8}
    {start width : Nat} (sized : other.length = buffer.length)
    (whole : start + width ≤ buffer.length)
    (same : ∀ index ∈ decodeReads type width,
      byteAt other (start + index) = byteAt buffer (start + index)) :
    parseRecord type ((other.drop start).take width) =
      parseRecord type ((buffer.drop start).take width) := by
  have filled : ((buffer.drop start).take width).length = width := by
    rw [List.length_take, List.length_drop]
    omega
  have message : decodeMessage type ((other.drop start).take width) =
      decodeMessage type ((buffer.drop start).take width) := by
    apply decodeMessage_congr
    · simp only [List.length_take, List.length_drop, sized]
    · intro index read
      rw [filled] at read
      have inside := lt_of_mem_decodeReads read
      rw [byteAt_take_drop other start inside, byteAt_take_drop buffer start inside]
      exact same index read
  rw [parseRecord, parseRecord, message]

/-- A pass looks at nothing but the buffer's length and the bytes that it reads. -/
theorem feedPass_congr {buffer other : List UInt8} {state : FeedState}
    (sized : other.length = buffer.length)
    (same : ∀ index ∈ passReads buffer state, byteAt other index = byteAt buffer index) :
    feedPass other state = feedPass buffer state := by
  by_cases headed : buffer.length - state.offset ≥ 2
  · have length : readU16BE other state.offset = readU16BE buffer state.offset := by
      unfold readU16BE
      rw [same state.offset (by simp [passReads, headed]),
        same (state.offset + 1) (by simp [passReads, headed])]
    by_cases corrupt : (readU16BE buffer state.offset).toNat = 0 ∨
        (readU16BE buffer state.offset).toNat > kMaxMessageSize
    · simp only [feedPass, sized, length, if_pos headed, if_pos corrupt]
    by_cases partly : buffer.length - state.offset < 2 + (readU16BE buffer state.offset).toNat
    · simp only [feedPass, sized, length, if_pos headed, if_neg corrupt, if_pos partly]
    have reads : passReads buffer state = [state.offset, state.offset + 1] ++
        (state.offset + 2) :: (decodeReads (byteAt buffer (state.offset + 2))
          ((readU16BE buffer state.offset).toNat - 1)).map
            (fun index => state.offset + 3 + index) := by
      simp only [passReads, if_pos headed, if_neg corrupt, if_neg partly]
    rw [reads] at same
    have type : byteAt other (state.offset + 2) = byteAt buffer (state.offset + 2) :=
      same _ (by simp)
    have result : parseRecord (byteAt buffer (state.offset + 2))
          ((other.drop (state.offset + 3)).take ((readU16BE buffer state.offset).toNat - 1)) =
        parseRecord (byteAt buffer (state.offset + 2))
          ((buffer.drop (state.offset + 3)).take
            ((readU16BE buffer state.offset).toNat - 1)) := by
      apply parseRecord_congr sized (by omega)
      intro index read
      exact same _ (by simp [read])
    simp only [feedPass, sized, length, type, result]
  · simp only [feedPass, sized, if_neg headed]

/-- A call of `feed` comes to its break and stays inside its buffer. -/
structure StaysInside (parser : ItchParser) (data : List UInt8) : Prop where
  /-- The loop ends. -/
  ends : Ends (feedPass (parser.buffer ++ data)) parser.startOf (parser.finalOf data)
  /-- The offset never passes the end, so the subtraction from the size does not wrap. -/
  offsets : ∀ state, Reaches (feedPass (parser.buffer ++ data)) parser.startOf state →
    state.offset ≤ (parser.buffer ++ data).length
  /-- Every index that is read is inside. -/
  reads : ∀ state, Reaches (feedPass (parser.buffer ++ data)) parser.startOf state →
    ∀ index ∈ passReads (parser.buffer ++ data) state, index < (parser.buffer ++ data).length
  /-- No other byte is looked at. -/
  decided : ∀ state, Reaches (feedPass (parser.buffer ++ data)) parser.startOf state →
    ∀ other : List UInt8, other.length = (parser.buffer ++ data).length →
      (∀ index ∈ passReads (parser.buffer ++ data) state,
        byteAt other index = byteAt (parser.buffer ++ data) index) →
      feedPass other state = feedPass (parser.buffer ++ data) state
  /-- What is erased at the end is there. -/
  erases : (parser.finalOf data).offset ≤ (parser.buffer ++ data).length

/-- A pass from an offset inside the buffer reads inside the buffer. -/
theorem lt_of_mem_passReads {buffer : List UInt8} {state : FeedState} {index : Nat}
    (inside : state.offset ≤ buffer.length) (read : index ∈ passReads buffer state) :
    index < buffer.length := by
  unfold passReads at read
  simp only at read
  split_ifs at read with headed corrupt whole
  · simp only [List.append_nil, List.mem_cons, List.not_mem_nil, or_false] at read
    omega
  · simp only [List.append_nil, List.mem_cons, List.not_mem_nil, or_false] at read
    omega
  · simp only [List.cons_append, List.nil_append, List.mem_cons, List.mem_map] at read
    rcases read with rfl | rfl | rfl | ⟨within, decoded, rfl⟩
    · omega
    · omega
    · omega
    · have bound := lt_of_mem_decodeReads decoded
      omega
  · cases read

/-- Every call stays inside its buffer, whatever the parser and the bytes. -/
theorem staysInside (parser : ItchParser) (data : List UInt8) : parser.StaysInside data := by
  let buffer := parser.buffer ++ data
  have ends : Ends (feedPass buffer) parser.startOf (parser.finalOf data) :=
    feed_ends buffer parser.startOf rfl
  have kept : ∀ state next : FeedState, state.offset ≤ buffer.length →
      feedPass buffer state = .yield next → next.offset ≤ buffer.length := by
    intro state next inside passed
    exact (offset_of_yield inside passed).2
  have broken : ∀ state final : FeedState, state.offset ≤ buffer.length →
      feedPass buffer state = .done final → final.offset ≤ buffer.length := by
    intro state final inside broke
    obtain ⟨_, rfl⟩ := nextFrame_of_done broke
    exact inside
  have start : parser.startOf.offset ≤ buffer.length := Nat.zero_le _
  have offsets : ∀ state, Reaches (feedPass buffer) parser.startOf state →
      state.offset ≤ buffer.length := fun state reaches =>
    reaches.invariant (fun state => state.offset ≤ buffer.length) kept start
  constructor
  · exact ends
  · exact offsets
  · intro state reaches index read
    exact lt_of_mem_passReads (offsets state reaches) read
  · intro state _ other sized same
    exact feedPass_congr sized same
  · exact ends.post kept broken start

/-- The frames that the passes of a call find in front of the unread bytes, in order. -/
def framesOf (parser : ItchParser) (data : List UInt8) : List Frame :=
  let buffer := parser.buffer ++ data
  notes (feedPass buffer)
    (fun state => ((nextFrame (buffer.drop state.offset)).map Prod.fst).toList)
    (buffer.length + 1) parser.startOf

/-- A call of `feed` with the frames that its passes find. -/
def feedNoted (parser : ItchParser) (data : List UInt8) :
    (List ItchParseResult × List Frame) × ItchParser :=
  let (results, next) := parser.feed data
  ((results, parser.framesOf data), next)

/-- The frames that are noted are the reading of the unread bytes. -/
theorem reads_notes {buffer : List UInt8} (fuel : Nat) {state : FeedState}
    (enough : buffer.length - state.offset < fuel) :
    itchFramer.Reads (buffer.drop state.offset)
      (notes (feedPass buffer)
        (fun state => ((nextFrame (buffer.drop state.offset)).map Prod.fst).toList) fuel state)
      (buffer.drop (loop (feedPass buffer) fuel state).offset) := by
  induction fuel generalizing state with
  | zero => omega
  | succ fuel ih =>
    unfold notes loop
    have pass := feedPass_eq buffer state
    cases front : nextFrame (buffer.drop state.offset) with
    | none =>
      rw [front] at pass
      rw [pass]
      exact .wait front
    | some found =>
      obtain ⟨frame, taken⟩ := found
      have progress := itchFramer.progress front
      have seen := itchFramer.within front
      rw [List.length_drop] at seen
      rw [front] at pass
      rw [pass]
      have rest := @ih (state.account (frame, taken)) (by simp only [FeedState.account]; omega)
      refine .take front ?_
      rw [List.drop_drop]
      exact rest

/-- A call reads the buffered and the new bytes as the frames noted, and buffers the tail. -/
theorem reads_framesOf (parser : ItchParser) (data : List UInt8) :
    itchFramer.Reads (parser.buffer ++ data) (parser.framesOf data)
      (parser.feed data).2.buffer := by
  let buffer := parser.buffer ++ data
  have enough : buffer.length - parser.startOf.offset < buffer.length + 1 := by
    simp only [startOf]
    omega
  exact reads_notes (buffer.length + 1) enough

/-- What a call returns, counts and buffers. -/
theorem feed_accounts (parser : ItchParser) (data : List UInt8) :
    let frames := parser.framesOf data
    let next := (parser.feed data).2
    (parser.feed data).1 = frames.flatMap Frame.results ∧
      parser.buffer.length + data.length = (frames.map Frame.size).sum + next.buffer.length ∧
      next.messagesDecoded + next.messagesSkipped =
        parser.messagesDecoded + parser.messagesSkipped + frames.length ∧
      Waits next.buffer := by
  intro frames next
  have reads := parser.reads_framesOf data
  have fed := feed_of_reads reads
  refine ⟨congrArg Prod.fst fed, ?_, ?_, waits_of_nextFrame reads.waits⟩
  · rw [← List.length_append]
    exact reads.length_eq nextFrame_size
  · have after : next = parser.after frames next.buffer := congrArg Prod.snd fed
    have counted := Frame.length_eq_countP frames
    rw [after]
    simp only [ItchParser.after]
    omega

/-- What a run returns, counts and buffers. -/
theorem run_accounts (parser : ItchParser) (waits : Waits parser.buffer)
    (chunks : List (List UInt8)) :
    let fed := run feedNoted parser chunks
    let frames := fed.1.flatMap Prod.snd
    fed.1.flatMap Prod.fst = frames.flatMap Frame.results ∧
      parser.buffer.length + (chunks.map List.length).sum =
        (frames.map Frame.size).sum + fed.2.buffer.length ∧
      fed.2.messagesDecoded + fed.2.messagesSkipped =
        parser.messagesDecoded + parser.messagesSkipped + frames.length ∧
      Waits fed.2.buffer := by
  induction chunks generalizing parser with
  | nil => simpa [run] using waits
  | cons chunk chunks ih =>
    obtain ⟨results, bytes, counts, tail⟩ := parser.feed_accounts chunk
    obtain ⟨laterResults, laterBytes, laterCounts, laterTail⟩ := ih (parser.feed chunk).2 tail
    intro fed frames
    have split : frames = parser.framesOf chunk ++
        (run feedNoted (parser.feed chunk).2 chunks).1.flatMap Prod.snd := rfl
    refine ⟨?_, ?_, ?_, laterTail⟩
    · rw [split, List.flatMap_append, ← results, ← laterResults]
      rfl
    · rw [split, List.map_append, List.sum_append, List.map_cons, List.sum_cons]
      change _ = _ + (run feedNoted (parser.feed chunk).2 chunks).2.buffer.length
      omega
    · rw [split, List.length_append]
      change (run feedNoted (parser.feed chunk).2 chunks).2.messagesDecoded +
        (run feedNoted (parser.feed chunk).2 chunks).2.messagesSkipped = _
      omega

/-- Where all bytes go, along every run from a fresh parser: any next call ends and stays inside its
buffer; the bytes fed are those of the records returned, two for each corrupt length, and those
buffered; every record returned and every corrupt length is counted once; and the tail that is
buffered waits for the rest of one message, so it is short. -/
theorem feed_byte_accounting (chunks : List (List UInt8)) :
    let fed : List (List ItchParseResult × List Frame) × ItchParser := run feedNoted init chunks
    let parser := fed.2
    let results := fed.1.flatMap Prod.fst
    let frames := fed.1.flatMap Prod.snd
    let returned := frames.filterMap Frame.returned
    let corrupt := frames.count Frame.corrupt
    (∀ data, parser.StaysInside data) ∧
      results = returned.map Prod.snd ∧
      (chunks.map List.length).sum =
        (returned.map (fun record => 2 + record.1)).sum + 2 * corrupt + parser.buffer.length ∧
      parser.messagesDecoded + parser.messagesSkipped = results.length + corrupt ∧
      Waits parser.buffer ∧ parser.buffer.length ≤ 8193 := by
  intro fed parser results frames returned corrupt
  obtain ⟨same, bytes, counts, waits⟩ := run_accounts init (.inl (by decide)) chunks
  refine ⟨parser.staysInside, ?_, ?_, ?_, waits, waits.length_le⟩
  · rw [← Frame.flatMap_results]
    exact same
  · rw [← Frame.sum_size, ← bytes]
    exact (Nat.zero_add _).symm
  · have all : parser.messagesDecoded + parser.messagesSkipped = frames.length :=
      counts.trans (Nat.zero_add _)
    have shared : results = frames.flatMap Frame.results := same
    rw [all, shared]
    exact Frame.length_eq frames

end ItchParser

end Titan
