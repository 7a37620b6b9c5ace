import TitanEngine.Feed.Decoder
import TitanEngine.Library.Framing
import TitanEngine.Library.Machine

/-!
# The incremental parser

`ItchParser` of `src/feed/itch/parser.cpp`: a record is a big-endian length, a type byte and a
payload, and what does not make a whole record yet stays in the buffer. `nextFrame` says what
one pass of the loop finds at its offset; `feed` reads the buffered and the new bytes with it,
so that a stream may be cut into chunks anywhere.
-/

namespace Titan

open Library

/-- `ItchParseResult`. -/
structure ItchParseResult where
  /-- Whether the record was decoded. -/
  ok : Bool
  /-- Its type byte. -/
  rawType : UInt8
  /-- The message; value-initialised when the record was not decoded. -/
  message : ItchMessage
  deriving DecidableEq, Repr, Inhabited

/-- `kMaxMessageSize`. -/
def kMaxMessageSize : Nat := 8192

/-- `ItchParser`. -/
structure ItchParser where
  /-- `buffer_`. -/
  buffer : List UInt8
  /-- `messagesDecoded_`. -/
  messagesDecoded : Nat
  /-- `messagesSkipped_`. -/
  messagesSkipped : Nat
  deriving DecidableEq, Repr, Inhabited

/-- The result of one record. -/
def parseRecord (type : UInt8) (payload : List UInt8) : ItchParseResult :=
  match decodeMessage type payload with
  | some message => { ok := true, rawType := type, message := message }
  | none => { ok := false, rawType := type, message := default }

namespace ItchParser

/-- A fresh parser. -/
def init : ItchParser := { buffer := [], messagesDecoded := 0, messagesSkipped := 0 }

/-- What the loop of `feed` changes. -/
structure FeedState where
  /-- `offset`. -/
  offset : Nat
  /-- `results`. -/
  results : List ItchParseResult
  /-- `messagesDecoded_`. -/
  messagesDecoded : Nat
  /-- `messagesSkipped_`. -/
  messagesSkipped : Nat

/-- One pass of the loop of `feed`. -/
def feedPass (buffer : List UInt8) (state : FeedState) : ForInStep FeedState :=
  if buffer.length - state.offset ≥ 2 then
    let length := (readU16BE buffer state.offset).toNat
    if length = 0 ∨ length > kMaxMessageSize then
      .yield { state with
        messagesSkipped := state.messagesSkipped + 1
        offset := state.offset + 2 }
    else
      let totalSize := 2 + length
      if buffer.length - state.offset < totalSize then .done state
      else
        let type := byteAt buffer (state.offset + 2)
        let payload := (buffer.drop (state.offset + 3)).take (length - 1)
        let result := parseRecord type payload
        .yield {
          offset := state.offset + totalSize
          results := state.results ++ [result]
          messagesDecoded :=
            if result.ok then state.messagesDecoded + 1 else state.messagesDecoded
          messagesSkipped :=
            if result.ok then state.messagesSkipped else state.messagesSkipped + 1 }
  else .done state

/-- `feed`; every pass moves the offset, so the buffer's length bounds the passes. -/
def feed (parser : ItchParser) (data : List UInt8) : List ItchParseResult × ItchParser :=
  let buffer := parser.buffer ++ data
  let final := loop (feedPass buffer) (buffer.length + 1)
    { offset := 0
      results := []
      messagesDecoded := parser.messagesDecoded
      messagesSkipped := parser.messagesSkipped }
  (final.results,
    { buffer := buffer.drop final.offset
      messagesDecoded := final.messagesDecoded
      messagesSkipped := final.messagesSkipped })

/-- Feed a list of chunks, one call each, and collect the results. -/
def feedAll (parser : ItchParser) (chunks : List (List UInt8)) :
    List ItchParseResult × ItchParser :=
  let fed := run feed parser chunks
  (fed.1.flatten, fed.2)

end ItchParser

/-- What stands at the front of unread bytes. -/
inductive Frame where
  | corrupt
  | record (type : UInt8) (payload : List UInt8)
  deriving DecidableEq, Repr

namespace Frame

/-- The results a frame adds; a corrupt length adds none. -/
def results : Frame → List ItchParseResult
  | corrupt => []
  | record type payload => [parseRecord type payload]

/-- Whether a frame counts as decoded; the others count as skipped. -/
def decoded : Frame → Bool
  | corrupt => false
  | record type payload => (parseRecord type payload).ok

end Frame

/-- The frame at the front of unread bytes and its size; none when it is not whole yet. -/
def nextFrame (unread : List UInt8) : Option (Frame × Nat) :=
  if 2 ≤ unread.length then
    let length := (readU16BE unread 0).toNat
    if length = 0 ∨ length > kMaxMessageSize then some (.corrupt, 2)
    else if 2 + length ≤ unread.length then
      some (.record (byteAt unread 2) ((unread.drop 3).take (length - 1)), 2 + length)
    else none
  else none

/-- A byte that was seen stays where it is when more arrive. -/
theorem byteAt_append {unread : List UInt8} {index : Nat} (inside : index < unread.length)
    (later : List UInt8) : byteAt (unread ++ later) index = byteAt unread index := by
  simp only [byteAt, List.getD_eq_getElem?_getD, List.getElem?_append_left inside]

/-- A length that was seen stays the same when more bytes arrive. -/
theorem readU16BE_append {unread : List UInt8} (inside : 2 ≤ unread.length)
    (later : List UInt8) : readU16BE (unread ++ later) 0 = readU16BE unread 0 := by
  unfold readU16BE
  rw [byteAt_append (by omega), byteAt_append (by omega)]

/-- A byte at an offset is a byte of the rest. -/
theorem byteAt_drop (buffer : List UInt8) (offset index : Nat) :
    byteAt (buffer.drop offset) index = byteAt buffer (offset + index) := by
  simp only [byteAt, List.getD_eq_getElem?_getD, List.getElem?_drop]

/-- The framing of the feed. -/
def itchFramer : Framer UInt8 Frame where
  next := nextFrame
  progress {unread item taken} found := by
    simp only [nextFrame] at found
    split_ifs at found
    all_goals
      simp only [Option.some.injEq, Prod.mk.injEq] at found
      omega
  within {unread item taken} found := by
    simp only [nextFrame] at found
    split_ifs at found
    all_goals
      simp only [Option.some.injEq, Prod.mk.injEq] at found
      omega
  stable {unread item taken} later found := by
    by_cases headed : 2 ≤ unread.length
    · have longer : 2 ≤ (unread ++ later).length := by
        rw [List.length_append]
        omega
      simp only [nextFrame, if_pos headed] at found
      simp only [nextFrame, if_pos longer, readU16BE_append headed later]
      by_cases corrupt : (readU16BE unread 0).toNat = 0 ∨
          (readU16BE unread 0).toNat > kMaxMessageSize
      · simpa only [if_pos corrupt] using found
      · by_cases whole : 2 + (readU16BE unread 0).toNat ≤ unread.length
        · have wholeLonger : 2 + (readU16BE unread 0).toNat ≤ (unread ++ later).length := by
            rw [List.length_append]
            omega
          simp only [if_neg corrupt, if_pos whole] at found
          simp only [if_neg corrupt, if_pos wholeLonger]
          have type : byteAt (unread ++ later) 2 = byteAt unread 2 :=
            byteAt_append (by omega) later
          have payload : ((unread ++ later).drop 3).take ((readU16BE unread 0).toNat - 1) =
              (unread.drop 3).take ((readU16BE unread 0).toNat - 1) := by
            rw [List.drop_append_of_le_length (by omega), List.take_append_of_le_length]
            rw [List.length_drop]
            omega
          rw [type, payload]
          exact found
        · simp [if_neg corrupt, if_neg whole] at found
    · simp [nextFrame, if_neg headed] at found

namespace ItchParser

/-- What a frame does to the loop's state. -/
def FeedState.account (state : FeedState) (found : Frame × Nat) : FeedState where
  offset := state.offset + found.2
  results := state.results ++ found.1.results
  messagesDecoded := state.messagesDecoded + if found.1.decoded then 1 else 0
  messagesSkipped := state.messagesSkipped + if found.1.decoded then 0 else 1

/-- A pass looks at the unread bytes only: it accounts for the frame in front of them, or
breaks. -/
theorem feedPass_eq (buffer : List UInt8) (state : FeedState) :
    feedPass buffer state =
      match nextFrame (buffer.drop state.offset) with
      | none => .done state
      | some found => .yield (state.account found) := by
  have length : readU16BE (buffer.drop state.offset) 0 = readU16BE buffer state.offset := by
    simp only [readU16BE, byteAt_drop, Nat.add_zero, Nat.zero_add]
  have type := byteAt_drop buffer state.offset 2
  have payload : (buffer.drop state.offset).drop 3 = buffer.drop (state.offset + 3) := by
    rw [List.drop_drop]
  simp only [feedPass, nextFrame, length, type, payload, List.length_drop, ge_iff_le]
  split_ifs
  all_goals try omega
  all_goals try rfl
  all_goals simp_all [FeedState.account, Frame.results, Frame.decoded]

/-- The parser after a reading of its buffer. -/
def after (parser : ItchParser) (frames : List Frame) (tail : List UInt8) : ItchParser where
  buffer := tail
  messagesDecoded := parser.messagesDecoded + frames.countP Frame.decoded
  messagesSkipped := parser.messagesSkipped + frames.countP (fun frame => !frame.decoded)

/-- A pass that goes on accounts for the frame in front. -/
theorem nextFrame_of_yield {buffer : List UInt8} {state next : FeedState}
    (passed : feedPass buffer state = .yield next) :
    ∃ found, nextFrame (buffer.drop state.offset) = some found ∧ next = state.account found := by
  rw [feedPass_eq] at passed
  cases front : nextFrame (buffer.drop state.offset) with
  | none => simp [front] at passed
  | some found =>
    simp only [front, ForInStep.yield.injEq] at passed
    exact ⟨found, rfl, passed.symm⟩

/-- A pass that breaks has no whole frame in front and changes nothing. -/
theorem nextFrame_of_done {buffer : List UInt8} {state final : FeedState}
    (broke : feedPass buffer state = .done final) :
    nextFrame (buffer.drop state.offset) = none ∧ final = state := by
  rw [feedPass_eq] at broke
  cases front : nextFrame (buffer.drop state.offset) with
  | none =>
    simp only [front, ForInStep.done.injEq] at broke
    exact ⟨rfl, broke.symm⟩
  | some found => simp [front] at broke

/-- The loop reads the unread bytes frame by frame. -/
theorem reads_of_ends {buffer : List UInt8} {state final : FeedState}
    (ends : Ends (feedPass buffer) state final) :
    ∃ frames, itchFramer.Reads (buffer.drop state.offset) frames (buffer.drop final.offset) ∧
      final.results = state.results ++ frames.flatMap Frame.results ∧
      final.messagesDecoded = state.messagesDecoded + frames.countP Frame.decoded ∧
      final.messagesSkipped =
        state.messagesSkipped + frames.countP (fun frame => !frame.decoded) := by
  induction ends with
  | done broke =>
    obtain ⟨waits, rfl⟩ := nextFrame_of_done broke
    exact ⟨[], .wait waits, by simp, by simp, by simp⟩
  | yield passed _ ih =>
    obtain ⟨⟨frame, taken⟩, front, rfl⟩ := nextFrame_of_yield passed
    obtain ⟨frames, reads, results, decoded, skipped⟩ := ih
    refine ⟨frame :: frames, .take front ?_, ?_, ?_, ?_⟩
    · rw [List.drop_drop]
      exact reads
    · rw [results]
      simp only [FeedState.account, List.flatMap_cons, List.append_assoc]
    · rw [decoded]
      simp only [FeedState.account, List.countP_cons]
      omega
    · rw [skipped]
      simp only [FeedState.account, List.countP_cons]
      cases frame.decoded with
      | false =>
        simp only [Bool.not_false, Bool.false_eq_true, ↓reduceIte]
        omega
      | true => simp

/-- A pass that goes on moves the offset, and leaves it inside the buffer. -/
theorem offset_of_yield {buffer : List UInt8} {state next : FeedState}
    (inside : state.offset ≤ buffer.length) (passed : feedPass buffer state = .yield next) :
    state.offset < next.offset ∧ next.offset ≤ buffer.length := by
  obtain ⟨⟨frame, taken⟩, front, rfl⟩ := nextFrame_of_yield passed
  have moved := itchFramer.progress front
  have seen := itchFramer.within front
  rw [List.length_drop] at seen
  simp only [FeedState.account]
  omega

/-- Every call of `feed` comes to its break. -/
theorem feed_ends (buffer : List UInt8) (state : FeedState) (start : state.offset = 0) :
    Ends (feedPass buffer) state (loop (feedPass buffer) (buffer.length + 1) state) := by
  have kept : ∀ state next : FeedState, state.offset ≤ buffer.length →
      feedPass buffer state = .yield next →
      next.offset ≤ buffer.length ∧
        buffer.length - next.offset < buffer.length - state.offset := by
    intro state next inside passed
    have after := offset_of_yield inside passed
    omega
  exact loop_ends (fun state => state.offset ≤ buffer.length)
    (fun state => buffer.length - state.offset) kept _ state (by omega) (by omega)

/-- A call of `feed` reads the buffered and the new bytes, and leaves the tail. -/
theorem feed_reads (parser : ItchParser) (data : List UInt8) :
    ∃ frames tail, itchFramer.Reads (parser.buffer ++ data) frames tail ∧
      parser.feed data = (frames.flatMap Frame.results, parser.after frames tail) := by
  obtain ⟨frames, reads, results, decoded, skipped⟩ := reads_of_ends
    (feed_ends (parser.buffer ++ data)
      { offset := 0
        results := []
        messagesDecoded := parser.messagesDecoded
        messagesSkipped := parser.messagesSkipped } rfl)
  refine ⟨frames, _, reads, ?_⟩
  simp only [feed, results, decoded, skipped, List.nil_append, after]

/-- A call of `feed` is decided by the reading of its bytes. -/
theorem feed_of_reads {parser : ItchParser} {data tail : List UInt8} {frames : List Frame}
    (reads : itchFramer.Reads (parser.buffer ++ data) frames tail) :
    parser.feed data = (frames.flatMap Frame.results, parser.after frames tail) := by
  obtain ⟨others, other, again, fed⟩ := parser.feed_reads data
  obtain ⟨rfl, rfl⟩ := reads.unique again
  exact fed

/-- Two calls return together, and leave, what one call on both chunks does. -/
theorem feed_append (parser : ItchParser) (first second : List UInt8) :
    parser.feed (first ++ second) =
      ((parser.feed first).1 ++ ((parser.feed first).2.feed second).1,
        ((parser.feed first).2.feed second).2) := by
  obtain ⟨frames, tail, reads, fed⟩ := parser.feed_reads first
  obtain ⟨others, final, later, fedLater⟩ := (parser.after frames tail).feed_reads second
  have whole : itchFramer.Reads (parser.buffer ++ (first ++ second)) (frames ++ others) final := by
    rw [← List.append_assoc]
    exact reads.append later
  rw [feed_of_reads whole, fed, fedLater, List.flatMap_append]
  simp only [after, List.countP_append, Nat.add_assoc]

/-- Any number of calls after a first one return together, and leave, what one call on the whole
stream does. -/
theorem feedAll_cons (parser : ItchParser) (chunk : List UInt8) (chunks : List (List UInt8)) :
    parser.feedAll (chunk :: chunks) = parser.feed (chunk ++ chunks.flatten) := by
  induction chunks generalizing parser chunk with
  | nil => simp [feedAll, run]
  | cons next chunks ih =>
    have later := ih (parser.feed chunk).2 next
    rw [List.flatten_cons, feed_append, ← later]
    simp only [feedAll, run, List.flatten_cons]

/-- A fresh parser may be fed a stream in any chunks. -/
theorem feedAll_init (chunks : List (List UInt8)) :
    init.feedAll chunks = init.feed chunks.flatten := by
  cases chunks with
  | nil => rfl
  | cons chunk chunks => exact init.feedAll_cons chunk chunks

/-- The results and the parser left behind do not depend on how a stream is cut into chunks:
neither for two chunks, nor for any number of them, nor from a fresh parser. -/
theorem feed_chunking_invariant (parser : ItchParser) (first second : List UInt8) :
    (parser.feed first).1 ++ ((parser.feed first).2.feed second).1 =
        (parser.feed (first ++ second)).1 ∧
      ((parser.feed first).2.feed second).2 = (parser.feed (first ++ second)).2 ∧
      (∀ chunks, parser.feedAll (first :: chunks) = parser.feed (first ++ chunks.flatten)) ∧
      ∀ chunks, init.feedAll chunks = init.feed chunks.flatten := by
  have both := parser.feed_append first second
  exact ⟨(congrArg Prod.fst both).symm, (congrArg Prod.snd both).symm,
    parser.feedAll_cons first, feedAll_init⟩

end ItchParser

end Titan
