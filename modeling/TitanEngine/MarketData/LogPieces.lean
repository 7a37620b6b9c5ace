import TitanEngine.Library.Journal
import TitanEngine.MarketData.EventPublisher
import TitanEngine.Exchange.RegistryRuns

/-!
# The log read in pieces

`eventLog` and `clearEventLog` let an owner of the registry take the events out between calls. No
call looks at the log, so the pieces are the log that nobody cleared, cut where it was cleared: no
event is lost, repeated or numbered anew, and a publisher that is fed piece by piece reports what it
reports of the whole log.
-/

namespace Titan

open Library

namespace InstrumentRegistry

variable {registry : InstrumentRegistry}

/-- A registry with events put before its log. -/
def withEarlier (earlier : List Event) (registry : InstrumentRegistry) : InstrumentRegistry :=
  { registry with eventLog := earlier ++ registry.eventLog }

/-- `eventLog` and `clearEventLog`. -/
def log : Journal InstrumentRegistry Event where
  read registry := registry.eventLog
  clear registry := registry.clearEventLog
  restore := withEarlier
  restore_nil _ := rfl
  restore_restore earlier later registry := by
    simp only [withEarlier, List.append_assoc]
  restore_read_clear registry := by
    simp only [withEarlier, clearEventLog, List.append_nil]

@[simp] theorem find_withEarlier (earlier : List Event) (symbol : Symbol) :
    (registry.withEarlier earlier).find symbol = registry.find symbol := rfl

@[simp] theorem setManager_withEarlier (earlier : List Event) (symbol : Symbol)
    (instrument : Instrument) (manager : OrderManager Matcher) :
    (registry.withEarlier earlier).setManager symbol instrument manager =
      (registry.setManager symbol instrument manager).withEarlier earlier := rfl

@[simp] theorem emit_withEarlier (earlier : List Event) (payload : EventPayload) :
    (registry.withEarlier earlier).emit payload = (registry.emit payload).withEarlier earlier := by
  simp only [emit, withEarlier, List.append_assoc]

/-- Trades are logged behind the earlier events. -/
theorem emitTrades_withEarlier (earlier : List Event) (symbol : Symbol) (trades : List Trade)
    (registry : InstrumentRegistry) :
    trades.foldl (fun logged trade => logged.emit (trade.event symbol))
        (registry.withEarlier earlier) =
      (trades.foldl (fun logged trade => logged.emit (trade.event symbol)) registry).withEarlier
        earlier := by
  induction trades generalizing registry with
  | nil => rfl
  | cons trade trades ih =>
    rw [List.foldl_cons, List.foldl_cons, emit_withEarlier]
    exact ih _

/-- A request does not look at the log. -/
theorem route_withEarlier (earlier : List Event) (symbol : Symbol) (id : OrderId)
    (request : OrderManager Matcher → AcceptResult × OrderManager Matcher)
    (accepted : EventPayload) :
    (registry.withEarlier earlier).route symbol id request accepted =
      ((registry.route symbol id request accepted).1,
        (registry.route symbol id request accepted).2.withEarlier earlier) := by
  unfold route
  rw [find_withEarlier]
  cases registry.find symbol with
  | none => rw [emit_withEarlier]
  | some instrument =>
    simp only [setManager_withEarlier, emit_withEarlier]
    split <;> rfl

/-- No call looks at the log. -/
theorem log_unread : log.Unread callRegistry := by
  intro earlier registry call
  show callRegistry (registry.withEarlier earlier) call =
    ((callRegistry registry call).1, (callRegistry registry call).2.withEarlier earlier)
  cases call with
  | createInstrument symbol =>
    simp only [callRegistry, createInstrument]
    rw [show (registry.withEarlier earlier).instruments = registry.instruments from rfl]
    split <;> rfl
  | submitOrder symbol order => simp only [callRegistry, submitOrder, route_withEarlier]
  | cancelOrder symbol id => simp only [callRegistry, cancelOrder, route_withEarlier]
  | cancelReplace symbol oldId newOrder =>
    simp only [callRegistry, cancelReplace, route_withEarlier]
  | matchOrder symbol order =>
    simp only [callRegistry, matchOrder, find_withEarlier]
    cases registry.find symbol with
    | none => simp only [emit_withEarlier]
    | some instrument =>
      simp only [setManager_withEarlier, emit_withEarlier]
      split <;> simp only [emitTrades_withEarlier]
  | snapshot symbol depth =>
    simp only [callRegistry, snapshot, find_withEarlier]
    cases registry.find symbol <;> rfl

end InstrumentRegistry

namespace Market

variable {market : Market}

/-- The events are numbered from zero without gaps. -/
structure Numbered (market : Market) : Prop where
  /-- The numbers so far. -/
  numbers : market.log.map Event.sequenceNumber =
    (List.range market.log.length).map UInt64.ofNat
  /-- The next one. -/
  next : market.next = UInt64.ofNat market.log.length

/-- Logging keeps the numbers. -/
theorem Numbered.publish (numbered : market.Numbered) (payloads : List EventPayload) :
    (market.publish payloads).Numbered := by
  induction payloads generalizing market with
  | nil => exact numbered
  | cons payload payloads ih =>
    have emitted : (market.emit payload).Numbered := by
      constructor
      · simp only [emit, List.map_append, List.length_append, List.length_singleton,
          List.range_succ, List.map_singleton, numbered.numbers, numbered.next]
      · simp only [emit, List.length_append, List.length_singleton, numbered.next,
          UInt64.ofNat_add]
        rfl
    exact ih emitted

/-- Every call keeps the numbers. -/
theorem Numbered.call (numbered : market.Numbered) (call : RegistryCall) :
    (callMarket market call).2.Numbered := by
  have requested (symbol : Symbol) (request : ManagerCall) :
      (market.call symbol request).2.Numbered := by
    unfold Market.call
    cases market.listings symbol with
    | none => exact numbered.publish _
    | some listing =>
      have stored : (market.setLedger symbol listing
          (callLedger listing.ledger request).2).Numbered := ⟨numbered.numbers, numbered.next⟩
      exact stored.publish _
  cases call with
  | createInstrument symbol =>
    show (market.list symbol).Numbered
    unfold list
    cases market.listings symbol with
    | none => exact ⟨numbered.numbers, numbered.next⟩
    | some listing => exact numbered
  | snapshot symbol depth =>
    show (market.snapshot symbol depth).2.Numbered
    unfold snapshot
    cases market.listings symbol with
    | none => exact numbered
    | some listing => exact ⟨numbered.numbers, numbered.next⟩
  | _ => exact requested _ _

end Market

namespace EventPublisher

/-- Feed one piece of a log. -/
def processAll (publisher : EventPublisher) (piece : List Event) : Option EventPublisher :=
  (piece.map Event.payload).foldlM process publisher

/-- Feeding the pieces is feeding the whole. -/
theorem foldlM_processAll (pieces : List (List Event)) (publisher : EventPublisher) :
    pieces.foldlM processAll publisher = publisher.processAll pieces.flatten := by
  induction pieces generalizing publisher with
  | nil => rfl
  | cons piece pieces ih =>
    rw [List.foldlM_cons, processAll, List.flatten_cons, processAll, List.map_append,
      List.foldlM_append]
    exact congrArg _ (funext ih)

end EventPublisher

namespace InstrumentRegistry

/-- Read and clear the log after each batch of calls: the answers are those of the run that nobody
cleared, the pieces one after the other are its log, numbered from zero without gaps, the registry
ends as that one does with its log cleared, and a publisher fed with each piece reports what it
reports of the whole. -/
theorem cleared_log_loses_nothing (allocator : SlabAllocator) (backend : MatcherBackend)
    (batches : List (List RegistryCall)) :
    let pieces := run (log.harvest callRegistry) (init allocator backend) batches
    let whole := run callRegistry (init allocator backend) batches.flatten
    (pieces.1.map (fun piece => piece.1)).flatten = whole.1 ∧
      (pieces.1.map (fun piece => piece.2)).flatten = whole.2.eventLog ∧
      whole.2.eventLog.map Event.sequenceNumber =
        (List.range whole.2.eventLog.length).map UInt64.ofNat ∧
      pieces.2 = whole.2.clearEventLog ∧
      (pieces.1.map (fun piece => piece.2)).foldlM EventPublisher.processAll EventPublisher.init =
        EventPublisher.publish whole.2.eventLog := by
  intro pieces whole
  have restored : whole = _ := log_unread.run_harvest (init allocator backend) batches
  -- the log was cleared last, or never written
  have cleared : pieces.2.eventLog = [] :=
    run_invariant (fun state : InstrumentRegistry => state.eventLog = [])
      (fun _ _ _ _ => rfl) rfl (admissible_true (log.harvest callRegistry) _ batches)
  have joined : (pieces.1.map (fun piece => piece.2)).flatten = whole.2.eventLog := by
    rw [restored]
    show _ = _ ++ pieces.2.eventLog
    rw [cleared, List.append_nil]
  have numbered : (run callMarket Market.empty batches.flatten).2.Numbered :=
    run_invariant Market.Numbered (fun _ call kept _ => kept.call call)
      ⟨rfl, rfl⟩ (admissible_true callMarket _ _)
  have mirrors := ((mirrors_init allocator backend).run batches.flatten).2
  refine ⟨by rw [restored], joined, ?_, ?_, ?_⟩
  · rw [show whole.2.eventLog = _ from mirrors.log]
    exact numbered.numbers
  · rw [restored]
    show pieces.2 = { pieces.2 with eventLog := [] }
    rw [← cleared]
  · rw [EventPublisher.foldlM_processAll, joined]
    rfl

end InstrumentRegistry

end Titan
