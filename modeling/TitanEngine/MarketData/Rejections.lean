import TitanEngine.MarketData.RegistryLog
import TitanEngine.Spec.Quotes

/-!
# Rejected calls

A call that a registry rejects, because the symbol is not listed or because its manager refuses it,
leaves a rejection in the log and nothing else. The run without the calls that were rejected, each
where it was, gives the other calls the same answers and ends in a registry that shows the same.
-/

namespace Titan

open Library

/-- An event that reports a rejection. -/
def EventPayload.isRejection : EventPayload → Bool
  | orderRejected _ _ _ => true
  | _ => false

/-- A ledger that refuses a call trades nothing. -/
theorem Ledger.trades_refused {ledger : Ledger} {request : ManagerCall}
    (refused : (callLedger ledger request).1.accept.accepted = false) :
    (callLedger ledger request).1.trades = [] := by
  cases request with
  | matchOrder order =>
    simp only [callLedger, matchOrder] at refused ⊢
    cases accepted : validateNewOrder order ledger.known with
    | none => simp [accepted, AcceptResult.ok] at refused
    | _ => rfl
  | _ => rfl

namespace InstrumentRegistry

variable {registry : InstrumentRegistry} {market : Market}

/-- A call asks nothing of a manager, or its manager accepts it. -/
def serves (registry : InstrumentRegistry) (call : RegistryCall) : Bool :=
  call.request.isNone || registry.accepts call

/-- A call that is served logs no rejection; any other one leaves its listing as it was and logs
rejections alone. -/
theorem Mirrors.serves_cases (mirrors : registry.Mirrors market) (call : RegistryCall) :
    let outcome := callListing (market.listings call.symbol) call
    (registry.serves call = true ∧ ∀ event ∈ outcome.2.2, event.isRejection = false) ∨
      (registry.serves call = false ∧ outcome.2.1 = market.listings call.symbol ∧
        ∀ event ∈ outcome.2.2, event.isRejection = true) := by
  intro outcome
  rcases callListing_cases (market.listings call.symbol) call with
    ⟨asks, _, _, events⟩ | ⟨request, asks, unlisted, _, listing, events⟩ |
      ⟨request, entry, asks, listed, _, listing, events⟩
  · refine .inl ⟨by rw [serves, asks]; rfl, ?_⟩
    rw [events]
    intro event member
    cases member
  · refine .inr ⟨?_, listing.trans unlisted.symm, ?_⟩
    · rw [serves, asks, mirrors.accepts_unlisted unlisted]
      rfl
    · rw [events]
      intro event member
      rw [List.mem_singleton.mp member]
      rfl
  · have answered := mirrors.accepts asks listed
    cases accepted : (callLedger entry.ledger request).1.accept.accepted with
    | true =>
      refine .inl ⟨by rw [serves, answered, accepted, Bool.or_true], ?_⟩
      rw [events, eventsOf, if_pos accepted]
      intro event member
      rcases List.mem_cons.mp member with rfl | traded
      · cases request <;> rfl
      · obtain ⟨trade, _, rfl⟩ := List.mem_map.mp traded
        rfl
    | false =>
      refine .inr ⟨by rw [serves, asks, answered, accepted]; rfl, ?_, ?_⟩
      · rw [listing, Ledger.callLedger_refused accepted, listed]
      · rw [events, eventsOf, accepted, Ledger.trades_refused accepted]
        intro event member
        rw [List.mem_singleton.mp member]
        rfl

/-- The right registry lists what the left one lists, and logged the same but for the
rejections. -/
def Cleared (left right : InstrumentRegistry) : Prop :=
  ∃ first second, left.Mirrors first ∧ right.Mirrors second ∧ first.listings = second.listings ∧
    right.payloads = left.payloads.filter (fun payload => !payload.isRejection)

variable {left right : InstrumentRegistry}

/-- A call that is served has the same answer on both sides. -/
theorem Cleared.served (cleared : Cleared left right) {call : RegistryCall}
    (served : left.serves call = true) :
    (callRegistry left call).1 = (callRegistry right call).1 ∧
      Cleared (callRegistry left call).2 (callRegistry right call).2 := by
  obtain ⟨first, second, mirrors, others, listings, payloads⟩ := cleared
  obtain ⟨answer, moves⟩ := first.callMarket_moves call
  obtain ⟨otherAnswer, otherMoves⟩ := second.callMarket_moves call
  rw [← listings] at otherAnswer otherMoves
  obtain ⟨given, next⟩ := mirrors.call call
  obtain ⟨otherGiven, otherNext⟩ := others.call call
  refine ⟨?_, _, _, next, otherNext, ?_, ?_⟩
  · rw [given, answer, otherGiven, otherAnswer]
  · rw [moves.listings, otherMoves.listings, listings]
  · have silent : ∀ event ∈ (callListing (first.listings call.symbol) call).2.2,
        event.isRejection = false := by
      rcases mirrors.serves_cases call with ⟨_, silent⟩ | ⟨refused, _⟩
      · exact silent
      · rw [served] at refused
        cases refused
    rw [mirrors.payloads_call call, others.payloads_call call, ← listings, payloads,
      List.filter_append]
    congr 1
    rw [eq_comm, List.filter_eq_self]
    intro event member
    rw [silent event member]
    rfl

/-- A call that is not served need not be made. -/
theorem Cleared.refused (cleared : Cleared left right) {call : RegistryCall}
    (refused : left.serves call = false) : Cleared (callRegistry left call).2 right := by
  obtain ⟨first, second, mirrors, others, listings, payloads⟩ := cleared
  have moves := (first.callMarket_moves call).2
  rcases mirrors.serves_cases call with ⟨served, _⟩ | ⟨_, listing, rejected⟩
  · rw [refused] at served
    cases served
  · refine ⟨_, second, (mirrors.call call).2, others, ?_, ?_⟩
    · rw [moves.listings, listing, Function.update_eq_self, listings]
    · have gone : (callListing (first.listings call.symbol) call).2.2.filter
          (fun payload => !payload.isRejection) = [] := by
        rw [List.filter_eq_nil_iff]
        intro event member
        rw [rejected event member]
        exact Bool.false_ne_true
      rw [mirrors.payloads_call call, List.filter_append, gone, List.append_nil, payloads]

/-- Rejected calls leave no trace but their rejections: without them, each struck where it was
rejected, all other calls of a run have the same answers, the log is the same but for the
rejections, and every symbol shows the same snapshots, records and resting orders. -/
theorem rejections_leave_no_trace (allocator : SlabAllocator) (backend : MatcherBackend)
    (calls : List RegistryCall) :
    let start := init allocator backend
    let served := keptOf serves callRegistry start calls
    let whole := run callRegistry start calls
    let clean := run callRegistry start (served.map Prod.fst)
    clean.1 = served.map Prod.snd ∧
      clean.2.payloads = whole.2.payloads.filter (fun payload => !payload.isRejection) ∧
      ∀ symbol, (∀ depth, (clean.2.snapshot symbol depth).1 = (whole.2.snapshot symbol depth).1) ∧
        (∀ id, clean.2.findOrder symbol id = whole.2.findOrder symbol id) ∧
        ∀ side, clean.2.restingOn symbol side = whole.2.restingOn symbol side := by
  intro start served whole clean
  have begun : Cleared start start :=
    ⟨Market.empty, Market.empty, mirrors_init allocator backend, mirrors_init allocator backend,
      rfl, rfl⟩
  have seen : ∀ (left right : InstrumentRegistry) (call : RegistryCall), Cleared left right →
      left.serves call = true → (callRegistry left call).1 = (callRegistry right call).1 ∧
        Cleared (callRegistry left call).2 (callRegistry right call).2 :=
    fun _ _ _ cleared served => cleared.served served
  have unseen : ∀ (left right : InstrumentRegistry) (call : RegistryCall), Cleared left right →
      left.serves call = false → Cleared (callRegistry left call).2 right :=
    fun _ _ _ cleared refused => cleared.refused refused
  obtain ⟨answers, first, second, mirrors, others, listings, payloads⟩ :=
    run_keptOf serves Cleared seen unseen begun calls
  refine ⟨answers, payloads, fun symbol => ⟨fun depth => ?_, fun id => ?_, fun side => ?_⟩⟩
  · rw [(others.snapshot symbol depth).1, (mirrors.snapshot symbol depth).1, Market.snapshot,
      Market.snapshot, listings]
    cases second.listings symbol <;> rfl
  · rw [others.findOrder symbol id, mirrors.findOrder symbol id, Market.findOrder,
      Market.findOrder, listings]
  · rw [others.restingOn symbol side, mirrors.restingOn symbol side, listings]

end InstrumentRegistry

end Titan
