import TitanEngine.MarketData.PublisherViews
import TitanEngine.MarketData.RegistryLog

/-!
# What a subscriber of one symbol sees

An event moves the publisher in one symbol only: it writes states of that symbol and reports under
its numbers. So the reports of a symbol are those of its own events, numbered from zero without
gaps, whatever happens in other symbols.
-/

namespace Titan

open Library Std

namespace EventPublisher

/-- The reports of a symbol, oldest first. -/
def reportsOf (publisher : EventPublisher) (symbol : Symbol) : List ExecutionReport :=
  publisher.reports.filter (fun report => report.symbol == symbol)

/-- Number of the next report of a symbol. -/
def nextNumber (publisher : EventPublisher) (symbol : Symbol) : UInt64 :=
  publisher.nextSequenceNumber.getD symbol 0

section Process

variable {publisher next left right : EventPublisher}

/-- What every write and every report of a symbol keeps, a fill of the symbol keeps. -/
theorem emitFill_keeps {P : EventPublisher → Prop} {symbol : Symbol}
    (sets : ∀ publisher id state, P publisher → P (publisher.setState symbol id state))
    (reports : ∀ publisher id execType lastQty cumQty leavesQty lastPx avgPx reason, P publisher →
      P (publisher.report symbol id execType lastQty cumQty leavesQty lastPx avgPx reason))
    (holds : P publisher) {id : OrderId} {quantity : Quantity} {price : Price}
    (filled : publisher.emitFill symbol id quantity price = some next) : P next := by
  unfold emitFill at filled
  cases found : publisher.stateOf symbol id with
  | none =>
    rw [found] at filled
    obtain rfl := Option.some.inj filled
    exact holds
  | some state =>
    rw [found] at filled
    simp only at filled
    by_cases zero : state.cumQty + quantity = 0
    · rw [if_pos zero] at filled
      cases filled
    · rw [if_neg zero] at filled
      obtain rfl := Option.some.inj filled
      exact reports _ _ _ _ _ _ _ _ _ (sets _ _ _ holds)

/-- What every write and every report of a symbol keeps, an event of the symbol keeps. -/
theorem process_keeps {P : EventPublisher → Prop} {payload : EventPayload}
    (sets : ∀ publisher id state, P publisher → P (publisher.setState payload.symbol id state))
    (reports : ∀ publisher id execType lastQty cumQty leavesQty lastPx avgPx reason, P publisher →
      P (publisher.report payload.symbol id execType lastQty cumQty leavesQty lastPx avgPx reason))
    (holds : P publisher) (processed : publisher.process payload = some next) : P next := by
  cases payload with
  | orderSubmitted symbol id side price quantity =>
    obtain rfl := Option.some.inj processed
    exact reports _ _ _ _ _ _ _ _ _ (sets _ _ _ holds)
  | orderCancelled symbol id =>
    obtain rfl := Option.some.inj processed
    unfold handleCancelled
    cases publisher.stateOf symbol id with
    | none => exact reports _ _ _ _ _ _ _ _ _ holds
    | some state => exact reports _ _ _ _ _ _ _ _ _ holds
  | orderReplaced symbol id newPrice newQuantity =>
    obtain rfl := Option.some.inj processed
    exact reports _ _ _ _ _ _ _ _ _ (sets _ _ _ holds)
  | tradeExecuted symbol incoming resting price quantity =>
    obtain ⟨filled, first, second⟩ := Option.bind_eq_some_iff.mp processed
    exact emitFill_keeps sets reports (emitFill_keeps sets reports holds first) second
  | orderRejected symbol id reason =>
    obtain rfl := Option.some.inj processed
    exact reports _ _ _ _ _ _ _ _ _ holds

/-- The right publisher keeps of a symbol what the left one keeps, and reported that symbol
alone. -/
structure Serves (symbol : Symbol) (left right : EventPublisher) : Prop where
  /-- The states are the same. -/
  states : ∀ id, left.stateOf symbol id = right.stateOf symbol id
  /-- So is the next number. -/
  next : left.nextNumber symbol = right.nextNumber symbol
  /-- The reports are those of the symbol. -/
  reports : right.reports = left.reportsOf symbol

/-- A fresh publisher serves every symbol. -/
theorem serves_init (symbol : Symbol) : Serves symbol init init where
  states _ := rfl
  next := rfl
  reports := rfl

variable {symbol : Symbol}

/-- A state of the symbol that both write. -/
theorem Serves.setState (serves : Serves symbol left right) (id : OrderId) (state : OrderState) :
    Serves symbol (left.setState symbol id state) (right.setState symbol id state) where
  states name := by rw [stateOf_setState, stateOf_setState, serves.states]
  next := serves.next
  reports := serves.reports

/-- A state of another symbol that the left one writes. -/
theorem Serves.setState_other (serves : Serves symbol left right) {other : Symbol}
    (different : other ≠ symbol) (id : OrderId) (state : OrderState) :
    Serves symbol (left.setState other id state) right where
  states name := by
    rw [stateOf_setState, if_neg (fun same => different same.1.symm), serves.states]
  next := serves.next
  reports := serves.reports

section Report

variable (id : OrderId) (execType : ExecType) (lastQty cumQty leavesQty : Quantity)
  (lastPx avgPx : Price) (reason : RejectReason)

/-- A report is added under the next number of its symbol. -/
theorem reportsOf_report (publisher : EventPublisher) (symbol : Symbol) :
    (publisher.report symbol id execType lastQty cumQty leavesQty lastPx avgPx reason).reportsOf
        symbol =
      publisher.reportsOf symbol ++
        [{ symbol := symbol, sequenceNumber := publisher.nextNumber symbol, orderId := id,
           execType := execType, lastQty := lastQty, cumQty := cumQty, leavesQty := leavesQty,
           lastPx := lastPx, avgPx := avgPx, rejectReason := reason }] := by
  simp [reportsOf, EventPublisher.report, nextSeq, nextNumber]

/-- It is none of another symbol. -/
theorem reportsOf_report_other (publisher : EventPublisher) {other : Symbol}
    (different : other ≠ symbol) :
    (publisher.report other id execType lastQty cumQty leavesQty lastPx avgPx reason).reportsOf
      symbol = publisher.reportsOf symbol := by
  simp [reportsOf, EventPublisher.report, nextSeq, different]

/-- It moves the number of its symbol on. -/
theorem nextNumber_report (publisher : EventPublisher) (symbol other : Symbol) :
    (publisher.report symbol id execType lastQty cumQty leavesQty lastPx avgPx reason).nextNumber
        other =
      if other = symbol then publisher.nextNumber symbol + 1 else publisher.nextNumber other := by
  show (publisher.nextSequenceNumber.insert symbol (publisher.nextNumber symbol + 1)).getD other 0
    = _
  by_cases same : other = symbol
  · subst same
    rw [if_pos rfl, ExtTreeMap.getD_insert_self]
  · rw [if_neg same, ExtTreeMap.getD_insert,
      if_neg (fun equal => same (LawfulEqCmp.eq_of_compare equal).symm)]
    rfl

/-- A report of the symbol that both make. -/
theorem Serves.report (serves : Serves symbol left right) :
    Serves symbol (left.report symbol id execType lastQty cumQty leavesQty lastPx avgPx reason)
      (right.report symbol id execType lastQty cumQty leavesQty lastPx avgPx reason) where
  states := serves.states
  next := by rw [nextNumber_report, nextNumber_report, if_pos rfl, if_pos rfl, serves.next]
  reports := by
    rw [reportsOf_report, ← serves.reports, serves.next]
    rfl

/-- A report of another symbol that the left one makes. -/
theorem Serves.report_other (serves : Serves symbol left right) {other : Symbol}
    (different : other ≠ symbol) :
    Serves symbol (left.report other id execType lastQty cumQty leavesQty lastPx avgPx reason)
      right where
  states := serves.states
  next := by rw [nextNumber_report, if_neg different.symm, serves.next]
  reports := by rw [reportsOf_report_other _ _ _ _ _ _ _ _ _ different, serves.reports]

end Report

/-- A fill of the symbol that the left one emits is one that the right one emits. -/
theorem Serves.emitFill (serves : Serves symbol left right) {id : OrderId} {quantity : Quantity}
    {price : Price} (filled : left.emitFill symbol id quantity price = some next) :
    ∃ other, right.emitFill symbol id quantity price = some other ∧ Serves symbol next other := by
  unfold EventPublisher.emitFill at filled ⊢
  rw [← serves.states]
  cases found : left.stateOf symbol id with
  | none =>
    rw [found] at filled
    obtain rfl := Option.some.inj filled
    exact ⟨right, rfl, serves⟩
  | some state =>
    rw [found] at filled
    simp only at filled ⊢
    by_cases zero : state.cumQty + quantity = 0
    · rw [if_pos zero] at filled
      cases filled
    · rw [if_neg zero] at filled ⊢
      obtain rfl := Option.some.inj filled
      exact ⟨_, rfl, (serves.setState _ _).report _ _ _ _ _ _ _ _⟩

/-- The other fails to emit a fill of the symbol exactly when the one does. -/
theorem Serves.isSome_emitFill (serves : Serves symbol left right) (id : OrderId)
    (quantity : Quantity) (price : Price) :
    (left.emitFill symbol id quantity price).isSome =
      (right.emitFill symbol id quantity price).isSome := by
  unfold EventPublisher.emitFill
  rw [← serves.states]
  cases left.stateOf symbol id with
  | none => rfl
  | some state =>
    by_cases zero : state.cumQty + quantity = 0
    · simp only [if_pos zero]
    · simp only [if_neg zero, Option.isSome_some]

/-- An event of the symbol moves both alike. -/
theorem Serves.own (serves : Serves symbol left right) {payload : EventPayload}
    (named : payload.symbol = symbol) (processed : left.process payload = some next) :
    ∃ other, right.process payload = some other ∧ Serves symbol next other := by
  subst named
  cases payload with
  | orderSubmitted symbol id side price quantity =>
    obtain rfl := Option.some.inj processed
    exact ⟨_, rfl, (serves.setState _ _).report _ _ _ _ _ _ _ _⟩
  | orderCancelled symbol id =>
    obtain rfl := Option.some.inj processed
    have states : left.stateOf symbol id = right.stateOf symbol id := serves.states id
    refine ⟨_, rfl, ?_⟩
    unfold handleCancelled
    rw [← states]
    cases left.stateOf symbol id with
    | none => exact serves.report _ _ _ _ _ _ _ _
    | some state => exact serves.report _ _ _ _ _ _ _ _
  | orderReplaced symbol id newPrice newQuantity =>
    obtain rfl := Option.some.inj processed
    have states : left.stateOf symbol id = right.stateOf symbol id := serves.states id
    refine ⟨_, rfl, ?_⟩
    unfold handleReplaced
    rw [← states]
    exact (serves.setState _ _).report _ _ _ _ _ _ _ _
  | tradeExecuted symbol incoming resting price quantity =>
    obtain ⟨between, first, second⟩ := Option.bind_eq_some_iff.mp processed
    obtain ⟨middle, firstToo, both⟩ := serves.emitFill first
    obtain ⟨other, secondToo, final⟩ := both.emitFill second
    exact ⟨other, Option.bind_eq_some_iff.mpr ⟨middle, firstToo, secondToo⟩, final⟩
  | orderRejected symbol id reason =>
    obtain rfl := Option.some.inj processed
    exact ⟨_, rfl, serves.report _ _ _ _ _ _ _ _⟩

/-- The one fails at an event of the symbol exactly when the other does. -/
theorem Serves.isSome_process (serves : Serves symbol left right) {payload : EventPayload}
    (named : payload.symbol = symbol) :
    (left.process payload).isSome = (right.process payload).isSome := by
  subst named
  cases payload with
  | orderSubmitted symbol id side price quantity =>
    simp only [EventPublisher.process, Option.isSome_some]
  | orderCancelled symbol id => simp only [EventPublisher.process, Option.isSome_some]
  | orderReplaced symbol id newPrice newQuantity =>
    simp only [EventPublisher.process, Option.isSome_some]
  | orderRejected symbol id reason => simp only [EventPublisher.process, Option.isSome_some]
  | tradeExecuted symbol incoming resting price quantity =>
    have serves : Serves symbol left right := serves
    have alike := serves.isSome_emitFill incoming quantity price
    simp only [EventPublisher.process, handleTrade]
    cases first : left.emitFill symbol incoming quantity price with
    | none =>
      rw [first, Option.isSome_none] at alike
      rw [Option.isNone_iff_eq_none.mp (Option.isSome_eq_false_iff.mp alike.symm)]
    | some between =>
      obtain ⟨middle, firstToo, both⟩ := serves.emitFill first
      rw [firstToo]
      exact both.isSome_emitFill resting quantity price

/-- An event of another symbol is nothing to the right one. -/
theorem Serves.other (serves : Serves symbol left right) {payload : EventPayload}
    (different : payload.symbol ≠ symbol) (processed : left.process payload = some next) :
    Serves symbol next right :=
  process_keeps (P := fun left => Serves symbol left right)
    (fun _ id state serves => serves.setState_other different id state)
    (fun _ _ _ _ _ _ _ _ _ serves => serves.report_other _ _ _ _ _ _ _ _ different) serves
    processed

/-- A log that the left one processes, the right one processes without the other symbols. -/
theorem Serves.run (serves : Serves symbol left right) {payloads : List EventPayload}
    (processed : payloads.foldlM EventPublisher.process left = some next) :
    ∃ other, (payloads.filter (fun payload => payload.symbol == symbol)).foldlM
      EventPublisher.process right = some other ∧ Serves symbol next other := by
  induction payloads generalizing left right with
  | nil =>
    obtain rfl := Option.some.inj processed
    exact ⟨right, rfl, serves⟩
  | cons payload payloads ih =>
    rw [List.foldlM_cons] at processed
    obtain ⟨between, first, rest⟩ := Option.bind_eq_some_iff.mp processed
    by_cases named : payload.symbol = symbol
    · obtain ⟨middle, firstToo, both⟩ := serves.own named first
      obtain ⟨other, restToo, final⟩ := ih both rest
      refine ⟨other, ?_, final⟩
      rw [List.filter_cons_of_pos (by simpa using named), List.foldlM_cons]
      exact Option.bind_eq_some_iff.mpr ⟨middle, firstToo, restToo⟩
    · rw [List.filter_cons_of_neg (by simpa using named)]
      exact ih (serves.other named first) rest

/-- A log is processed if that of every symbol is: the event at which it failed would be one of its
own symbol's log. -/
theorem isSome_of_alone {alone : Symbol → EventPublisher}
    (serves : ∀ symbol, Serves symbol left (alone symbol)) {payloads : List EventPayload}
    (each : ∀ symbol, ((payloads.filter (fun payload => payload.symbol == symbol)).foldlM
      EventPublisher.process (alone symbol)).isSome = true) :
    (payloads.foldlM EventPublisher.process left).isSome = true := by
  induction payloads generalizing left alone with
  | nil => rfl
  | cons payload payloads ih =>
    have mine := each payload.symbol
    rw [List.filter_cons_of_pos (by simp), List.foldlM_cons] at mine
    obtain ⟨final, processed⟩ := Option.isSome_iff_exists.mp mine
    obtain ⟨middle, first, rest⟩ := Option.bind_eq_some_iff.mp processed
    have goesOn := (serves payload.symbol).isSome_process rfl
    rw [first, Option.isSome_some] at goesOn
    obtain ⟨next, moved⟩ := Option.isSome_iff_exists.mp goesOn
    obtain ⟨other, same, both⟩ := (serves payload.symbol).own rfl moved
    obtain rfl : middle = other := Option.some.inj (first.symm.trans same)
    rw [List.foldlM_cons, moved]
    -- the publisher of this symbol has moved on, and the others stand where they did
    have still : ∀ symbol, Serves symbol next
        (Function.update alone payload.symbol middle symbol) := by
      intro symbol
      by_cases own : symbol = payload.symbol
      · subst own
        rw [Function.update_self]
        exact both
      · rw [Function.update_of_ne own]
        exact (serves symbol).other (Ne.symm own) moved
    refine ih still ?_
    intro symbol
    by_cases own : symbol = payload.symbol
    · subst own
      rw [Function.update_self, rest]
      rfl
    · rw [Function.update_of_ne own]
      have later := each symbol
      rwa [List.filter_cons_of_neg (by simpa using Ne.symm own)] at later

/-- The reports of a symbol are numbered from zero without gaps. -/
structure Numbered (publisher : EventPublisher) (symbol : Symbol) : Prop where
  /-- The numbers so far. -/
  numbers : (publisher.reportsOf symbol).map ExecutionReport.sequenceNumber =
    (List.range (publisher.reportsOf symbol).length).map UInt64.ofNat
  /-- The next one. -/
  next : publisher.nextNumber symbol = UInt64.ofNat (publisher.reportsOf symbol).length

/-- A report keeps the numbers of every symbol. -/
theorem Numbered.report (numbered : publisher.Numbered symbol) (other : Symbol) (id : OrderId)
    (execType : ExecType) (lastQty cumQty leavesQty : Quantity) (lastPx avgPx : Price)
    (reason : RejectReason) :
    (publisher.report other id execType lastQty cumQty leavesQty lastPx avgPx reason).Numbered
      symbol := by
  obtain ⟨numbers, next⟩ := numbered
  by_cases same : other = symbol
  · subst same
    constructor
    · rw [reportsOf_report, List.map_append, numbers, List.length_append, List.length_singleton,
        List.range_succ, List.map_append, List.map_singleton, List.map_singleton, next]
    · rw [nextNumber_report, if_pos rfl, reportsOf_report, List.length_append, next,
        List.length_singleton, UInt64.ofNat_add]
      rfl
  · constructor
    · rw [reportsOf_report_other _ _ _ _ _ _ _ _ _ same, numbers]
    · rw [reportsOf_report_other _ _ _ _ _ _ _ _ _ same, nextNumber_report,
        if_neg (Ne.symm same), next]

/-- Every log is reported without gaps. -/
theorem numbered_run {payloads : List EventPayload} (numbered : publisher.Numbered symbol)
    (processed : payloads.foldlM process publisher = some next) : next.Numbered symbol := by
  induction payloads generalizing publisher with
  | nil =>
    obtain rfl := Option.some.inj processed
    exact numbered
  | cons payload payloads ih =>
    rw [List.foldlM_cons] at processed
    obtain ⟨between, first, rest⟩ := Option.bind_eq_some_iff.mp processed
    refine ih ?_ rest
    exact process_keeps (P := fun publisher => publisher.Numbered symbol)
      (fun _ _ _ numbered => ⟨numbered.numbers, numbered.next⟩)
      (fun _ _ _ _ _ _ _ _ _ numbered => numbered.report _ _ _ _ _ _ _ _ _) numbered first

/-- A fresh publisher has numbered nothing. -/
theorem numbered_init (symbol : Symbol) : init.Numbered symbol where
  numbers := rfl
  next := by simp [nextNumber, init, reportsOf]

end Process

/-- If the publisher gets through a log without a division by zero, the reports of a symbol are
those of a publisher that is given the events of this symbol alone, which gets through them too, and
they are numbered from zero without gaps. -/
theorem reports_by_symbol {payloads : List EventPayload} {publisher : EventPublisher}
    (published : payloads.foldlM process init = some publisher) (symbol : Symbol) :
    (∃ alone, (payloads.filter (fun payload => payload.symbol == symbol)).foldlM process init =
        some alone ∧ alone.reports = publisher.reportsOf symbol) ∧
      (publisher.reportsOf symbol).map ExecutionReport.sequenceNumber =
        (List.range (publisher.reportsOf symbol).length).map UInt64.ofNat := by
  obtain ⟨alone, processed, serves⟩ := (serves_init symbol).run published
  have numbered := numbered_run (numbered_init symbol) published
  exact ⟨⟨alone, processed, serves.reports⟩, numbered.numbers⟩

/-- Two symbols whose orders have the same id. -/
def sharedIdLog : List EventPayload :=
  [.orderSubmitted [65] 1 .buy 10 5, .orderSubmitted [66] 1 .sell 20 7,
    .tradeExecuted [65] 2 1 10 5, .orderCancelled [66] 1]

/-- Each has two reports. -/
theorem reports_by_symbol_shared_id :
    ∃ publisher, sharedIdLog.foldlM process init = some publisher ∧
      (publisher.reportsOf [65]).map ExecutionReport.sequenceNumber = [0, 1] ∧
      (publisher.reportsOf [66]).map ExecutionReport.sequenceNumber = [0, 1] := by
  obtain ⟨publisher, published⟩ : ∃ publisher, sharedIdLog.foldlM process init = some publisher :=
    Option.isSome_iff_exists.mp (by decide)
  refine ⟨publisher, published, ?_, ?_⟩
  · rw [(reports_by_symbol published [65]).2]
    obtain rfl := Option.some.inj published
    decide
  · rw [(reports_by_symbol published [66]).2]
    obtain rfl := Option.some.inj published
    decide

end EventPublisher

namespace InstrumentRegistry

/-- To one symbol, the run of all calls keeps what the run of its own calls keeps. -/
theorem shares_run (allocator : SlabAllocator) (backend : MatcherBackend)
    (calls : List RegistryCall) (symbol : Symbol) :
    Shares symbol (run callRegistry (init allocator backend) calls).2
      (run callRegistry (init allocator backend)
        (calls.filter (fun call => call.symbol == symbol))).2 := by
  have start : Shares symbol (init allocator backend) (init allocator backend) :=
    ⟨_, _, mirrors_init allocator backend, mirrors_init allocator backend, rfl, rfl⟩
  refine (run_filter (fun call : RegistryCall => call.symbol == symbol) (Shares symbol) ?_ ?_ start
    (admissible_true callRegistry (init allocator backend) calls)).2
  · rintro left right call ⟨first, second, keepsFirst, keepsSecond, same⟩ - asked
    have firstStep := keepsFirst.call call
    have secondStep := keepsSecond.call call
    have step := same.own (eq_of_beq asked)
    exact ⟨firstStep.1.trans (step.1.trans secondStep.1.symm),
      _, _, firstStep.2, secondStep.2, step.2⟩
  · rintro left right call ⟨first, second, keepsFirst, keepsSecond, same⟩ - unasked
    exact ⟨_, _, (keepsFirst.call call).2, keepsSecond, same.other (ne_of_beq_false unasked)⟩

/-- The calls of one symbol log events of that symbol. -/
theorem payloads_named (allocator : SlabAllocator) (backend : MatcherBackend) (symbol : Symbol)
    {calls : List RegistryCall} (mine : ∀ call ∈ calls, call.symbol = symbol) :
    ∀ payload ∈ (run callRegistry (init allocator backend) calls).2.payloads,
      payload.symbol = symbol := by
  induction calls using List.reverseRecOn with
  | nil =>
    intro payload logged
    cases logged
  | append_singleton calls call ih =>
    have earlier := ih (fun call member => mine call (List.mem_append_left _ member))
    have mirrors := ((mirrors_init allocator backend).run calls).2
    rw [run_append]
    show ∀ payload ∈ (callRegistry _ call).2.payloads, payload.symbol = symbol
    rw [mirrors.payloads_call call]
    intro payload logged
    rcases List.mem_append.mp logged with before | added
    · exact earlier payload before
    · have named := ((run callMarket Market.empty calls).2.callMarket_moves call).2.named
      exact (named payload added).trans (mine call (List.mem_append_right _ List.mem_cons_self))

/-- The calls of one symbol log what all calls log of it. -/
theorem payloads_filter (allocator : SlabAllocator) (backend : MatcherBackend)
    (calls : List RegistryCall) (symbol : Symbol) :
    (run callRegistry (init allocator backend)
        (calls.filter (fun call => call.symbol == symbol))).2.payloads =
      (run callRegistry (init allocator backend) calls).2.payloads.filter
        (fun payload => payload.symbol == symbol) := by
  obtain ⟨first, second, keepsFirst, keepsSecond, same⟩ := shares_run allocator backend calls symbol
  have events : payloadsNaming symbol (run callRegistry (init allocator backend) calls).2.eventLog =
      payloadsNaming symbol (run callRegistry (init allocator backend)
        (calls.filter (fun call => call.symbol == symbol))).2.eventLog := by
    rw [keepsFirst.log, keepsSecond.log, same.events]
  have mine : ∀ call ∈ calls.filter (fun call => call.symbol == symbol), call.symbol = symbol :=
    fun call member => eq_of_beq (List.mem_filter.mp member).2
  have named := payloads_named allocator backend symbol mine
  have own : payloadsNaming symbol (run callRegistry (init allocator backend)
      (calls.filter (fun call => call.symbol == symbol))).2.eventLog = _ :=
    List.filter_eq_self.mpr (fun payload logged => beq_iff_eq.mpr (named payload logged))
  exact own.symm.trans events.symm

/-- To the subscribers of one symbol the others are nothing but the danger of a division by zero.
Whatever calls a registry receives, its log is published exactly when the logs of the single
symbols' calls are; then it reports of every symbol exactly what a registry and a publisher that
receive the calls of this symbol alone report of it, numbers included. -/
theorem subscriber_isolation (allocator : SlabAllocator) (backend : MatcherBackend)
    (calls : List RegistryCall) :
    let published :=
      EventPublisher.publish (run callRegistry (init allocator backend) calls).2.eventLog
    let alone := fun symbol => EventPublisher.publish (run callRegistry (init allocator backend)
      (calls.filter (fun call => call.symbol == symbol))).2.eventLog
    (published.isSome = true ↔ ∀ symbol, (alone symbol).isSome = true) ∧
      ∀ publisher, published = some publisher → ∀ symbol, ∃ other, alone symbol = some other ∧
        other.reports = publisher.reportsOf symbol := by
  intro published alone
  have reported : ∀ publisher, published = some publisher → ∀ symbol, ∃ other,
      alone symbol = some other ∧ other.reports = publisher.reportsOf symbol := by
    intro publisher processed symbol
    obtain ⟨other, processedToo, serves⟩ := (EventPublisher.serves_init symbol).run processed
    refine ⟨other, ?_, serves.reports⟩
    show (payloads _).foldlM EventPublisher.process EventPublisher.init = some other
    rw [payloads_filter]
    exact processedToo
  refine ⟨?_, reported⟩
  constructor
  · intro through symbol
    obtain ⟨publisher, processed⟩ := Option.isSome_iff_exists.mp through
    obtain ⟨other, processedToo, _⟩ := reported publisher processed symbol
    exact Option.isSome_iff_exists.mpr ⟨other, processedToo⟩
  · intro each
    refine EventPublisher.isSome_of_alone EventPublisher.serves_init ?_
    intro symbol
    have through : ((payloads _).foldlM EventPublisher.process EventPublisher.init).isSome = true :=
      each symbol
    rw [payloads_filter] at through
    exact through

/-- A trade in one symbol while another one is quoted. -/
def twoSymbolCalls : List RegistryCall :=
  [.createInstrument [65], .createInstrument [66],
    .submitOrder [65] { id := 1, side := .sell, price := 10, quantity := 5 },
    .submitOrder [66] { id := 1, side := .sell, price := 20, quantity := 9 },
    .matchOrder [65] { id := 2, side := .buy, price := 10, quantity := 5 },
    .cancelOrder [66] 1]

/-- Four reports of the one and two of the other. -/
theorem subscriber_isolation_two_symbols :
    let allocator := SlabAllocator.consecutive 2 Nat.two_pos
    ∃ publisher alone : EventPublisher, EventPublisher.publish
        (run callRegistry (init allocator .optimized) twoSymbolCalls).2.eventLog = some publisher ∧
      alone.reports = publisher.reportsOf [65] ∧ (publisher.reportsOf [65]).length = 4 ∧
      (publisher.reportsOf [66]).length = 2 := by
  intro allocator
  obtain ⟨publisher, published⟩ : ∃ publisher, EventPublisher.publish
      (run callRegistry (init allocator .optimized) twoSymbolCalls).2.eventLog = some publisher :=
    Option.isSome_iff_exists.mp (by decide)
  obtain ⟨alone, _, same⟩ :=
    (subscriber_isolation allocator .optimized twoSymbolCalls).2 publisher published [65]
  have counted : (EventPublisher.publish
      (run callRegistry (init allocator .optimized) twoSymbolCalls).2.eventLog).map
        (fun publisher => ((publisher.reportsOf [65]).length, (publisher.reportsOf [66]).length)) =
      some (4, 2) := by decide
  rw [published] at counted
  obtain ⟨four, two⟩ := Prod.mk.inj (Option.some.inj counted)
  exact ⟨publisher, alone, published, same, four, two⟩

end InstrumentRegistry

end Titan
