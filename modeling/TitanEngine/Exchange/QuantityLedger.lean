import TitanEngine.Exchange.Lifecycle
import TitanEngine.Exchange.Subtractions

/-!
# The quantity ledger

What was entered under an id, and what its amendments added or took away, is what is still open
and what was traded. The sums are taken as numbers, over every trade the matcher executed, and
hold of every accepted id along every run.
-/

namespace Titan

open Library Std OrderManager Ledger

/-- The quantity an order traded, as the incoming or as the resting one. -/
def tradedBy (id : OrderId) (trades : List Trade) : Nat :=
  totalTraded
    (trades.filter (fun trade => trade.incomingOrderId == id || trade.restingOrderId == id))

/-- The quantity a call asks to enter under an id. -/
def ManagerCall.entryQuantity (id : OrderId) : ManagerCall → Option Quantity
  | addOrder order => if order.id = id then some order.quantity else none
  | matchOrder order => if order.id = id then some order.quantity else none
  | cancelOrder _ => none
  | cancelReplace _ _ => none

/-- The quantity a call enters under an id, when it is accepted. -/
def entryOf (id : OrderId) (call : ManagerCall) (result : MatchResult) : Option Quantity :=
  if result.accept.accepted then call.entryQuantity id else none

/-- The quantity an accepted call of the run entered under an id. -/
def quantityAtEntry (id : OrderId) (calls : List ManagerCall) (results : List MatchResult) :
    Option Quantity :=
  (calls.zip results).findSome? (fun pair => entryOf id pair.1 pair.2)

/-- The quantity of a record, and nothing where there is none. -/
def recordedQuantity (record : Option Order) : Nat :=
  (record.map (fun order => order.quantity.toNat)).getD 0

/-- What a call adds to the quantity held under an id by amending it. -/
def amendedBy (id : OrderId) (held : Nat) (call : ManagerCall) (result : MatchResult) : Int :=
  match call with
  | .cancelReplace oldId newOrder =>
    if oldId = id ∧ result.accept.accepted = true then (newOrder.quantity.toNat : Int) - held
    else 0
  | _ => 0

/-- The sum over the accepted amendments of an id, along a run, of the new quantity less the
quantity held just before. -/
def OrderManager.amendments {M : Type} [IMatcher M] (id : OrderId) :
    OrderManager M → List ManagerCall → Int
  | _, [] => 0
  | manager, call :: rest =>
    amendedBy id (recordedQuantity (manager.find id)) call (callManager manager call).1 +
      amendments id (callManager manager call).2 rest

/-- A quantity is entered by an accepted call for the id. -/
theorem wasAccepted_of_entry {id : OrderId} {calls : List ManagerCall}
    {results : List MatchResult} {quantity : Quantity}
    (entered : quantityAtEntry id calls results = some quantity) :
    WasAccepted id calls results := by
  obtain ⟨pair, member, entry⟩ := List.exists_of_findSome?_eq_some entered
  refine ⟨pair, member, ?_⟩
  unfold entryOf at entry
  split at entry
  · rename_i accepted
    refine ⟨?_, accepted⟩
    cases call : pair.1 <;> simp [ManagerCall.entryQuantity, call] at entry <;>
      simp [ManagerCall.entry, entry.1]
  · simp at entry

section Traded

/-- Two lists of trades. -/
theorem tradedBy_append (id : OrderId) (first second : List Trade) :
    tradedBy id (first ++ second) = tradedBy id first + tradedBy id second := by
  simp [tradedBy, totalTraded]

/-- Trades of other orders. -/
theorem tradedBy_of_ne {id : OrderId} {trades : List Trade}
    (alone : ∀ trade ∈ trades, trade.incomingOrderId ≠ id ∧ trade.restingOrderId ≠ id) :
    tradedBy id trades = 0 := by
  have none_ : trades.filter (fun trade =>
      trade.incomingOrderId == id || trade.restingOrderId == id) = [] := by
    rw [List.filter_eq_nil_iff]
    intro trade member
    simpa using alone trade member
  rw [tradedBy, none_]
  rfl

/-- Trades that are all of one incoming order. -/
theorem tradedBy_incoming {id : OrderId} {trades : List Trade}
    (own : ∀ trade ∈ trades, trade.incomingOrderId = id) :
    tradedBy id trades = totalTraded trades := by
  have all : trades.filter (fun trade =>
      trade.incomingOrderId == id || trade.restingOrderId == id) = trades := by
    rw [List.filter_eq_self]
    intro trade member
    simp [own trade member]
  rw [tradedBy, all]

/-- The only trade with a resting order. -/
theorem tradedBy_resting {trades : List Trade}
    (distinct : (trades.map Trade.restingOrderId).Nodup) {trade : Trade} (member : trade ∈ trades)
    (apart : ∀ other ∈ trades, other.incomingOrderId ≠ trade.restingOrderId) :
    tradedBy trade.restingOrderId trades = trade.quantity.toNat := by
  induction trades with
  | nil => simp at member
  | cons head rest ih =>
    obtain ⟨different, distinctRest⟩ := List.nodup_cons.mp distinct
    have split : head :: rest = [head] ++ rest := rfl
    have away := apart head List.mem_cons_self
    have apartRest := fun other inside => apart other (List.mem_cons_of_mem head inside)
    rw [split, tradedBy_append]
    rcases List.mem_cons.mp member with rfl | inside
    · have others : tradedBy trade.restingOrderId rest = 0 := by
        apply tradedBy_of_ne
        intro other inside
        exact ⟨apartRest other inside,
          fun same => different (List.mem_map.mpr ⟨other, inside, same⟩)⟩
      rw [others]
      simp [tradedBy, totalTraded]
    · have other : head.restingOrderId ≠ trade.restingOrderId :=
        fun same => different (List.mem_map.mpr ⟨trade, inside, same.symm⟩)
      have none_ : tradedBy trade.restingOrderId [head] = 0 := by
        apply tradedBy_of_ne
        intro single inside
        rw [List.mem_singleton.mp inside]
        exact ⟨away, other⟩
      rw [none_, ih distinctRest inside apartRest, Nat.zero_add]

end Traded

namespace Ledger

variable {ledger : Ledger}

/-- The incoming order of every trade of an entry is the order that enters. -/
theorem Consistent.incoming_trades (consistent : ledger.Consistent) (order : Order) :
    ∀ trade ∈ (ledger.fillOf order).trades, trade.incomingOrderId = order.id := by
  intro trade member
  obtain ⟨maker, _, with_, _⟩ := consistent.trade_maker member
  rw [with_]
  rfl

/-- An entry opens the order's quantity less what it trades. -/
theorem Consistent.quantity_enter_self (consistent : ledger.Consistent) (order : Order) :
    recordedQuantity (ledger.enter order).records[order.id]? +
      tradedBy order.id (ledger.fillOf order).trades = order.quantity.toNat := by
  rw [getElem?_enter_self, tradedBy_incoming (consistent.incoming_trades order)]
  exact (ledger.fillOf_total order).symm

/-- An entry takes off every other order what it trades with it. -/
theorem Consistent.quantity_enter_other (consistent : ledger.Consistent) (order : Order)
    {id : OrderId} (other : id ≠ order.id) :
    recordedQuantity (ledger.enter order).records[id]? +
      tradedBy id (ledger.fillOf order).trades = recordedQuantity ledger.records[id]? := by
  have incoming := consistent.incoming_trades order
  cases consistent.enter_effect order other with
  | untouched alone record _ =>
    have nothing : tradedBy id (ledger.fillOf order).trades = 0 := by
      apply tradedBy_of_ne
      intro trade member
      rw [incoming trade member]
      exact ⟨other.symm, alone trade member⟩
    rw [record, nothing, Nat.add_zero]
  | @traded trade member resting record found settled _ covered _ =>
    subst resting
    have amount := tradedBy_resting (consistent.distinct_trades order) member
      (fun single inside => by rw [incoming single inside]; exact other.symm)
    have less := UInt64.le_iff_toNat_le.mp covered
    rw [settled, found, amount]
    simp only [recordedQuantity, Option.map_some, Option.getD_some, Order.settled,
      UInt64.toNat_sub_of_le _ _ covered]
    omega

/-- What a call trades under an id and leaves open is what was open, what it enters and what it
amends. -/
theorem Step.quantity {call : ManagerCall} {result : MatchResult} {next : Ledger}
    (step : ledger.Step call result next) (life : ledger.Lifecycle)
    (consistent : ledger.Consistent) (id : OrderId) :
    let held := recordedQuantity ledger.records[id]?
    (recordedQuantity next.records[id]? : Int) + tradedBy id (tradesOf ledger call) =
      held + ((entryOf id call result).map UInt64.toNat).getD 0 +
        amendedBy id held call result := by
  intro held
  have entered : ∀ order, validateNewOrder order ledger.known = .none →
      recordedQuantity (ledger.enter order).records[id]? +
          tradedBy id (ledger.fillOf order).trades =
        held + ((if order.id = id then some order.quantity else none).map UInt64.toNat).getD 0 := by
    intro order valid
    by_cases own : order.id = id
    · subst own
      have unknown := (validateNewOrder_none valid).2.2
      have absent : ledger.records[order.id]? = none := by
        rw [life.known order.id] at unknown
        simpa using unknown
      simp only [held, absent, ↓reduceIte, consistent.quantity_enter_self order]
      simp [recordedQuantity]
    · simp only [own, ↓reduceIte, consistent.quantity_enter_other order (Ne.symm own)]
      simp [held]
  cases step with
  | @refused _ reason nothing =>
    have unchanged : amendedBy id held call { trades := [], accept := .reject reason } = 0 := by
      cases call <;> simp [amendedBy, AcceptResult.reject]
    rw [nothing, unchanged]
    simp [entryOf, AcceptResult.reject, tradedBy, totalTraded, held]
  | @added order plain valid =>
    have same := entered order valid
    simp only [tradesOf_added plain valid, ↓reduceIte, entryOf, AcceptResult.ok,
      ManagerCall.entryQuantity, amendedBy]
    omega
  | @matched order valid =>
    have same := entered order valid
    simp only [tradesOf_matched valid, ↓reduceIte, entryOf, AcceptResult.ok,
      ManagerCall.entryQuantity, amendedBy]
    omega
  | @cancelled other rests =>
    have kept : recordedQuantity (ledger.records.insert other
        { ledger.recordOf other with status := .cancelled })[id]? = held := by
      rw [ExtTreeMap.getElem?_insert]
      by_cases own : other = id
      · subst own
        obtain ⟨record, found⟩ := consistent.record_of_holds rests
        have recorded : ledger.recordOf other = record := by
          rw [recordOf, ExtTreeMap.getD_eq_getD_getElem?, found]
          rfl
        simp [held, found, recorded, recordedQuantity]
      · rw [if_neg (by simpa using own)]
    have none_ : tradesOf ledger (.cancelOrder other) = [] := rfl
    simp [kept, none_, entryOf, ManagerCall.entryQuantity, amendedBy, tradedBy, totalTraded]
  | @amended newOrder rests plain valid clear =>
    have replaced : recordedQuantity (ledger.records.insert newOrder.id
        { newOrder with status := .new })[id]? =
        if newOrder.id = id then newOrder.quantity.toNat else held := by
      rw [ExtTreeMap.getElem?_insert]
      by_cases own : newOrder.id = id
      · subst own
        simp [recordedQuantity]
      · rw [if_neg (by simpa using own), if_neg own]
    have none_ : tradesOf ledger (.cancelReplace newOrder.id newOrder) = [] := rfl
    simp only [amend, replaced, none_, entryOf, ManagerCall.entryQuantity, amendedBy,
      AcceptResult.ok, tradedBy, totalTraded]
    split <;> simp [*]

/-- A call enters nothing under an id that was accepted before. -/
theorem Step.entryOf_known {call : ManagerCall} {result : MatchResult} {next : Ledger}
    (step : ledger.Step call result next) {id : OrderId} (known : id ∈ ledger.known) :
    entryOf id call result = none := by
  have new : ∀ order, validateNewOrder order ledger.known = .none → order.id ≠ id :=
    fun order valid same => (validateNewOrder_none valid).2.2 (same ▸ known)
  cases step with
  | refused nothing => rfl
  | added plain valid => simp [entryOf, ManagerCall.entryQuantity, new _ valid]
  | matched valid => simp [entryOf, ManagerCall.entryQuantity, new _ valid]
  | cancelled held => simp [entryOf, ManagerCall.entryQuantity]
  | amended held plain valid clear => simp [entryOf, ManagerCall.entryQuantity]

/-- A call that enters nothing under a new id leaves it new. -/
theorem Step.unknown_of_entryOf {call : ManagerCall} {result : MatchResult} {next : Ledger}
    (step : ledger.Step call result next) {id : OrderId} (unknown : id ∉ ledger.known)
    (nothing : entryOf id call result = none) : id ∉ next.known := by
  rw [step.mem_known]
  rintro (known | ⟨entry, accepted⟩)
  · exact unknown known
  · cases call <;> simp [ManagerCall.entry] at entry <;>
      simp [entryOf, accepted, ManagerCall.entryQuantity, entry] at nothing

/-- A call that enters a quantity under an id makes it known. -/
theorem Step.known_of_entryOf {call : ManagerCall} {result : MatchResult} {next : Ledger}
    (step : ledger.Step call result next) {id : OrderId} {quantity : Quantity}
    (entered : entryOf id call result = some quantity) : id ∈ next.known := by
  rw [step.mem_known]
  right
  cases accepted : result.accept.accepted with
  | false => simp [entryOf, accepted] at entered
  | true =>
    cases call <;> simp [entryOf, accepted, ManagerCall.entryQuantity] at entered <;>
      simp [ManagerCall.entry, entered.1]

/-- Nothing is amended under an id that was not accepted. -/
theorem Step.amendedBy_unknown {call : ManagerCall} {result : MatchResult} {next : Ledger}
    (step : ledger.Step call result next) (consistent : ledger.Consistent) {id : OrderId}
    (unknown : id ∉ ledger.known) (held : Nat) : amendedBy id held call result = 0 := by
  cases step with
  | refused nothing => cases call <;> simp [amendedBy, AcceptResult.reject]
  | added plain valid => rfl
  | matched valid => rfl
  | cancelled held => rfl
  | @amended newOrder held plain valid clear =>
    have other : newOrder.id ≠ id := fun same => unknown (same ▸ consistent.known_of_holds held)
    simp [amendedBy, other]

end Ledger

namespace OrderManager

section Lawful

variable {M : Type} [LawfulMatcher M] {manager : OrderManager (Recorded M)} {ledger : Ledger}

/-- Nothing is recorded under an id that was not accepted. -/
theorem Mirrors.recorded_unknown (mirrors : manager.Mirrors ledger) (life : ledger.Lifecycle)
    {id : OrderId} (unknown : id ∉ ledger.known) : recordedQuantity (manager.find id) = 0 := by
  have absent : ledger.records[id]? = none := by
    rw [life.known id] at unknown
    simpa using unknown
  simp only [find, mirrors.records, absent, recordedQuantity, Option.map_none, Option.getD_none]

/-- One call keeps the books of an id balanced. -/
theorem Mirrors.quantity_call (mirrors : manager.Mirrors ledger) (life : ledger.Lifecycle)
    (call : ManagerCall) (id : OrderId) :
    let held := recordedQuantity (manager.find id)
    let result := (callManager manager call).1
    let next := (callManager manager call).2
    (recordedQuantity (next.find id) : Int) + tradedBy id next.matcher.executed =
      held + tradedBy id manager.matcher.executed +
        ((entryOf id call result).map UInt64.toNat).getD 0 + amendedBy id held call result := by
  intro held result next
  obtain ⟨same, after⟩ := mirrors.call call
  have balance := (ledger.step_of_call call).quantity life mirrors.consistent id
  have executed := mirrors.executed_call call
  have before : held = recordedQuantity ledger.records[id]? := by
    simp only [held, find, mirrors.records]
  have later : recordedQuantity (next.find id) =
      recordedQuantity (callLedger ledger call).2.records[id]? := by
    simp only [next, find, after.records]
  have answer : result = (callLedger ledger call).1 := same
  rw [show next.matcher.executed = _ from executed, tradedBy_append, later, before, answer]
  push_cast
  omega

/-- The books of an accepted id stay balanced along a run. -/
theorem Mirrors.quantity_run_known (mirrors : manager.Mirrors ledger) (life : ledger.Lifecycle)
    {id : OrderId} (known : id ∈ ledger.known) (calls : List ManagerCall) :
    let final := (Library.run callManager manager calls).2
    (recordedQuantity (final.find id) : Int) + tradedBy id final.matcher.executed =
      recordedQuantity (manager.find id) + tradedBy id manager.matcher.executed +
        manager.amendments id calls := by
  induction calls generalizing manager ledger with
  | nil => simp [Library.run, amendments]
  | cons call rest ih =>
    have step := ledger.step_of_call call
    have first := mirrors.quantity_call life call id
    have stays : id ∈ (callLedger ledger call).2.known := step.mem_known id |>.mpr (.inl known)
    have later := ih (mirrors.call call).2 (step.lifecycle life mirrors.consistent) stays
    have nothing := step.entryOf_known known
    rw [← (mirrors.call call).1] at nothing
    simp only [nothing, Option.map_none, Option.getD_none] at first
    simp only [Library.run, amendments] at later ⊢
    push_cast at first
    omega

/-- The books of an id are balanced from its entry on. -/
theorem Mirrors.quantity_run (mirrors : manager.Mirrors ledger) (life : ledger.Lifecycle)
    {id : OrderId} (unknown : id ∉ ledger.known) (calls : List ManagerCall) {quantity : Quantity}
    (entered : quantityAtEntry id calls (Library.run callManager manager calls).1 =
      some quantity) :
    let final := (Library.run callManager manager calls).2
    (recordedQuantity (final.find id) : Int) + tradedBy id final.matcher.executed =
      tradedBy id manager.matcher.executed + quantity.toNat + manager.amendments id calls := by
  induction calls generalizing manager ledger with
  | nil => simp [quantityAtEntry] at entered
  | cons call rest ih =>
    have step := ledger.step_of_call call
    have first := mirrors.quantity_call life call id
    obtain ⟨same, next⟩ := mirrors.call call
    have lives := step.lifecycle life mirrors.consistent
    have nobody := mirrors.recorded_unknown life unknown
    have unamended := step.amendedBy_unknown mirrors.consistent unknown 0
    rw [← same] at unamended
    simp only [nobody, unamended] at first
    simp only [quantityAtEntry, Library.run, List.zip_cons_cons, List.findSome?_cons] at entered
    simp only [Library.run, amendments, nobody, unamended]
    cases entry : entryOf id call (callManager manager call).1 with
    | none =>
      rw [entry] at entered first
      rw [same] at entry
      have still := step.unknown_of_entryOf unknown entry
      have later := ih next lives still entered
      have nothing := next.recorded_unknown lives still
      simp only [Option.map_none, Option.getD_none] at first
      simp only at later
      push_cast at first
      omega
    | some amount =>
      rw [entry] at entered first
      rw [same] at entry
      have later := next.quantity_run_known lives (step.known_of_entryOf entry) rest
      obtain rfl := Option.some.inj entered
      simp only [Option.map_some, Option.getD_some] at first
      simp only at later
      push_cast at first
      omega

end Lawful

/-- A trade of an incoming order takes its quantity, and not zero, off one resting order of the
other side. -/
structure Lowers {M : Type} (before after : OrderManager M) (order : Order) (trade : Trade) :
    Prop where
  /-- Something is traded. -/
  positive : 0 < trade.quantity
  /-- The incoming order is the one that enters. -/
  incoming : trade.incomingOrderId = order.id
  /-- The resting order loses the traded quantity. -/
  resting : ∃ old new, before.find trade.restingOrderId = some old ∧
    after.find trade.restingOrderId = some new ∧ old.side = order.side.opposite ∧
    new.side = old.side ∧ old.quantity.toNat = new.quantity.toNat + trade.quantity.toNat

/-- The trades of a call lower each its own resting order, and together the order that enters. -/
structure Settles {M : Type} (before after : OrderManager M) (order : Order)
    (trades : List Trade) : Prop where
  /-- No two trades are with one resting order. -/
  distinct : (trades.map Trade.restingOrderId).Nodup
  /-- Each lowers its resting order. -/
  lowers : ∀ trade ∈ trades, Lowers before after order trade
  /-- The order that enters loses what they trade. -/
  left : ∃ record, after.find order.id = some record ∧ record.side = order.side ∧
    order.quantity.toNat = record.quantity.toNat + totalTraded trades

section Lawful

variable {M : Type} [LawfulMatcher M] {manager : OrderManager (Recorded M)} {ledger : Ledger}

/-- The trades of an entry lower what they trade with. -/
theorem Mirrors.settles (mirrors : manager.Mirrors ledger) {next : OrderManager (Recorded M)}
    {order : Order} (valid : validateNewOrder order ledger.known = .none)
    (entered : next.Mirrors (ledger.enter order)) :
    Settles manager next order (ledger.fillOf order).trades where
  distinct := mirrors.consistent.distinct_trades order
  lowers trade member := by
    have unknown := (validateNewOrder_none valid).2.2
    have fresh := mirrors.fresh_of_unknown unknown
    obtain ⟨maker, inside, with_, positive, covered⟩ := mirrors.consistent.trade_maker member
    have resting : trade.restingOrderId = maker.id := by rw [with_]; rfl
    have apart : trade.restingOrderId ≠ order.id := by
      rw [resting]
      exact fresh _ maker inside
    obtain ⟨record, found, agrees⟩ := mirrors.consistent.covers _ maker inside
    have settled := getElem?_settleAll_of_mem (mirrors.consistent.distinct_trades order) member
      ledger.records
    rw [← Ledger.getElem?_enter_of_ne apart, resting, found] at settled
    refine ⟨UInt64.pos_iff_ne_zero.mpr positive, mirrors.consistent.incoming_trades order trade
      member, record, record.settled trade.quantity, ?_, ?_, ?_, rfl, ?_⟩
    · rw [find, mirrors.records, resting, found]
    · rw [find, entered.records, resting, settled, Option.map_some]
    · rw [agrees.side]
      exact mirrors.consistent.sound.sided _ maker inside
    · have less : trade.quantity ≤ record.quantity := by
        rw [agrees.quantity]
        exact covered
      have number := UInt64.le_iff_toNat_le.mp less
      simp only [Order.settled, UInt64.toNat_sub_of_le _ _ less]
      omega
  left := by
    have found : (ledger.enter order).records[order.id]? = some _ := Ledger.getElem?_enter_self
    rw [← entered.records] at found
    exact ⟨_, found, rfl, ledger.fillOf_total order⟩

/-- Every call executes no trade, or those of the order it enters, and they lower it and its
resting orders. -/
theorem Mirrors.settles_call (mirrors : manager.Mirrors ledger) (call : ManagerCall) :
    tradesOf ledger call = [] ∨
      ∃ order, (call = .addOrder order ∨ call = .matchOrder order) ∧
        Settles manager (callManager manager call).2 order (tradesOf ledger call) := by
  obtain ⟨_, next⟩ := mirrors.call call
  have step := ledger.step_of_call call
  generalize (callLedger ledger call).1 = result at step
  generalize (callLedger ledger call).2 = after at step next
  cases step with
  | refused idle => exact .inl idle
  | @added order plain valid =>
    right
    refine ⟨order, .inl rfl, ?_⟩
    rw [tradesOf_added plain valid]
    exact mirrors.settles valid next
  | @matched order valid =>
    right
    refine ⟨order, .inr rfl, ?_⟩
    rw [tradesOf_matched valid]
    exact mirrors.settles valid next
  | cancelled held => exact .inl rfl
  | amended held plain valid clear => exact .inl rfl

/-- Nothing but positive quantities is ever traded. -/
theorem Mirrors.positive_run (mirrors : manager.Mirrors ledger)
    (positive : ∀ trade ∈ manager.matcher.executed, 0 < trade.quantity)
    (calls : List ManagerCall) :
    ∀ trade ∈ (Library.run callManager manager calls).2.matcher.executed, 0 < trade.quantity := by
  induction calls generalizing manager ledger with
  | nil => exact positive
  | cons call rest ih =>
    refine ih (mirrors.call call).2 ?_
    intro trade member
    rw [mirrors.executed_call call] at member
    rcases List.mem_append.mp member with old | new
    · exact positive trade old
    · rcases mirrors.settles_call call with none_ | ⟨order, _, settles⟩
      · simp [none_] at new
      · exact (settles.lowers trade new).positive

end Lawful

/-- The quantity ledger, along every run and over either matcher. For every accepted id the
quantity at entry and the sum of its amendments are the recorded quantity and the total of the
trades the matcher executed with it; what rests in the matcher has the recorded quantity. No
subtraction of a quantity wraps, in a matcher or in the manager; every trade is positive; and
every call's trades lower the order it enters, and each one resting order of the other side, by
what they trade. -/
theorem quantity_ledger (allocator : SlabAllocator) (backend : MatcherBackend)
    (calls : List ManagerCall) :
    let start := init (Recorded.start (makeMatcher allocator backend))
    let reached := run callManager start calls
    let manager := reached.2
    (∀ id quantity, quantityAtEntry id calls reached.1 = some quantity →
        ∃ order, manager.find id = some order ∧
          (quantity.toNat : Int) + start.amendments id calls =
            order.quantity.toNat + tradedBy id manager.matcher.executed) ∧
      (∀ side, ∀ order ∈ resting manager.matcher side,
        (manager.find order.id).map Order.quantity = some order.quantity) ∧
      (∀ call, ∀ subtraction ∈ manager.subtractions call, ¬ subtraction.Wraps) ∧
      (∀ state, ∀ subtraction ∈ ReferenceMatcher.crossSubtractions state, ¬ subtraction.Wraps) ∧
      (∀ state, ∀ subtraction ∈ OptimizedMatcher.crossSubtractions state, ¬ subtraction.Wraps) ∧
      (∀ trade ∈ manager.matcher.executed, 0 < trade.quantity) ∧
      ∀ call,
        let next := (callManager manager call).2
        let trades := next.matcher.executed.drop manager.matcher.executed.length
        trades = [] ∨ ∃ order, (call = .addOrder order ∨ call = .matchOrder order) ∧
          Settles manager next order trades := by
  intro start reached manager
  have represents : Represents (Recorded.start (makeMatcher allocator backend)) Book.empty :=
    Matcher.holds_makeMatcher allocator backend
  have begun : start.Mirrors Ledger.empty := mirrors_init represents
  obtain ⟨answers, mirrors⟩ := begun.run calls
  have life := begun.lifecycle_run Ledger.lifecycle_empty calls
  have nobody : ∀ id, id ∉ Ledger.empty.known := by simp [Ledger.empty]
  refine ⟨?_, ?_, mirrors.subtractions_exact, ReferenceMatcher.crossSubtractions_exact,
    OptimizedMatcher.crossSubtractions_exact, ?_, ?_⟩
  · intro id quantity entered
    have balance : (recordedQuantity (manager.find id) : Int) +
        tradedBy id manager.matcher.executed =
          tradedBy id start.matcher.executed + quantity.toNat + start.amendments id calls :=
      begun.quantity_run Ledger.lifecycle_empty (nobody id) calls entered
    have accepted := wasAccepted_of_entry entered
    rw [show reached.1 = _ from answers] at accepted
    have known := (Ledger.mem_known_run Ledger.empty calls id).mpr (.inr accepted)
    rw [life.known id, ← mirrors.records, Option.isSome_iff_exists] at known
    obtain ⟨order, found⟩ := known
    refine ⟨order, found, ?_⟩
    have nothing : tradedBy id start.matcher.executed = 0 := rfl
    have recorded : recordedQuantity (manager.find id) = order.quantity.toNat := by
      rw [show manager.find id = some order from found]
      rfl
    rw [recorded, nothing] at balance
    omega
  · intro side order member
    obtain ⟨_, _, record, found, _, _, _, same⟩ := mirrors.inStep.recorded side order member
    rw [show manager.find order.id = some record from found, Option.map_some, same]
  · exact begun.positive_run (by simp [start, init, Recorded.start, Recorded.executed]) calls
  · intro call next trades
    have executed : next.matcher.executed =
        manager.matcher.executed ++ tradesOf (run callLedger Ledger.empty calls).2 call :=
      mirrors.executed_call call
    have settled := mirrors.settles_call call
    simp only [trades, executed, List.drop_left]
    exact settled

/-- A bid of ten that trades four and is then amended from six to nine. -/
theorem quantity_ledger_amended :
    let start := init (Recorded.start (makeMatcher (.consecutive 2 (by decide)) .optimized))
    let calls : List ManagerCall :=
      [.addOrder { id := 1, side := .buy, price := 10, quantity := 10 },
        .matchOrder { id := 2, side := .sell, price := 10, quantity := 4 },
        .cancelReplace 1 { id := 1, side := .buy, price := 10, quantity := 9 }]
    let reached := run callManager start calls
    quantityAtEntry 1 calls reached.1 = some 10 ∧
      ∃ order, reached.2.find 1 = some order ∧
        (10 : Int) + start.amendments 1 calls =
          order.quantity.toNat + tradedBy 1 reached.2.matcher.executed := by
  intro start calls reached
  have entered : quantityAtEntry 1 calls reached.1 = some 10 := by decide
  exact ⟨entered, (quantity_ledger (.consecutive 2 (by decide)) .optimized calls).1 1 10 entered⟩

end OrderManager

end Titan
