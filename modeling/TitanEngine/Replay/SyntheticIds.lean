import TitanEngine.Exchange.Lifecycle
import TitanEngine.Replay.AdapterCalls
import TitanEngine.Replay.LateMessages
import TitanEngine.Replay.ParitySteps

/-!
# Synthetic ids and references

The adapter enters the references of added orders and its own synthetic ids into one id space.
The messages alone say which ids have been entered for a locate: `IdLog` collects them. An added
order is accepted, and an execution of the first order of a side is carried out, exactly when the
id it enters is not in the log.
-/

namespace Titan

open Library Std

/-- The ids entered since the last end of messages. -/
structure IdLog where
  /-- Locates registered. -/
  locates : List StockLocate
  /-- The next synthetic id. -/
  next : OrderId
  /-- Ids entered, each with its locate. -/
  used : List (StockLocate × OrderId)

namespace IdLog

/-- Nothing was entered. -/
def init : IdLog := { locates := [], next := firstSyntheticId, used := [] }

/-- The locate and the id that a message enters. -/
def entry (log : IdLog) : ItchMessage → Option (StockLocate × OrderId)
  | .addOrder message =>
    if message.stockLocate ∈ log.locates then
      some (message.stockLocate, message.orderReferenceNumber)
    else none
  | .addOrderMpid message =>
    if message.base.stockLocate ∈ log.locates then
      some (message.base.stockLocate, message.base.orderReferenceNumber)
    else none
  | .orderExecuted message => some (message.stockLocate, log.next)
  | .orderExecutedWithPrice message => some (message.base.stockLocate, log.next)
  | _ => none

/-- One message more. -/
def extend (log : IdLog) (message : ItchMessage) : IdLog :=
  if message.endsSession then init
  else
    { locates := message.registration.toList.map Prod.fst ++ log.locates
      next := if message.execution.isSome then log.next + 1 else log.next
      used := (log.entry message).toList ++ log.used }

/-- The message enters no id twice. -/
def Clear (log : IdLog) (message : ItchMessage) : Prop :=
  ∀ entry ∈ log.entry message, entry ∉ log.used

instance (log : IdLog) (message : ItchMessage) : Decidable (log.Clear message) :=
  Option.decidableForallMem (log.entry message)

end IdLog

namespace Session

/-- The ids entered by the messages so far. -/
def idLog (session : Session) : IdLog := session.messages.foldl IdLog.extend IdLog.init

/-- A new reference, with shares and a price. -/
def IntroducesOnce (session : Session) (ref : OrderRefNumber) (shares price : UInt32) : Prop :=
  ref ∉ session.introduced ∧ shares ≠ 0 ∧ price ≠ 0

instance (session : Session) (ref : OrderRefNumber) (shares price : UInt32) :
    Decidable (session.IntroducesOnce ref shares price) :=
  inferInstanceAs (Decidable (_ ∧ _ ∧ _))

/-- A new order on a registered locate that does not cross, under any reference. -/
def AddsOnce (session : Session) (message : AddOrderMessage) : Prop :=
  message.stockLocate ∈ session.registrations.map Prod.fst ∧
    session.IntroducesOnce message.orderReferenceNumber message.shares message.price ∧
    session.builder.crosses message.stockLocate message.side message.price.toUInt64 = false

instance (session : Session) (message : AddOrderMessage) : Decidable (session.AddsOnce message) :=
  inferInstanceAs (Decidable (_ ∧ _ ∧ _))

/-- A live order is replaced under any new reference, without crossing. -/
def ReplacesOnce (session : Session) (message : OrderReplaceMessage) : Prop :=
  ∃ order ∈ session.builder.liveOrder message.stockLocate message.originalOrderReferenceNumber,
    session.IntroducesOnce message.newOrderReferenceNumber message.shares message.price ∧
    session.builder.crosses message.stockLocate order.side message.price.toUInt64 = false

instance (session : Session) (message : OrderReplaceMessage) :
    Decidable (session.ReplacesOnce message) :=
  inferInstanceAs (Decidable (∃ order ∈ session.builder.liveOrder _ _, _))

/-- The message is well formed after the session so far, but for the size of its reference. -/
def WellFormedOnce (session : Session) : ItchMessage → Prop
  | .addOrder message => session.AddsOnce message
  | .addOrderMpid message => session.AddsOnce message.base
  | .orderReplace message => session.ReplacesOnce message
  | message => session.WellFormed message

instance decidableWellFormedOnce (session : Session) :
    (message : ItchMessage) → Decidable (session.WellFormedOnce message)
  | .addOrder message => inferInstanceAs (Decidable (session.AddsOnce message))
  | .addOrderMpid message => inferInstanceAs (Decidable (session.AddsOnce message.base))
  | .orderReplace message => inferInstanceAs (Decidable (session.ReplacesOnce message))
  | .systemEvent message => session.decidableWellFormed (.systemEvent message)
  | .stockDirectory message => session.decidableWellFormed (.stockDirectory message)
  | .orderExecuted message => session.decidableWellFormed (.orderExecuted message)
  | .orderExecutedWithPrice message => session.decidableWellFormed (.orderExecutedWithPrice message)
  | .orderCancel message => session.decidableWellFormed (.orderCancel message)
  | .orderDelete message => session.decidableWellFormed (.orderDelete message)
  | .timestampSeconds message => session.decidableWellFormed (.timestampSeconds message)

end Session

namespace ItchEngineAdapter

/-- The order of a side that the engine would execute first. -/
def firstOrder (adapter : ItchEngineAdapter) (locate : StockLocate) (side : Side) :
    Option Order := do
  let instrument ← adapter.instrumentFor locate
  (resting instrument.manager.matcher side).head?

/-- An execution names the first order of a side, for no more than its quantity and at a price at
or through its own. -/
def TargetsFirst (adapter : ItchEngineAdapter) (locate : StockLocate) (ref : OrderRefNumber)
    (executedShares : UInt32) (executionPrice : Option UInt32) (target : Order) : Prop :=
  adapter.firstOrder locate target.side = some target ∧ target.id = adapter.engineIdFor ref ∧
    executedShares ≠ 0 ∧ executedShares.toUInt64 ≤ target.quantity ∧
    ∀ price ∈ executionPrice,
      price ≠ 0 ∧ crosses target.side.opposite price.toUInt64 target.price = true

instance (adapter : ItchEngineAdapter) (locate : StockLocate) (ref : OrderRefNumber)
    (executedShares : UInt32) (executionPrice : Option UInt32) (target : Order) :
    Decidable (adapter.TargetsFirst locate ref executedShares executionPrice target) :=
  have : Decidable (∀ price ∈ executionPrice,
      price ≠ 0 ∧ crosses target.side.opposite price.toUInt64 target.price = true) :=
    Option.decidableForallMem executionPrice
  inferInstanceAs (Decidable (_ ∧ _ ∧ _ ∧ _ ∧ _))

/-- The message is answered by one trade, of these shares with this order. -/
def TradesExactly (adapter : ItchEngineAdapter) (message : ItchMessage) (target : Order)
    (executedShares : UInt32) : Prop :=
  ∃ call trade, adapter.callFor message = some call ∧
    (callRegistry adapter.registry call).1 = .trades [trade] ∧
    trade.restingOrderId = target.id ∧ trade.quantity = executedShares.toUInt64

/-- The message asks for something the engine owes: an add on a registered locate, or an
execution of the first order of a side. -/
def Asks (adapter : ItchEngineAdapter) : ItchMessage → Prop
  | .addOrder message => (adapter.symbolForLocate message.stockLocate).isSome
  | .addOrderMpid message => (adapter.symbolForLocate message.base.stockLocate).isSome
  | .orderExecuted message => ∃ target, adapter.TargetsFirst message.stockLocate
      message.orderReferenceNumber message.executedShares none target
  | .orderExecutedWithPrice message => ∃ target, adapter.TargetsFirst message.base.stockLocate
      message.base.orderReferenceNumber message.base.executedShares (some message.executionPrice)
      target
  | _ => False

/-- The target of an execution heads one of the two sides. -/
theorem exists_targetsFirst_iff (adapter : ItchEngineAdapter) (locate : StockLocate)
    (ref : OrderRefNumber) (executedShares : UInt32) (executionPrice : Option UInt32) :
    (∃ target, adapter.TargetsFirst locate ref executedShares executionPrice target) ↔
      ∃ side ∈ [Side.buy, Side.sell], ∃ target ∈ adapter.firstOrder locate side,
        adapter.TargetsFirst locate ref executedShares executionPrice target := by
  constructor
  · rintro ⟨target, targets⟩
    refine ⟨target.side, ?_, target, targets.1, targets⟩
    cases target.side <;> simp
  · rintro ⟨side, _, target, _, targets⟩
    exact ⟨target, targets⟩

instance (adapter : ItchEngineAdapter) (locate : StockLocate) (ref : OrderRefNumber)
    (executedShares : UInt32) (executionPrice : Option UInt32) :
    Decidable (∃ target,
      adapter.TargetsFirst locate ref executedShares executionPrice target) :=
  have (side : Side) : Decidable (∃ target ∈ adapter.firstOrder locate side,
      adapter.TargetsFirst locate ref executedShares executionPrice target) :=
    inferInstanceAs (Decidable (∃ target ∈ adapter.firstOrder locate side, _))
  decidable_of_iff _ (adapter.exists_targetsFirst_iff locate ref executedShares executionPrice).symm

instance decidableAsks (adapter : ItchEngineAdapter) :
    (message : ItchMessage) → Decidable (adapter.Asks message)
  | .addOrder message =>
    inferInstanceAs (Decidable ((adapter.symbolForLocate message.stockLocate).isSome = true))
  | .addOrderMpid message =>
    inferInstanceAs (Decidable ((adapter.symbolForLocate message.base.stockLocate).isSome = true))
  | .orderExecuted message =>
    inferInstanceAs (Decidable (∃ target, adapter.TargetsFirst message.stockLocate
      message.orderReferenceNumber message.executedShares none target))
  | .orderExecutedWithPrice message =>
    inferInstanceAs (Decidable (∃ target, adapter.TargetsFirst message.base.stockLocate
      message.base.orderReferenceNumber message.base.executedShares (some message.executionPrice)
      target))
  | .systemEvent _ => .isFalse id
  | .stockDirectory _ => .isFalse id
  | .orderCancel _ => .isFalse id
  | .orderDelete _ => .isFalse id
  | .orderReplace _ => .isFalse id
  | .timestampSeconds _ => .isFalse id

/-- The engine does what the message asks for. -/
def Serves (adapter : ItchEngineAdapter) (message : ItchMessage) : Prop :=
  match message with
  | .orderExecuted execution => ∀ target, adapter.TargetsFirst execution.stockLocate
      execution.orderReferenceNumber execution.executedShares none target →
      adapter.TradesExactly message target execution.executedShares
  | .orderExecutedWithPrice execution => ∀ target,
      adapter.TargetsFirst execution.base.stockLocate execution.base.orderReferenceNumber
        execution.base.executedShares (some execution.executionPrice) target →
      adapter.TradesExactly message target execution.base.executedShares
  | _ => (adapter.apply message).1 = true

end ItchEngineAdapter

namespace Ledger

/-- A new order with a quantity and a price is valid exactly when its id is not known. -/
theorem valid_iff_unknown {order : Order} {known : IdSet} (positive : order.quantity ≠ 0)
    (priced : order.price ≠ 0) : validateNewOrder order known = .none ↔ order.id ∉ known := by
  by_cases listed : order.id ∈ known <;> simp [validateNewOrder, positive, priced, listed]

/-- A plain limit is added exactly when its id is not known. -/
theorem added_iff_unknown (ledger : Ledger) {order : Order} (plain : order.isMarketOrIoc = false)
    (positive : order.quantity ≠ 0) (priced : order.price ≠ 0) :
    (callLedger ledger (.addOrder order)).1.accept.accepted = true ↔ order.id ∉ ledger.known := by
  rw [← valid_iff_unknown positive priced]
  cases valid : validateNewOrder order ledger.known <;>
    simp [callLedger, addOrder, plain, valid, AcceptResult.ok, AcceptResult.reject]

/-- A limit is matched exactly when its id is not known. -/
theorem matched_iff_unknown (ledger : Ledger) {order : Order} (positive : order.quantity ≠ 0)
    (priced : order.price ≠ 0) :
    (callLedger ledger (.matchOrder order)).1.accept.accepted = true ↔
      order.id ∉ ledger.known := by
  rw [← valid_iff_unknown positive priced]
  cases valid : validateNewOrder order ledger.known <;>
    simp [callLedger, matchOrder, valid, AcceptResult.ok, AcceptResult.reject]

/-- Whether it is accepted or known before, the id of an entry is known afterwards. -/
theorem mem_known_entered (ledger : Ledger) {call : ManagerCall} {entered : OrderId}
    (enters : call.entry = some entered)
    (decides : (callLedger ledger call).1.accept.accepted = true ↔ entered ∉ ledger.known)
    (id : OrderId) :
    id ∈ (callLedger ledger call).2.known ↔ id = entered ∨ id ∈ ledger.known := by
  rw [(ledger.step_of_call call).mem_known, enters, decides, Option.some.injEq]
  constructor
  · rintro (old | ⟨same, _⟩)
    · exact .inr old
    · exact .inl same.symm
  · rintro (same | old)
    · by_cases known : entered ∈ ledger.known
      · exact .inl (same ▸ known)
      · exact .inr ⟨same.symm, known⟩
    · exact .inl old

/-- A call that enters nothing makes no id known. -/
theorem mem_known_unentered (ledger : Ledger) {call : ManagerCall} (enters : call.entry = none)
    (id : OrderId) : id ∈ (callLedger ledger call).2.known ↔ id ∈ ledger.known := by
  rw [(ledger.step_of_call call).mem_known, enters]
  simp

end Ledger

/-- The log tells what the instruments know. -/
structure Logged (registrations : List (StockLocate × Symbol)) (log : IdLog)
    (adapter : ItchEngineAdapter) (market : Market) : Prop where
  /-- The engine keeps the market. -/
  mirrors : adapter.registry.Mirrors market
  /-- Only quotes rest. -/
  quoted : market.Quoted
  /-- The synthetic ids are counted alike. -/
  next : adapter.nextSyntheticId = log.next
  /-- The log knows the registered locates. -/
  locates : ∀ locate : StockLocate, locate ∈ log.locates ↔ (adapter.symbols[locate]?).isSome
  /-- The ids an instrument knows are those entered for its locate. -/
  known : ∀ (locate : StockLocate) symbol, adapter.symbols[locate]? = some symbol →
    ∃ listing, market.listings symbol = some listing ∧
      ∀ id, id ∈ listing.ledger.known ↔ (locate, id) ∈ log.used
  /-- Ids are entered for registered locates. -/
  inside : ∀ entry ∈ log.used, entry.1 ∈ log.locates
  /-- Every listed symbol belongs to a locate. -/
  owned : ∀ symbol listing, market.listings symbol = some listing →
    ∃ locate : StockLocate, adapter.symbols[locate]? = some symbol
  /-- A symbol belongs to one locate. -/
  single : ∀ (left right : StockLocate) symbol, adapter.symbols[left]? = some symbol →
    adapter.symbols[right]? = some symbol → left = right
  /-- What is registered was. -/
  registered : ∀ (locate : StockLocate) symbol, adapter.symbols[locate]? = some symbol →
    (locate, symbol) ∈ registrations

namespace Logged

variable {registrations : List (StockLocate × Symbol)} {log : IdLog}
  {adapter : ItchEngineAdapter} {market : Market}

/-- Nothing was entered yet. -/
theorem empty (registrations : List (StockLocate × Symbol)) {registry : InstrumentRegistry}
    (mirrors : registry.Mirrors Market.empty) :
    Logged registrations IdLog.init (ItchEngineAdapter.init registry) Market.empty where
  mirrors := mirrors
  quoted symbol listing listed := nomatch listed
  next := rfl
  locates locate := by simp [IdLog.init, ItchEngineAdapter.init]
  known locate symbol registered := by simp [ItchEngineAdapter.init] at registered
  inside := by simp [IdLog.init]
  owned symbol listing listed := nomatch listed
  single left right symbol registered := by simp [ItchEngineAdapter.init] at registered
  registered locate symbol registered := by simp [ItchEngineAdapter.init] at registered

/-- A request for the symbol of a locate, and what it enters. -/
theorem request (logged : Logged registrations log adapter market) {locate : StockLocate}
    {symbol : Symbol} {listing : Listing} (registered : adapter.symbols[locate]? = some symbol)
    (listed : market.listings symbol = some listing) (call : ManagerCall)
    {moved : ItchEngineAdapter} (symbols : moved.symbols = adapter.symbols)
    (mirrors : moved.registry.Mirrors (market.call symbol call).2) {later : IdLog}
    (next : moved.nextSyntheticId = later.next) (locates : later.locates = log.locates)
    (entered : List OrderId)
    (used : later.used = entered.map (fun id => (locate, id)) ++ log.used)
    (known : ∀ id, id ∈ (callLedger listing.ledger call).2.known ↔
      id ∈ entered ∨ id ∈ listing.ledger.known) :
    Logged registrations later moved (market.call symbol call).2 := by
  have listings := (Market.call_listed listed call).2
  constructor
  · exact mirrors
  · exact logged.mirrors.quoted_call logged.quoted symbol call
  · exact next
  · rw [locates, symbols]
    exact logged.locates
  · intro other name named
    rw [symbols] at named
    obtain ⟨old, present, same⟩ := logged.known other name named
    rw [listings]
    by_cases own : other = locate
    · subst own
      rw [registered, Option.some.injEq] at named
      subst named
      rw [listed, Option.some.injEq] at present
      subst present
      refine ⟨_, Function.update_self _ _ _, ?_⟩
      intro id
      rw [known, same, used]
      simp
    · have apart : name ≠ symbol := by
        intro equal
        subst equal
        exact own (logged.single other locate name named registered)
      rw [Function.update_of_ne apart]
      refine ⟨old, present, ?_⟩
      intro id
      rw [same, used]
      simp [Ne.symm own]
  · intro entry member
    rw [locates]
    rw [used, List.mem_append, List.mem_map] at member
    rcases member with ⟨id, _, rfl⟩ | old
    · exact (logged.locates locate).mpr (by rw [registered]; rfl)
    · exact logged.inside entry old
  · intro name entry present
    rw [symbols]
    by_cases same : name = symbol
    · exact ⟨locate, same ▸ registered⟩
    · rw [listings, Function.update_of_ne same] at present
      exact logged.owned name entry present
  · rw [symbols]
    exact logged.single
  · rw [symbols]
    exact logged.registered

/-- A locate is registered under its own symbol. -/
theorem register (logged : Logged registrations log adapter market) {locate : StockLocate}
    {symbol : Symbol}
    (same : ∀ earlier ∈ registrations, earlier.1 = locate ↔ earlier.2 = symbol) :
    Logged (registrations ++ [(locate, symbol)]) { log with locates := locate :: log.locates }
      { adapter with
        registry := adapter.registry.createInstrument symbol
        symbols := adapter.symbols.insert locate symbol } (market.list symbol) := by
  have symbols : ∀ (place : StockLocate) name,
      (adapter.symbols.insert locate symbol)[place]? = some name →
        (place = locate ∧ name = symbol) ∨
          (place ≠ locate ∧ name ≠ symbol ∧ adapter.symbols[place]? = some name) := by
    intro place name present
    rw [ExtTreeMap.getElem?_insert] at present
    by_cases own : locate = place
    · rw [if_pos (by simpa using own), Option.some.injEq] at present
      exact .inl ⟨own.symm, present.symm⟩
    · rw [if_neg (by simpa using own)] at present
      have apart := same _ (logged.registered place name present)
      exact .inr ⟨Ne.symm own, fun equal => own (apart.mpr equal).symm, present⟩
  have others : ∀ name, name ≠ symbol →
      (market.list symbol).listings name = market.listings name := by
    intro name apart
    cases present : market.listings symbol with
    | some listing => rw [Market.list_listed present]
    | none => rw [Market.listings_list present, Function.update_of_ne apart]
  -- the symbol is listed exactly when the locate was registered before
  have own : ∃ listing, (market.list symbol).listings symbol = some listing ∧
      ∀ id, id ∈ listing.ledger.known ↔ (locate, id) ∈ log.used := by
    cases present : market.listings symbol with
    | some listing =>
      obtain ⟨place, registered⟩ := logged.owned symbol listing present
      have here := (same _ (logged.registered place symbol registered)).mpr rfl
      subst here
      rw [Market.list_listed present]
      exact logged.known place symbol registered
    | none =>
      rw [Market.listings_list present, Function.update_self]
      refine ⟨_, rfl, fun id => ?_⟩
      have unregistered : locate ∉ log.locates := by
        rw [logged.locates, Option.isSome_iff_exists]
        rintro ⟨name, registered⟩
        have named : name = symbol := (same _ (logged.registered locate name registered)).mp rfl
        obtain ⟨listing, listed, _⟩ := logged.known locate name registered
        rw [named, present] at listed
        nomatch listed
      have unused : (locate, id) ∉ log.used := fun used => unregistered (logged.inside _ used)
      simp [Ledger.empty, unused]
  constructor
  · exact logged.mirrors.createInstrument symbol
  · exact logged.quoted.list symbol
  · exact logged.next
  · intro place
    show place ∈ locate :: log.locates ↔
      ((adapter.symbols.insert locate symbol)[place]?).isSome = true
    rw [List.mem_cons, logged.locates, ExtTreeMap.getElem?_insert]
    by_cases here : place = locate
    · simp [here]
    · rw [if_neg (by simpa using Ne.symm here)]
      simp [here]
  · intro place name present
    rcases symbols place name present with ⟨rfl, rfl⟩ | ⟨_, apart, old⟩
    · exact own
    · rw [others name apart]
      exact logged.known place name old
  · intro entry member
    exact List.mem_cons_of_mem _ (logged.inside entry member)
  · intro name listing present
    by_cases named : name = symbol
    · exact ⟨locate, by rw [named]; exact ExtTreeMap.getElem?_insert_self⟩
    · rw [others name named] at present
      obtain ⟨place, registered⟩ := logged.owned name listing present
      have apart : ¬ locate = place := by
        intro here
        exact named ((same _ (logged.registered place name registered)).mp here.symm)
      refine ⟨place, ?_⟩
      rw [ExtTreeMap.getElem?_insert, if_neg (by simpa using apart)]
      exact registered
  · intro left right name onLeft onRight
    rcases symbols left name onLeft with ⟨rfl, rfl⟩ | ⟨_, apartLeft, oldLeft⟩ <;>
      rcases symbols right _ onRight with ⟨atRight, named⟩ | ⟨_, apartRight, oldRight⟩
    · exact atRight.symm
    · exact absurd rfl apartRight
    · exact absurd named apartLeft
    · exact logged.single left right _ oldLeft oldRight
  · intro place name present
    rcases symbols place name present with ⟨rfl, rfl⟩ | ⟨_, _, old⟩
    · exact List.mem_append_right _ List.mem_cons_self
    · exact List.mem_append_left _ (logged.registered place name old)

/-- The order that heads a side of the engine, with the record of its reference. -/
structure Heads (adapter : ItchEngineAdapter) (market : Market) (locate : StockLocate)
    (ref : OrderRefNumber) (side : Side) (symbol : Symbol) (listing : Listing)
    (target record : Order) : Prop where
  /-- The locate has the symbol. -/
  registered : adapter.symbols[locate]? = some symbol
  /-- The symbol is listed. -/
  listed : market.listings symbol = some listing
  /-- The order heads its side of the ledger. -/
  orders : ∃ rest, listing.ledger.book.side side = target :: rest
  /-- The engine finds its record. -/
  found : adapter.registry.findOrder symbol (adapter.engineIdFor ref) = some record
  /-- The record agrees with it. -/
  agrees : record.Agrees target

/-- A reference that names the first order of a side has it at the head of the ledger. -/
theorem heads (logged : Logged registrations log adapter market) {locate : StockLocate}
    {ref : OrderRefNumber} {side : Side} {target : Order}
    (first : adapter.firstOrder locate side = some target)
    (named : target.id = adapter.engineIdFor ref) :
    ∃ symbol listing record, Heads adapter market locate ref side symbol listing target record := by
  simp only [ItchEngineAdapter.firstOrder, ItchEngineAdapter.instrumentFor, Option.bind_eq_bind,
    Option.bind_eq_some_iff] at first
  obtain ⟨instrument, ⟨symbol, registered, present⟩, first⟩ := first
  obtain ⟨listing, listed, kept⟩ := logged.mirrors.listing present
  have consistent := kept.manager.consistent
  rw [resting_eq kept.manager.tracks.represents consistent.sound side] at first
  obtain ⟨rest, orders⟩ := List.head?_eq_some_iff.mp first
  have member : target ∈ listing.ledger.book.side side := orders ▸ List.mem_cons_self
  obtain ⟨record, recorded, agrees⟩ := consistent.covers side target member
  refine ⟨symbol, listing, record, registered, listed, ⟨rest, orders⟩, ?_, agrees⟩
  rw [logged.mirrors.findOrder, Market.findOrder, listed, ← named]
  exact recorded

/-- The synthetic order made from the head of a side has a quantity and a price. -/
theorem Heads.entry {locate : StockLocate} {ref : OrderRefNumber} {side : Side} {symbol : Symbol}
    {listing : Listing} {target record : Order}
    (heads : Heads adapter market locate ref side symbol listing target record)
    (logged : Logged registrations log adapter market) {executedShares : UInt32}
    {executionPrice : Option UInt32} (some_ : executedShares ≠ 0)
    (priced : ∀ price ∈ executionPrice, price ≠ 0) :
    let taker := ItchEngineAdapter.syntheticOrder adapter.nextSyntheticId record executedShares
      executionPrice
    taker.quantity ≠ 0 ∧ taker.price ≠ 0 := by
  intro taker
  obtain ⟨rest, orders⟩ := heads.orders
  have member : target ∈ listing.ledger.book.side side := orders ▸ List.mem_cons_self
  have consistent := logged.mirrors.consistent heads.listed
  have positive := consistent.sound.positive side target member
  rw [← heads.agrees.quantity] at positive
  have quote := (logged.quoted symbol listing heads.listed side target member).priced
  rw [← heads.agrees.price] at quote
  constructor
  · intro zero
    rcases (ItchEngineAdapter.min_eq_zero_iff _ _).mp zero with none_ | none_
    · exact InParity.toUInt64_ne_zero some_ none_
    · exact positive none_
  · cases executionPrice with
    | none => exact quote
    | some price => exact InParity.toUInt64_ne_zero (priced price rfl)

/-- A cancel, a delete or a replacement enters nothing. -/
theorem amends (logged : Logged registrations log adapter market) {message : ItchMessage}
    (kind : (∃ cancel, message = .orderCancel cancel) ∨ (∃ delete, message = .orderDelete delete) ∨
      ∃ replace, message = .orderReplace replace) :
    ∃ market', Logged registrations log (adapter.apply message).2 market' := by
  -- what any call of the order's own symbol does that enters no id
  have unentered : ∀ (call : RegistryCall) (locate : StockLocate) (symbol : Symbol)
      (request : ManagerCall), adapter.symbols[locate]? = some symbol →
      adapter.callFor message = some call → request.entry = none →
      adapter.nextIdAfter call = adapter.nextSyntheticId →
      (callMarket market call).2 = (market.call symbol request).2 →
      ∃ market', Logged registrations log (adapter.apply message).2 market' := by
    intro call locate symbol request registered makes none_ next asks
    obtain ⟨listing, listed, _⟩ := logged.known locate symbol registered
    rw [adapter.apply_call makes]
    have known : ∀ id, id ∈ (callLedger listing.ledger request).2.known ↔
        id ∈ [] ∨ id ∈ listing.ledger.known := by
      intro id
      rw [Ledger.mem_known_unentered _ none_]
      simp
    refine ⟨_, logged.request registered listed request ?_ ?_ (next.trans logged.next) rfl [] rfl
      known⟩
    · rcases kind with ⟨_, rfl⟩ | ⟨_, rfl⟩ | ⟨_, rfl⟩ <;> rfl
    · rw [← asks]
      exact (logged.mirrors.call call).2
  have continues : message.endsSession = false := by
    rcases kind with ⟨_, rfl⟩ | ⟨_, rfl⟩ | ⟨_, rfl⟩ <;> rfl
  cases makes : adapter.callFor message with
  | none =>
    rw [adapter.apply_idle makes, continues]
    exact ⟨market, logged⟩
  | some call =>
    rcases kind with ⟨message, rfl⟩ | ⟨message, rfl⟩ | ⟨message, rfl⟩
    · obtain ⟨symbol, registered, existing, found, rfl⟩ :=
        ItchEngineAdapter.cancelCall_eq_some_iff.mp makes
      split at makes
      · exact unentered _ _ symbol (.cancelOrder _) registered makes rfl rfl rfl
      · exact unentered _ _ symbol (.cancelReplace _ _) registered makes rfl rfl rfl
    · obtain ⟨symbol, registered, rfl⟩ := ItchEngineAdapter.deleteCall_eq_some_iff.mp makes
      exact unentered _ _ symbol (.cancelOrder _) registered makes rfl rfl rfl
    · obtain ⟨symbol, registered, existing, found, rfl⟩ :=
        ItchEngineAdapter.replaceCall_eq_some_iff.mp makes
      exact unentered _ _ symbol (.cancelReplace _ _) registered makes rfl rfl rfl

/-- An added order enters its reference. -/
theorem adds (logged : Logged registrations log adapter market) {message : AddOrderMessage}
    (shares : message.shares ≠ 0) (price : message.price ≠ 0) :
    ∃ market', Logged registrations
      { log with used := (log.entry (.addOrder message)).toList ++ log.used }
      (adapter.handleAddOrder message).2 market' := by
  cases registered : adapter.symbols[message.stockLocate]? with
  | none =>
    have absent : message.stockLocate ∉ log.locates := by simp [logged.locates, registered]
    simp only [ItchEngineAdapter.handleAddOrder, registered, IdLog.entry, absent, ↓reduceIte,
      Option.toList_none, List.nil_append]
    exact ⟨market, logged⟩
  | some symbol =>
    have present : message.stockLocate ∈ log.locates := by simp [logged.locates, registered]
    obtain ⟨listing, listed, _⟩ := logged.known _ symbol registered
    have positive : message.order.quantity ≠ 0 := InParity.toUInt64_ne_zero shares
    have priced : message.order.price ≠ 0 := InParity.toUInt64_ne_zero price
    have known : ∀ id, id ∈ (callLedger listing.ledger (.addOrder message.order)).2.known ↔
        id = message.orderReferenceNumber ∨ id ∈ listing.ledger.known :=
      Ledger.mem_known_entered _ rfl (listing.ledger.added_iff_unknown rfl positive priced)
    simp only [ItchEngineAdapter.handleAddOrder, registered, IdLog.entry, present, ↓reduceIte]
    refine ⟨_, logged.request registered listed (.addOrder message.order) ?_
      (logged.mirrors.submitOrder symbol message.order).2 logged.next rfl
      [message.orderReferenceNumber] rfl ?_⟩
    · rfl
    · simpa using known

/-- An execution of the first order of a side enters the next synthetic id. -/
theorem executes (logged : Logged registrations log adapter market) {locate : StockLocate}
    {ref : OrderRefNumber} {side : Side} {symbol : Symbol} {listing : Listing}
    {target record : Order}
    (heads : Heads adapter market locate ref side symbol listing target record)
    {executedShares : UInt32} {executionPrice : Option UInt32} (some_ : executedShares ≠ 0)
    (priced : ∀ price ∈ executionPrice, price ≠ 0) :
    ∃ market', Logged registrations
      { log with next := log.next + 1, used := (locate, log.next) :: log.used }
      (adapter.applyExecuted locate ref executedShares executionPrice).2 market' := by
  let taker := ItchEngineAdapter.syntheticOrder adapter.nextSyntheticId record executedShares
    executionPrice
  obtain ⟨positive, price⟩ : taker.quantity ≠ 0 ∧ taker.price ≠ 0 :=
    heads.entry logged some_ priced
  have known : ∀ id, id ∈ (callLedger listing.ledger (.matchOrder taker)).2.known ↔
      id = adapter.nextSyntheticId ∨ id ∈ listing.ledger.known :=
    Ledger.mem_known_entered _ rfl (listing.ledger.matched_iff_unknown positive price)
  simp only [ItchEngineAdapter.applyExecuted, heads.registered, heads.found]
  refine ⟨_, logged.request heads.registered heads.listed (.matchOrder taker) ?_
    (logged.mirrors.matchOrder symbol taker).2 (by rw [logged.next]) rfl [log.next] rfl ?_⟩
  · rfl
  · rw [← logged.next]
    simpa using known

end Logged

namespace Logged

variable {registrations : List (StockLocate × Symbol)} {log : IdLog}
  {adapter : ItchEngineAdapter} {market : Market}

/-- An added order is accepted exactly when its reference was not entered. -/
theorem added_iff (logged : Logged registrations log adapter market) {message : AddOrderMessage}
    (shares : message.shares ≠ 0) (price : message.price ≠ 0)
    (placed : (adapter.symbolForLocate message.stockLocate).isSome) :
    (adapter.handleAddOrder message).1 = true ↔ log.Clear (.addOrder message) := by
  obtain ⟨symbol, registered⟩ := Option.isSome_iff_exists.mp placed
  have present : message.stockLocate ∈ log.locates := (logged.locates _).mpr placed
  obtain ⟨listing, listed, known⟩ := logged.known _ symbol registered
  have positive : message.order.quantity ≠ 0 := InParity.toUInt64_ne_zero shares
  have priced : message.order.price ≠ 0 := InParity.toUInt64_ne_zero price
  have answer := (logged.mirrors.submitOrder symbol message.order).1
  rw [(Market.call_listed listed _).1] at answer
  have accepted : (adapter.handleAddOrder message).1 =
      (callLedger listing.ledger (.addOrder message.order)).1.accept.accepted := by
    rw [← answer]
    simp only [ItchEngineAdapter.handleAddOrder]
    rw [show adapter.symbols[message.stockLocate]? = some symbol from registered]
    rfl
  rw [accepted, listing.ledger.added_iff_unknown rfl positive priced, known]
  simp [IdLog.Clear, IdLog.entry, present, AddOrderMessage.order]

/-- The answer to an execution of the first order of a side: one trade, or none when the next
synthetic id was entered. -/
theorem execution_answer (logged : Logged registrations log adapter market) {locate : StockLocate}
    {ref : OrderRefNumber} {executedShares : UInt32} {executionPrice : Option UInt32}
    {target : Order}
    (targets : adapter.TargetsFirst locate ref executedShares executionPrice target) :
    ∃ call, adapter.executionCall locate ref executedShares executionPrice = some call ∧
      ((locate, log.next) ∈ log.used → (callRegistry adapter.registry call).1 = .trades []) ∧
      ((locate, log.next) ∉ log.used → (callRegistry adapter.registry call).1 =
        .trades [tradeWith log.next target executedShares.toUInt64]) := by
  obtain ⟨first, named, some_, covered, through⟩ := targets
  obtain ⟨symbol, listing, record, heads⟩ := logged.heads first named
  obtain ⟨rest, orders⟩ := heads.orders
  obtain ⟨same, listed, known⟩ := logged.known locate symbol heads.registered
  rw [heads.listed, Option.some.injEq] at listed
  subst listed
  let taker := ItchEngineAdapter.syntheticOrder adapter.nextSyntheticId record executedShares
    executionPrice
  have made : adapter.executionCall locate ref executedShares executionPrice =
      some (.matchOrder symbol taker) := by
    simp [ItchEngineAdapter.executionCall, heads.registered, heads.found, taker]
  have trades := (logged.mirrors.matchOrder symbol taker).1
  rw [(Market.call_listed heads.listed _).1] at trades
  refine ⟨_, made, ?_, ?_⟩
  · intro used
    obtain ⟨positive, price⟩ : taker.quantity ≠ 0 ∧ taker.price ≠ 0 :=
      heads.entry logged some_ (fun price member => (through price member).1)
    have duplicate : taker.id ∈ listing.ledger.known := by
      show adapter.nextSyntheticId ∈ listing.ledger.known
      rw [known, logged.next]
      exact used
    have refused : validateNewOrder taker listing.ledger.known = .duplicateOrderId := by
      simp [validateNewOrder, positive, price, duplicate]
    refine (congrArg RegistryAnswer.trades trades).trans ?_
    simp [callLedger, Ledger.matchOrder, refused]
  · intro unused
    have quote := (logged.quoted symbol listing heads.listed _ target
      (orders ▸ List.mem_cons_self)).priced
    have new : log.next ∉ listing.ledger.known := by
      rw [known]
      exact unused
    have done := (InParity.matchOrder_synthetic (logged.mirrors.consistent heads.listed) orders
      heads.agrees quote new some_ covered through).1
    rw [← logged.next] at done ⊢
    refine (congrArg RegistryAnswer.trades trades).trans ?_
    exact congrArg (fun result => RegistryAnswer.trades (Prod.fst result).trades) done

/-- An execution of the first order of a side is carried out exactly when the next synthetic id
was not entered. -/
theorem executed_iff (logged : Logged registrations log adapter market) {locate : StockLocate}
    {ref : OrderRefNumber} {executedShares : UInt32} {executionPrice : Option UInt32}
    {message : ItchMessage}
    (makes : adapter.callFor message =
      adapter.executionCall locate ref executedShares executionPrice)
    (enters : log.entry message = some (locate, log.next))
    (asks : ∃ target, adapter.TargetsFirst locate ref executedShares executionPrice target) :
    (∀ target, adapter.TargetsFirst locate ref executedShares executionPrice target →
        adapter.TradesExactly message target executedShares) ↔ log.Clear message := by
  have clear : log.Clear message ↔ (locate, log.next) ∉ log.used := by
    simp [IdLog.Clear, enters]
  rw [clear]
  constructor
  · intro serves used
    obtain ⟨target, targets⟩ := asks
    obtain ⟨call, made, refused, _⟩ := logged.execution_answer targets
    obtain ⟨other, trade, same, traded, _⟩ := serves target targets
    rw [makes, made, Option.some.injEq] at same
    subst same
    rw [refused used] at traded
    simp at traded
  · intro unused target targets
    obtain ⟨call, made, _, carried⟩ := logged.execution_answer targets
    exact ⟨call, _, makes.trans made, carried unused, rfl, rfl⟩

end Logged

/-- The id of the first order is that of the first order. -/
theorem ItchEngineAdapter.firstOrder_of_firstResting {adapter : ItchEngineAdapter}
    {locate : StockLocate} {side : Side} {id : OrderId}
    (first : adapter.firstResting locate side = some id) :
    ∃ target, adapter.firstOrder locate side = some target ∧ target.id = id := by
  simp only [firstResting, Option.bind_eq_bind, Option.bind_eq_some_iff, Option.pure_def,
    Option.some.injEq] at first
  obtain ⟨symbol, registered, instrument, found, target, head, named⟩ := first
  refine ⟨target, ?_, named⟩
  simp only [firstOrder, instrumentFor, registered, Option.bind_some, found, Option.bind_eq_bind]
  exact head

namespace Session

/-- The log after a message. -/
theorem idLog_step (session : Session) (message : ItchMessage) :
    (session.step message).2.idLog = session.idLog.extend message := by
  simp [idLog, step, List.foldl_append]

/-- The log of a session tells what its instruments know. -/
def Tells (session : Session) : Prop :=
  ∃ market, Logged session.registrations session.idLog session.adapter market

/-- A message that is well formed but for its reference keeps the log telling. -/
theorem Tells.step {session : Session} (tells : session.Tells) {message : ItchMessage}
    (wellFormed : session.WellFormedOnce message) : (session.step message).2.Tells := by
  obtain ⟨market, logged⟩ := tells
  have registrations : (session.step message).2.registrations =
      session.registrations ++ message.registration.toList :=
    congrArg History.registrations (session.history_step message)
  unfold Tells
  rw [idLog_step, registrations]
  show ∃ market, Logged _ _ (session.adapter.apply message).2 market
  cases message with
  | stockDirectory message => exact ⟨_, logged.register wellFormed⟩
  | systemEvent message =>
    rw [session.adapter.apply_idle rfl, IdLog.extend]
    show ∃ market, Logged (session.registrations ++ []) _ _ market
    rw [List.append_nil]
    split
    · exact ⟨_, Logged.empty _ (InstrumentRegistry.Mirrors.reset session.adapter.registry)⟩
    · exact ⟨market, logged⟩
  | timestampSeconds message =>
    show ∃ market, Logged (session.registrations ++ []) _ _ market
    rw [List.append_nil]
    exact ⟨market, logged⟩
  | addOrder message =>
    obtain ⟨_, ⟨_, shares, price⟩, _⟩ := wellFormed
    show ∃ market, Logged (session.registrations ++ []) _ _ market
    rw [List.append_nil]
    exact logged.adds shares price
  | addOrderMpid message =>
    obtain ⟨_, ⟨_, shares, price⟩, _⟩ := wellFormed
    show ∃ market, Logged (session.registrations ++ []) _ _ market
    rw [List.append_nil]
    exact logged.adds shares price
  | orderExecuted message =>
    obtain ⟨order, live, some_, _, first, through⟩ := wellFormed
    obtain ⟨target, heading, named⟩ := ItchEngineAdapter.firstOrder_of_firstResting first
    obtain ⟨symbol, listing, record, heads⟩ := logged.heads heading named
    show ∃ market, Logged (session.registrations ++ []) _ _ market
    rw [List.append_nil]
    exact logged.executes heads some_ (fun price member => (through price member).1)
  | orderExecutedWithPrice message =>
    obtain ⟨order, live, some_, _, first, through⟩ := wellFormed
    obtain ⟨target, heading, named⟩ := ItchEngineAdapter.firstOrder_of_firstResting first
    obtain ⟨symbol, listing, record, heads⟩ := logged.heads heading named
    show ∃ market, Logged (session.registrations ++ []) _ _ market
    rw [List.append_nil]
    exact logged.executes heads some_ (fun price member => (through price member).1)
  | orderCancel message =>
    show ∃ market, Logged (session.registrations ++ []) _ _ market
    rw [List.append_nil]
    exact logged.amends (.inl ⟨message, rfl⟩)
  | orderDelete message =>
    show ∃ market, Logged (session.registrations ++ []) _ _ market
    rw [List.append_nil]
    exact logged.amends (.inr (.inl ⟨message, rfl⟩))
  | orderReplace message =>
    show ∃ market, Logged (session.registrations ++ []) _ _ market
    rw [List.append_nil]
    exact logged.amends (.inr (.inr ⟨message, rfl⟩))

/-- What a session asks for is done exactly when the id it enters is new. -/
theorem Tells.serves_iff {session : Session} (tells : session.Tells) {message : ItchMessage}
    (wellFormed : session.WellFormedOnce message) (asks : session.adapter.Asks message) :
    session.adapter.Serves message ↔ session.idLog.Clear message := by
  obtain ⟨market, logged⟩ := tells
  cases message with
  | addOrder message =>
    obtain ⟨_, ⟨_, shares, price⟩, _⟩ := wellFormed
    exact logged.added_iff shares price asks
  | addOrderMpid message =>
    obtain ⟨_, ⟨_, shares, price⟩, _⟩ := wellFormed
    exact logged.added_iff shares price asks
  | orderExecuted message => exact logged.executed_iff rfl rfl asks
  | orderExecutedWithPrice message => exact logged.executed_iff rfl rfl asks
  | _ => nomatch asks

/-- In a session that is well formed but for the size of its references, the engine does all that
is asked of it exactly when no message that asks for something enters an id twice. -/
theorem served_iff_ids_clear (allocator : SlabAllocator) (backend : MatcherBackend)
    (messages : List ItchMessage)
    (wellFormed : Admissible WellFormedOnce step (init allocator backend) messages) :
    Admissible (fun session message => session.adapter.Asks message →
        session.adapter.Serves message) step (init allocator backend) messages ↔
      Admissible (fun session message => session.adapter.Asks message →
        session.idLog.Clear message) step (init allocator backend) messages := by
  have start : (init allocator backend).Tells :=
    ⟨_, Logged.empty _ (InstrumentRegistry.mirrors_init allocator backend)⟩
  refine admissible_congr Tells ?_ ?_ start wellFormed
  · exact fun session message tells admitted => tells.step admitted
  · exact fun session message tells admitted =>
      forall_congr' (fun asks => tells.serves_iff admitted asks)

/-- A bid of locate 1 under a reference. -/
def bid (ref : OrderRefNumber) : ItchMessage :=
  .addOrder { (default : AddOrderMessage) with
    stockLocate := 1, orderReferenceNumber := ref, buySellIndicator := 0x42, shares := 10,
    price := 100 }

/-- The execution of four shares of it. -/
def executionOf (ref : OrderRefNumber) : ItchMessage :=
  .orderExecuted { (default : OrderExecutedMessage) with
    stockLocate := 1, orderReferenceNumber := ref, executedShares := 4 }

/-- The registration of locate 1. -/
def directory : ItchMessage := listingOf 1 65

/-- References far above the synthetic ids are served like small ones. -/
theorem served_iff_ids_clear_large :
    let messages := [directory, bid 18446744073709551615, executionOf 18446744073709551615,
      bid 2000000000]
    Admissible WellFormedOnce step (init (.consecutive 2 (by decide)) .optimized) messages ∧
      Admissible (fun session message => session.adapter.Asks message →
        session.adapter.Serves message) step (init (.consecutive 2 (by decide)) .optimized)
        messages := by
  intro messages
  have wellFormed : Admissible WellFormedOnce step (init (.consecutive 2 (by decide)) .optimized)
      messages := by decide
  refine ⟨wellFormed, ?_⟩
  exact (served_iff_ids_clear (.consecutive 2 (by decide)) .optimized messages wellFormed).mpr
    (by decide)

/-- The synthetic id of an execution was the reference of an add, and the reference of an add was
the synthetic id of an execution: the one is not carried out and the other is refused. -/
theorem reference_meets_synthetic_id :
    let start := init (.consecutive 2 (by decide)) .reference
    let executed := [directory, bid 1000000000, executionOf 1000000000]
    let added := [directory, bid 5, executionOf 5, bid 1000000000]
    (Admissible WellFormedOnce step start executed ∧
      (run step start executed).1 = [true, true, false] ∧
      ((run step start executed).2.builder.snapshot 1 1).1.map BookSnapshot.bids =
        some [⟨100, 6⟩] ∧
      ((run step start executed).2.adapter.snapshot 1 1).1.bids = [⟨100, 10⟩]) ∧
    Admissible WellFormedOnce step start added ∧
      (run step start added).1 = [true, true, true, false] ∧
      ¬ Admissible (fun session message => session.adapter.Asks message →
        session.adapter.Serves message) step start added := by
  intro start executed added
  refine ⟨⟨by decide, by decide, by decide, by decide⟩, by decide, by decide, ?_⟩
  intro served
  have accepted : ((run step start (added.take 3)).2.adapter.apply (bid 1000000000)).1 = true :=
    served.2.2.2.1 (by decide)
  exact absurd accepted (by decide)

end Session

end Titan
