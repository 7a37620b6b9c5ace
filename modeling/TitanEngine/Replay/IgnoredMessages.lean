import TitanEngine.Replay.AdapterCalls
import TitanEngine.Replay.LateMessages

/-!
# Messages that are ignored

A message that the adapter answers with false makes a call that changes no book, or no call at
all, and it leaves the symbols and the volume alone. The references are another matter: an add maps
its own before the engine has decided, so a refused add takes a reference away from the order that
a replacement had given it.
-/

namespace Titan

open Library Std

namespace InstrumentRegistry

/-- The orders that rest on a side of an instrument, the first to trade in front. -/
def restingOf (registry : InstrumentRegistry) (symbol : Symbol) (side : Side) : List Order :=
  match registry.find symbol with
  | none => []
  | some instrument => resting instrument.manager.matcher side

/-- Both have the same bids and asks of every instrument, level by level to every depth and order
by order. -/
structure ShowsSame (left right : InstrumentRegistry) : Prop where
  /-- The same bid levels. -/
  bids : ∀ symbol depth,
    (left.snapshot symbol depth).1.bids = (right.snapshot symbol depth).1.bids
  /-- The same ask levels. -/
  asks : ∀ symbol depth,
    (left.snapshot symbol depth).1.asks = (right.snapshot symbol depth).1.asks
  /-- The same orders. -/
  orders : ∀ symbol side, left.restingOf symbol side = right.restingOf symbol side

/-- A registry shows what itself shows. -/
theorem ShowsSame.refl (registry : InstrumentRegistry) : registry.ShowsSame registry where
  bids _ _ := rfl
  asks _ _ := rfl
  orders _ _ := rfl

/-- The orders that rest are those of the book. -/
theorem Mirrors.restingOf {registry : InstrumentRegistry} {market : Market}
    (mirrors : registry.Mirrors market) (symbol : Symbol) (side : Side) :
    registry.restingOf symbol side =
      ((market.bookOf symbol).map (fun book => book.side side)).getD [] := by
  unfold InstrumentRegistry.restingOf Market.bookOf
  cases found : registry.find symbol with
  | none =>
    rw [mirrors.unlisted found]
    rfl
  | some instrument =>
    obtain ⟨listing, listed, kept⟩ := mirrors.listing found
    rw [listed]
    exact resting_eq kept.manager.tracks.represents kept.manager.consistent.sound side

/-- Registries whose books are the same show the same. -/
theorem Mirrors.showsSame {left right : InstrumentRegistry} {market next : Market}
    (leftMirrors : left.Mirrors next) (rightMirrors : right.Mirrors market)
    (books : ∀ symbol, next.bookOf symbol = market.bookOf symbol) : left.ShowsSame right where
  bids symbol depth := by
    rw [(leftMirrors.snapshot symbol depth).1, (rightMirrors.snapshot symbol depth).1,
      (next.levels_snapshot symbol depth).1, (market.levels_snapshot symbol depth).1,
      books symbol]
  asks symbol depth := by
    rw [(leftMirrors.snapshot symbol depth).1, (rightMirrors.snapshot symbol depth).1,
      (next.levels_snapshot symbol depth).2, (market.levels_snapshot symbol depth).2,
      books symbol]
  orders symbol side := by
    rw [leftMirrors.restingOf, rightMirrors.restingOf, books symbol]

end InstrumentRegistry

namespace ItchEngineAdapter

/-- A message that is answered with false changes no book, no symbol, no volume and no id that a
reference resolves to. -/
def Intact (adapter : ItchEngineAdapter) (message : ItchMessage) : Prop :=
  let after := (adapter.apply message).2
  (adapter.apply message).1 = false →
    after.registry.ShowsSame adapter.registry ∧ after.symbols = adapter.symbols ∧
      after.tradeVolume = adapter.tradeVolume ∧
      ∀ ref, after.engineIdFor ref = adapter.engineIdFor ref

/-- The engine takes an add: the locate has an instrument, shares and price are not zero, and no
order came under the reference before. -/
def Takes (adapter : ItchEngineAdapter) (message : AddOrderMessage) : Prop :=
  (adapter.instrumentFor message.stockLocate).isSome ∧ message.shares ≠ 0 ∧ message.price ≠ 0 ∧
    ¬ adapter.Knows message.stockLocate message.orderReferenceNumber

/-- An add whose reference stands for an order of another id is taken, or its locate is not
registered. -/
def AddKeepsReference (adapter : ItchEngineAdapter) (message : AddOrderMessage) : Prop :=
  adapter.engineIdFor message.orderReferenceNumber ≠ message.orderReferenceNumber →
    adapter.symbols[message.stockLocate]? = none ∨ adapter.Takes message

/-- No add is refused under a reference that stands for an order of another id. -/
def KeepsReferences (adapter : ItchEngineAdapter) : ItchMessage → Prop
  | .addOrder message => adapter.AddKeepsReference message
  | .addOrderMpid message => adapter.AddKeepsReference message.base
  | _ => True

/-- The adapter only matches immediate-or-cancel limits without an account. -/
theorem synthetic_callFor {adapter : ItchEngineAdapter} {message : ItchMessage} {symbol : Symbol}
    {order : Order} (makes : adapter.callFor message = some (.matchOrder symbol order)) :
    order.type = .limit ∧ order.tif = .ioc ∧ order.accountId = 0 := by
  cases message with
  | orderCancel message =>
    obtain ⟨name, _, existing, _, other⟩ := cancelCall_eq_some_iff.mp makes
    split at other
    · cases other
    · cases other
  | orderExecuted message =>
    obtain ⟨name, _, existing, _, same⟩ := executionCall_eq_some_iff.mp makes
    obtain ⟨rfl, rfl⟩ := RegistryCall.matchOrder.inj same
    exact ⟨rfl, rfl, rfl⟩
  | orderExecutedWithPrice message =>
    obtain ⟨name, _, existing, _, same⟩ := executionCall_eq_some_iff.mp makes
    obtain ⟨rfl, rfl⟩ := RegistryCall.matchOrder.inj same
    exact ⟨rfl, rfl, rfl⟩
  | _ => simp [callFor, addCall, deleteCall, replaceCall, Option.bind_eq_some_iff] at makes

/-- A refused call changes no book. -/
theorem books_refused {market : Market} {symbol : Symbol} {request : ManagerCall}
    (refused : (market.call symbol request).1.accept.accepted = false) (name : Symbol) :
    (market.call symbol request).2.bookOf name = market.bookOf name := by
  refine Market.bookOf_call ?_ name
  intro listing listed
  rw [(Market.call_listed listed request).1] at refused
  rw [Ledger.callLedger_refused refused]

/-- A call that did not do what it was for executed nothing and changes no book. -/
theorem showsSame_of_failed {adapter : ItchEngineAdapter} {market : Market}
    (mirrors : adapter.registry.Mirrors market) {message : ItchMessage} {call : RegistryCall}
    (makes : adapter.callFor message = some call)
    (failed : (callRegistry adapter.registry call).1.succeeded = false) :
    (callRegistry adapter.registry call).1.tradesOf = [] ∧
      (callRegistry adapter.registry call).2.ShowsSame adapter.registry := by
  have engine := mirrors.call call
  cases call with
  | createInstrument symbol => nomatch failed
  | snapshot symbol depth => nomatch failed
  | submitOrder symbol order =>
    rw [engine.1] at failed
    have refused : (market.call symbol (.addOrder order)).1.accept.accepted = false := failed
    exact ⟨rfl, engine.2.showsSame mirrors (books_refused refused)⟩
  | cancelOrder symbol id =>
    rw [engine.1] at failed
    have refused : (market.call symbol (.cancelOrder id)).1.accept.accepted = false := failed
    exact ⟨rfl, engine.2.showsSame mirrors (books_refused refused)⟩
  | cancelReplace symbol oldId newOrder =>
    rw [engine.1] at failed
    have refused : (market.call symbol (.cancelReplace oldId newOrder)).1.accept.accepted = false :=
      failed
    exact ⟨rfl, engine.2.showsSame mirrors (books_refused refused)⟩
  | matchOrder symbol order =>
    obtain ⟨limit, immediate, nobody⟩ := synthetic_callFor makes
    rw [engine.1] at failed ⊢
    have untraded : (market.call symbol (.matchOrder order)).1.trades = [] := by
      simpa [callMarket, RegistryAnswer.succeeded] using failed
    refine ⟨untraded, engine.2.showsSame mirrors ?_⟩
    refine Market.bookOf_call ?_
    intro listing listed
    rw [(Market.call_listed listed _).1] at untraded
    exact Ledger.matchOrder_untraded limit immediate (mirrors.consistent listed).sound nobody
      untraded

/-- A message that makes no call is intact. -/
theorem intact_of_idle {adapter : ItchEngineAdapter} {message : ItchMessage}
    (idle : adapter.callFor message = none) : adapter.Intact message := by
  have applied := adapter.apply_idle_eq idle
  intro refused
  rw [applied] at refused
  have goesOn : message.endsSession = false := by
    cases message with
    | systemEvent message => nomatch refused
    | _ => rfl
  have same : (adapter.apply message).2 = adapter := by
    rw [goesOn] at applied
    exact congrArg Prod.snd applied
  rw [same]
  exact ⟨.refl _, rfl, rfl, fun _ => rfl⟩

/-- Only a registration changes the symbols, and it is never refused. -/
theorem symbolsAfter_of_failed {adapter : ItchEngineAdapter} {message : ItchMessage}
    {call : RegistryCall} (makes : adapter.callFor message = some call)
    (failed : (callRegistry adapter.registry call).1.succeeded = false) :
    adapter.symbolsAfter message = adapter.symbols := by
  cases message with
  | stockDirectory message =>
    obtain rfl := Option.some.inj makes
    nomatch failed
  | _ => rfl

/-- A message that makes a call is intact exactly when the references are, should the call fail. -/
theorem intact_call_iff {adapter : ItchEngineAdapter} {market : Market}
    (mirrors : adapter.registry.Mirrors market) {message : ItchMessage} {call : RegistryCall}
    (makes : adapter.callFor message = some call) :
    adapter.Intact message ↔
      ((callRegistry adapter.registry call).1.succeeded = false →
        ∀ ref, (adapter.idsAfter message false).getD ref ref = adapter.engineIdFor ref) := by
  have applied := adapter.apply_call makes
  unfold Intact
  simp only [applied, called]
  constructor
  · intro intact failed ref
    have ids := (intact failed).2.2.2 ref
    rw [failed] at ids
    exact ids
  · intro ids failed
    obtain ⟨untraded, shows⟩ := showsSame_of_failed mirrors makes failed
    refine ⟨shows, symbolsAfter_of_failed makes failed, ?_, ?_⟩
    · rw [untraded, List.foldl_nil]
    · intro ref
      rw [failed]
      exact ids failed ref

/-- A message that maps no reference unless its call succeeds is intact. -/
theorem intact_of_ids {adapter : ItchEngineAdapter} {market : Market}
    (mirrors : adapter.registry.Mirrors market) {message : ItchMessage}
    (same : adapter.idsAfter message false = adapter.engineIdForRef) :
    adapter.Intact message := by
  cases makes : adapter.callFor message with
  | none => exact intact_of_idle makes
  | some call =>
    rw [intact_call_iff mirrors makes, same]
    exact fun _ _ => rfl

/-- The engine accepts an add exactly when it takes it. -/
theorem succeeded_add_iff {adapter : ItchEngineAdapter} {market : Market}
    (mirrors : adapter.registry.Mirrors market) {message : AddOrderMessage} {symbol : Symbol}
    (registered : adapter.symbols[message.stockLocate]? = some symbol) :
    (callRegistry adapter.registry (.submitOrder symbol message.order)).1.succeeded = true ↔
      adapter.Takes message := by
  have engine := (mirrors.call (.submitOrder symbol message.order)).1
  rw [engine]
  show (market.call symbol (.addOrder message.order)).1.accept.accepted = true ↔ _
  cases listed : market.listings symbol with
  | none =>
    have absent := instrumentFor_unlisted mirrors registered listed
    rw [refused_unlisted listed, Takes, absent]
    simp
  | some listing =>
    obtain ⟨instrument, found, _⟩ := instrumentFor_listed mirrors registered listed
    rw [(Market.call_listed listed _).1, Takes, found, knows_iff mirrors registered listed]
    show (listing.ledger.addOrder message.order).1.accepted = true ↔ _
    rw [Ledger.addOrder_accepted_iff rfl rfl]
    simp [AddOrderMessage.order, toUInt64_eq_zero_iff]

/-- An add, in whatever message it comes, is intact exactly when it keeps its reference. -/
theorem intact_add_iff {adapter : ItchEngineAdapter} {market : Market}
    (mirrors : adapter.registry.Mirrors market) {message : AddOrderMessage} {whole : ItchMessage}
    (calls : adapter.callFor whole = adapter.addCall message)
    (ids : ∀ succeeded, adapter.idsAfter whole succeeded = adapter.engineIdForRef.insert
      message.orderReferenceNumber message.orderReferenceNumber) :
    adapter.Intact whole ↔ adapter.AddKeepsReference message := by
  cases registered : adapter.symbols[message.stockLocate]? with
  | none =>
    have idle : adapter.callFor whole = none := by rw [calls, addCall, registered]; rfl
    exact iff_of_true (intact_of_idle idle) (fun _ => .inl registered)
  | some symbol =>
    have makes : adapter.callFor whole = some (.submitOrder symbol message.order) := by
      rw [calls, addCall, registered]
      rfl
    have taken := succeeded_add_iff mirrors registered
    rw [intact_call_iff mirrors makes, ids]
    constructor
    · intro kept moved
      refine .inr (taken.mp ?_)
      by_contra failed
      have same := kept (Bool.not_eq_true _ ▸ failed) message.orderReferenceNumber
      rw [ExtTreeMap.getD_insert_self] at same
      exact moved same.symm
    · intro keeps failed ref
      by_cases own : message.orderReferenceNumber = ref
      · subst own
        rw [ExtTreeMap.getD_insert_self]
        by_contra moved
        rcases keeps (Ne.symm moved) with unregistered | takes
        · rw [registered] at unregistered
          cases unregistered
        · exact Bool.false_ne_true (failed.symm.trans (taken.mpr takes))
      · rw [ExtTreeMap.getD_insert, if_neg (by simpa using own)]
        rfl

/-- A message is intact exactly when it is not a refused add under a reference that stands for an
order of another id. -/
theorem intact_iff {adapter : ItchEngineAdapter} (quotes : adapter.registry.Quotes)
    (message : ItchMessage) : adapter.Intact message ↔ adapter.KeepsReferences message := by
  obtain ⟨market, mirrors, _⟩ := quotes
  cases message with
  | addOrder message => exact intact_add_iff mirrors rfl (fun _ => rfl)
  | addOrderMpid message => exact intact_add_iff mirrors rfl (fun _ => rfl)
  | _ => exact iff_of_true (intact_of_ids mirrors rfl) trivial

end ItchEngineAdapter

namespace Session

/-- After any session, at the next message and over the whole run, messages that are answered with
false leave the adapter intact exactly when no add is refused under a reference that stands for an
order of another id. -/
theorem ignored_intact_iff (allocator : SlabAllocator) (backend : MatcherBackend)
    (messages : List ItchMessage) :
    (∀ message, (after allocator backend messages).adapter.Intact message ↔
      (after allocator backend messages).adapter.KeepsReferences message) ∧
    (Admissible (fun session message => session.adapter.Intact message) step
        (init allocator backend) messages ↔
      Admissible (fun session message => session.adapter.KeepsReferences message) step
        (init allocator backend) messages) :=
  quoted_congr (fun quotes message => ItchEngineAdapter.intact_iff quotes message) allocator
    backend messages

/-- A bid is replaced under reference 7, and an add without shares takes the reference away: a
delete that was accepted before it is ignored after it. -/
theorem refused_add_takes_reference :
    let allocator := SlabAllocator.consecutive 2 (by decide)
    let session := after allocator .reference (twoBids ++
      [.orderReplace { (default : OrderReplaceMessage) with
        stockLocate := 1, originalOrderReferenceNumber := 5, newOrderReferenceNumber := 7,
        shares := 3, price := 99 }])
    let add := ItchMessage.addOrder { (default : AddOrderMessage) with
      stockLocate := 1, orderReferenceNumber := 7, buySellIndicator := 0x42, shares := 0,
      price := 98 }
    let deletion := ItchMessage.orderDelete { (default : OrderDeleteMessage) with
      stockLocate := 1, orderReferenceNumber := 7 }
    (session.adapter.apply add).1 = false ∧
      session.adapter.engineIdFor 7 = 5 ∧ (session.adapter.apply add).2.engineIdFor 7 = 7 ∧
      (session.adapter.apply deletion).1 = true ∧
      ((session.adapter.apply add).2.apply deletion).1 = false ∧
      ¬ session.adapter.Intact add := by
  intro allocator session add deletion
  have refused : (session.adapter.apply add).1 = false := by decide +kernel
  have before : session.adapter.engineIdFor 7 = 5 := by decide +kernel
  have moved : (session.adapter.apply add).2.engineIdFor 7 = 7 := by decide +kernel
  refine ⟨refused, before, moved, by decide +kernel, by decide +kernel, ?_⟩
  intro intact
  have same := (intact refused).2.2.2 7
  rw [moved, before] at same
  exact absurd same (by decide)

end Session

end Titan
