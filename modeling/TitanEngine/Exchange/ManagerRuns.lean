import Mathlib.Data.List.TakeWhile
import TitanEngine.Book.Backend
import TitanEngine.Exchange.Amending
import TitanEngine.Library.Machine

/-!
# Runs of the order manager

Along every run of calls a manager over either matcher does what its ledger does. From this
follow the invariant that ties the bookkeeping to the matcher in both directions, and the
meaning of `matchOrder`: one greedy fill of the orders within reach, cut at the first one of the
same account.
-/

namespace Titan

open Library Std

/-- Issue one call to a ledger. -/
def callLedger (ledger : Ledger) (call : ManagerCall) : MatchResult × Ledger :=
  match call with
  | .addOrder order =>
    let (accept, next) := ledger.addOrder order
    ({ trades := [], accept := accept }, next)
  | .matchOrder order => ledger.matchOrder order
  | .cancelOrder id =>
    let (accept, next) := ledger.cancelOrder id
    ({ trades := [], accept := accept }, next)
  | .cancelReplace oldId newOrder =>
    let (accept, next) := ledger.cancelReplace oldId newOrder
    ({ trades := [], accept := accept }, next)

namespace OrderManager

section Lawful

variable {M : Type} [LawfulMatcher M] {manager : OrderManager M} {ledger : Ledger}

/-- `matchOrder` does what the ledger does. -/
theorem Mirrors.matchOrder (mirrors : manager.Mirrors ledger) (order : Order) :
    (manager.matchOrder order).1 = (ledger.matchOrder order).1 ∧
      (manager.matchOrder order).2.Mirrors (ledger.matchOrder order).2 := by
  cases reason : validateNewOrder order ledger.known with
  | none =>
    have entered := mirrors.enter reason
    unfold Ledger.matchOrder
    rw [reason]
    exact entered
  | _ =>
    unfold OrderManager.matchOrder Ledger.matchOrder
    rw [mirrors.known, reason]
    exact ⟨rfl, mirrors⟩

/-- `addOrder` does what the ledger does. -/
theorem Mirrors.addOrder (mirrors : manager.Mirrors ledger) (order : Order) :
    (manager.addOrder order).1 = (ledger.addOrder order).1 ∧
      (manager.addOrder order).2.Mirrors (ledger.addOrder order).2 := by
  unfold OrderManager.addOrder Ledger.addOrder
  cases refused : order.isMarketOrIoc with
  | true => exact ⟨rfl, mirrors⟩
  | false =>
    cases reason : validateNewOrder order ledger.known with
    | none =>
      have entered := mirrors.enter reason
      simp only [mirrors.known, reason, Bool.false_eq_true, ↓reduceIte]
      exact ⟨trivial, entered.2⟩
    | _ =>
      simp only [mirrors.known, reason, Bool.false_eq_true, ↓reduceIte]
      exact ⟨trivial, mirrors⟩

/-- One call does what the ledger does. -/
theorem Mirrors.call (mirrors : manager.Mirrors ledger) (call : ManagerCall) :
    (callManager manager call).1 = (callLedger ledger call).1 ∧
      (callManager manager call).2.Mirrors (callLedger ledger call).2 := by
  cases call with
  | addOrder order =>
    have step := mirrors.addOrder order
    refine ⟨?_, step.2⟩
    simp only [callManager, callLedger, step.1]
  | matchOrder order => exact mirrors.matchOrder order
  | cancelOrder id =>
    have step := mirrors.cancelOrder id
    refine ⟨?_, step.2⟩
    simp only [callManager, callLedger, step.1]
  | cancelReplace oldId newOrder =>
    have step := mirrors.cancelReplace oldId newOrder
    refine ⟨?_, step.2⟩
    simp only [callManager, callLedger, step.1]

/-- A run of calls does what the ledger does. -/
theorem Mirrors.run (mirrors : manager.Mirrors ledger) (calls : List ManagerCall) :
    (Library.run callManager manager calls).1 = (Library.run callLedger ledger calls).1 ∧
      (Library.run callManager manager calls).2.Mirrors
        (Library.run callLedger ledger calls).2 := by
  have kept : ∀ (left : OrderManager M) (right : Ledger) (call : ManagerCall),
      left.Mirrors right → True → (callManager left call).1 = (callLedger right call).1 ∧
        (callManager left call).2.Mirrors (callLedger right call).2 :=
    fun _ _ call held _ => held.call call
  exact run_simulation Mirrors kept mirrors (admissible_true callManager manager calls)

/-- A run from a matcher that holds nothing keeps the ledger of the same run. -/
theorem mirrors_run {matcher : M} (represents : Represents matcher Book.empty)
    (calls : List ManagerCall) :
    (Library.run callManager (init matcher) calls).2.Mirrors
      (Library.run callLedger Ledger.empty calls).2 :=
  ((mirrors_init represents).run calls).2

end Lawful

/-- The bookkeeping and the matcher agree in both directions. -/
structure InStep {M : Type} [RestingLevels M] (manager : OrderManager M) : Prop where
  /-- Each shadow queue holds the ids of the matcher's queue in their order, and there are no
  other levels on either side. -/
  queues : ∀ (side : Side) (price : Price), (manager.shadow side)[price]? =
    (restingLevels manager.matcher side)[price]?.map (List.map Order.id)
  /-- No shadow level is empty. -/
  nonempty : ∀ (side : Side) (price : Price) (ids : List OrderId),
    (manager.shadow side)[price]? = some ids → ids ≠ []
  /-- The active ids are those that rest in the matcher. -/
  active : ∀ id, id ∈ manager.activeOrderIds ↔ IsResting manager.matcher id
  /-- The record of whatever rests has its side, price, account and remaining quantity. -/
  recorded : ∀ side, ∀ order ∈ resting manager.matcher side,
    order.side = side ∧ order.quantity ≠ 0 ∧
      ∃ record, manager.orders[order.id]? = some record ∧ record.side = order.side ∧
        record.price = order.price ∧ record.accountId = order.accountId ∧
        record.quantity = order.quantity

/-- A manager that keeps a ledger is in step with its matcher. -/
theorem Mirrors.inStep {M : Type} [LawfulMatcher M] {manager : OrderManager M} {ledger : Ledger}
    (mirrors : manager.Mirrors ledger) : manager.InStep := by
  have represents := mirrors.tracks.represents
  have sound := mirrors.consistent.sound
  have shadows := mirrors.tracks.shadows
  constructor
  · intro side price
    rw [LawfulMatcher.groups represents side price, shadows side price, occupied_map,
      Option.map_id]
    rfl
  · intro side price ids stored
    rw [shadows side price] at stored
    exact (occupied_eq_some_iff.mp stored).2
  · intro id
    rw [mirrors.tracks.active, isResting_iff represents sound]
  · intro side order member
    rw [resting_eq represents sound] at member
    obtain ⟨record, found, agrees⟩ := mirrors.tracks.covers side order member
    exact ⟨sound.sided side order member, sound.positive side order member, record, found,
      agrees.side, agrees.price, agrees.accountId, agrees.quantity⟩

/-- After every run of calls with any arguments, over either matcher, the bookkeeping mirrors the
matcher. -/
theorem bookkeeping_mirrors_matcher (allocator : SlabAllocator) (backend : MatcherBackend)
    (calls : List ManagerCall) :
    (run callManager (init (makeMatcher allocator backend)) calls).2.InStep :=
  (mirrors_run (Matcher.holds_makeMatcher allocator backend) calls).inStep

end OrderManager

end Titan
