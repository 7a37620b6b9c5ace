import TitanEngine.Book.OptimizedRefinement
import TitanEngine.Book.ReferenceRefinement
import TitanEngine.Library.Machine

/-!
# Parity of the two matchers

Calls of the matcher contract are issued identically to two matchers, and what each of them
shows after every call is compared: the trades of `matchOrder`, both best prices and the depth
of both sides for every number of levels. Matchers that represent one book cannot be told
apart, so the reference and the optimized matcher agree along every run whose entered ids are
not resting when they are entered.
-/

namespace Titan

open Library

/-- What the queries of a matcher return, and the trades where the last call returned some. -/
structure MatcherView where
  /-- Returned by `matchOrder`. -/
  trades : Option (List Trade)
  /-- `bestBid()`. -/
  bestBid : Price
  /-- `bestAsk()`. -/
  bestAsk : Price
  /-- `bidDepth(n)` for every `n`. -/
  bidDepth : Nat → List PriceLevel
  /-- `askDepth(n)` for every `n`. -/
  askDepth : Nat → List PriceLevel

section

variable {M : Type}

/-- What a matcher shows after a call that returned the given trades. -/
def observe [IMatcher M] (trades : Option (List Trade)) (matcher : M) : MatcherView where
  trades := trades
  bestBid := IMatcher.bestBid matcher
  bestAsk := IMatcher.bestAsk matcher
  bidDepth := IMatcher.bidDepth matcher
  askDepth := IMatcher.askDepth matcher

/-- Issue one call and observe. -/
def callMatcher [IMatcher M] (matcher : M) (call : MatcherCall) : MatcherView × M :=
  match call with
  | .addOrder order =>
    let next := IMatcher.addOrder matcher order
    (observe none next, next)
  | .matchOrder order =>
    let (trades, next) := IMatcher.matchOrder matcher order
    (observe (some trades) next, next)
  | .cancelOrder id =>
    let next := IMatcher.cancelOrder matcher id
    (observe none next, next)

/-- The id of an entered order is not resting. -/
def EntersNewId [RestingLevels M] (matcher : M) : MatcherCall → Prop
  | .addOrder order => ¬ IsResting matcher order.id
  | .matchOrder order => ¬ IsResting matcher order.id
  | .cancelOrder _ => True

instance [RestingLevels M] (matcher : M) (call : MatcherCall) :
    Decidable (EntersNewId matcher call) :=
  match call with
  | .addOrder _ => inferInstanceAs (Decidable (¬ _))
  | .matchOrder _ => inferInstanceAs (Decidable (¬ _))
  | .cancelOrder _ => .isTrue trivial

end

section Lawful

variable {M N : Type} [LawfulMatcher M] [LawfulMatcher N]

/-- Two matchers hold the same sound book. -/
def SameBook (left : M) (right : N) : Prop :=
  ∃ book : Book, book.Sound ∧ Represents left book ∧ Represents right book

/-- What a matcher shows is what its book shows. -/
theorem observe_eq {matcher : M} {book : Book} (represents : Represents matcher book)
    (sound : book.Sound) (trades : Option (List Trade)) :
    observe trades matcher =
      { trades := trades
        bestBid := book.bestBid
        bestAsk := book.bestAsk
        bidDepth := book.depth .buy
        askDepth := book.depth .sell } := by
  have bids : IMatcher.bidDepth matcher = book.depth .buy :=
    funext (LawfulMatcher.bidDepth_spec represents sound)
  have asks : IMatcher.askDepth matcher = book.depth .sell :=
    funext (LawfulMatcher.askDepth_spec represents sound)
  rw [observe, LawfulMatcher.bestBid_spec represents sound,
    LawfulMatcher.bestAsk_spec represents sound, bids, asks]

/-- Matchers with the same book show the same. -/
theorem SameBook.observe_eq {left : M} {right : N} (same : SameBook left right)
    (trades : Option (List Trade)) : observe trades left = observe trades right := by
  obtain ⟨book, sound, first, second⟩ := same
  rw [Titan.observe_eq first sound, Titan.observe_eq second sound]

/-- An id that is not resting is fresh to the book. -/
theorem fresh_of_not_resting {matcher : M} {book : Book} (represents : Represents matcher book)
    (sound : book.Sound) {id : OrderId} (unused : ¬ IsResting matcher id) : book.Fresh id := by
  rw [isResting_iff represents sound, not_not] at unused
  exact unused

/-- Adding an id that is not resting keeps the books the same. -/
theorem SameBook.addOrder {left : M} {right : N} (same : SameBook left right) {order : Order}
    (unused : ¬ IsResting left order.id) :
    SameBook (IMatcher.addOrder left order) (IMatcher.addOrder right order) := by
  obtain ⟨book, sound, first, second⟩ := same
  have fresh := fresh_of_not_resting first sound unused
  exact ⟨(book.submit order).2, sound.submit fresh,
    LawfulMatcher.addOrder_spec order first sound fresh,
    LawfulMatcher.addOrder_spec order second sound fresh⟩

/-- Entering an id that is not resting keeps the books the same and gives the same trades. -/
theorem SameBook.matchOrder {left : M} {right : N} (same : SameBook left right) {order : Order}
    (unused : ¬ IsResting left order.id) :
    (IMatcher.matchOrder left order).1 = (IMatcher.matchOrder right order).1 ∧
      SameBook (IMatcher.matchOrder left order).2 (IMatcher.matchOrder right order).2 := by
  obtain ⟨book, sound, first, second⟩ := same
  have fresh := fresh_of_not_resting first sound unused
  obtain ⟨tradesLeft, after⟩ := LawfulMatcher.matchOrder_spec order first sound fresh
  obtain ⟨tradesRight, alsoAfter⟩ := LawfulMatcher.matchOrder_spec order second sound fresh
  refine ⟨tradesLeft.trans tradesRight.symm, (book.submit order).2, ?_, after, alsoAfter⟩
  exact sound.submit fresh

/-- One call keeps the books the same and shows the same. -/
theorem SameBook.callMatcher {left : M} {right : N} (same : SameBook left right)
    {call : MatcherCall} (enters : EntersNewId left call) :
    (callMatcher left call).1 = (callMatcher right call).1 ∧
      SameBook (callMatcher left call).2 (callMatcher right call).2 := by
  cases call with
  | addOrder order =>
    have after := same.addOrder enters
    exact ⟨after.observe_eq none, after⟩
  | matchOrder order =>
    obtain ⟨trades, after⟩ := same.matchOrder enters
    refine ⟨?_, after⟩
    calc observe (some (IMatcher.matchOrder left order).1) (IMatcher.matchOrder left order).2
      _ = observe (some (IMatcher.matchOrder left order).1) (IMatcher.matchOrder right order).2 :=
        after.observe_eq _
      _ = observe (some (IMatcher.matchOrder right order).1)
          (IMatcher.matchOrder right order).2 := by
        rw [trades]
  | cancelOrder id =>
    obtain ⟨book, sound, first, second⟩ := same
    have after : SameBook (IMatcher.cancelOrder left id) (IMatcher.cancelOrder right id) :=
      ⟨book.cancel id, sound.cancel id, LawfulMatcher.cancelOrder_spec id first sound,
        LawfulMatcher.cancelOrder_spec id second sound⟩
    exact ⟨after.observe_eq none, after⟩

end Lawful

/-- Along every run from empty books that enters no id that is resting, the two matchers show
the same after every call. -/
theorem optimized_shows_reference (allocator : SlabAllocator) (calls : List MatcherCall)
    (enters : Admissible EntersNewId callMatcher ReferenceMatcher.init calls) :
    (run callMatcher (OptimizedMatcher.init allocator) calls).1 =
      (run callMatcher ReferenceMatcher.init calls).1 := by
  have start : SameBook ReferenceMatcher.init (OptimizedMatcher.init allocator) :=
    ⟨Book.empty, Book.sound_empty, ReferenceMatcher.holds_init,
      OptimizedMatcher.holds_init allocator⟩
  have kept : ∀ (left : ReferenceMatcher) (right : OptimizedMatcher) (call : MatcherCall),
      SameBook left right → EntersNewId left call →
      (callMatcher left call).1 = (callMatcher right call).1 ∧
        SameBook (callMatcher left call).2 (callMatcher right call).2 :=
    fun _ _ _ same fresh => same.callMatcher fresh
  exact (run_simulation SameBook kept start enters).1.symm

/-- A run with a partial fill, a cancelled id that is entered again, and an unknown id. -/
theorem optimized_shows_reference_reused_id :
    let calls : List MatcherCall :=
      [.matchOrder { id := 1, side := .sell, price := 10, quantity := 5 },
        .addOrder { id := 2, side := .buy, price := 11, quantity := 3 },
        .cancelOrder 1, .cancelOrder 7,
        .matchOrder { id := 1, side := .buy, price := 9, quantity := 0 }]
    (run callMatcher (OptimizedMatcher.init (.consecutive 2 (by decide))) calls).1 =
      (run callMatcher ReferenceMatcher.init calls).1 :=
  optimized_shows_reference _ _ (by decide)

end Titan
