import TitanEngine.Book.OptimizedRefinement
import TitanEngine.Book.ReferenceRefinement

/-!
# Choosing a matcher

`MatcherBackend` and `makeMatcher` of `src/exchange/instrument_registry.cpp`: an instrument is
matched by either of the two matchers behind the common contract. `Recorded` puts a tape under
a matcher: every call it receives, with the trades it executed. `addOrder` crosses as
`matchOrder` does and drops the trades; the tape keeps them, so that what is said about every
executed trade covers both.
-/

namespace Titan

open Library

/-- `MatcherBackend`. -/
inductive MatcherBackend where
  | reference
  | optimized
  deriving DecidableEq, Repr, Inhabited

/-- `std::unique_ptr<IMatcher>`: one of the two matchers. -/
inductive Matcher where
  | reference (matcher : ReferenceMatcher)
  | optimized (matcher : OptimizedMatcher)

/-- `makeMatcher`; the allocator gives the addresses of the optimized matcher's pool. -/
def makeMatcher (allocator : SlabAllocator) : MatcherBackend → Matcher
  | .reference => .reference ReferenceMatcher.init
  | .optimized => .optimized (OptimizedMatcher.init allocator)

namespace Matcher

instance : IMatcher Matcher where
  addOrder
    | .reference matcher, order => .reference (IMatcher.addOrder matcher order)
    | .optimized matcher, order => .optimized (IMatcher.addOrder matcher order)
  cancelOrder
    | .reference matcher, id => .reference (IMatcher.cancelOrder matcher id)
    | .optimized matcher, id => .optimized (IMatcher.cancelOrder matcher id)
  matchOrder
    | .reference matcher, order =>
      let (trades, next) := IMatcher.matchOrder matcher order
      (trades, .reference next)
    | .optimized matcher, order =>
      let (trades, next) := IMatcher.matchOrder matcher order
      (trades, .optimized next)
  bestBid
    | .reference matcher => IMatcher.bestBid matcher
    | .optimized matcher => IMatcher.bestBid matcher
  bestAsk
    | .reference matcher => IMatcher.bestAsk matcher
    | .optimized matcher => IMatcher.bestAsk matcher
  bidDepth
    | .reference matcher => IMatcher.bidDepth matcher
    | .optimized matcher => IMatcher.bidDepth matcher
  askDepth
    | .reference matcher => IMatcher.askDepth matcher
    | .optimized matcher => IMatcher.askDepth matcher

instance : RestingLevels Matcher where
  restingLevels
    | .reference matcher => restingLevels matcher
    | .optimized matcher => restingLevels matcher

/-- The matcher in use holds the book. -/
def Holds : Matcher → Book → Prop
  | .reference matcher, book => matcher.Holds book
  | .optimized matcher, book => matcher.Holds book

instance : LawfulMatcher Matcher where
  Represents := Holds
  groups {matcher _} holds := by
    cases matcher with
    | reference matcher => exact LawfulMatcher.groups (M := ReferenceMatcher) holds
    | optimized matcher => exact LawfulMatcher.groups (M := OptimizedMatcher) holds
  addOrder_spec {matcher _} order holds sound fresh := by
    cases matcher with
    | reference matcher =>
      exact LawfulMatcher.addOrder_spec (M := ReferenceMatcher) order holds sound fresh
    | optimized matcher =>
      exact LawfulMatcher.addOrder_spec (M := OptimizedMatcher) order holds sound fresh
  matchOrder_spec {matcher _} order holds sound fresh := by
    cases matcher with
    | reference matcher =>
      exact LawfulMatcher.matchOrder_spec (M := ReferenceMatcher) order holds sound fresh
    | optimized matcher =>
      exact LawfulMatcher.matchOrder_spec (M := OptimizedMatcher) order holds sound fresh
  cancelOrder_spec {matcher _} id holds sound := by
    cases matcher with
    | reference matcher =>
      exact LawfulMatcher.cancelOrder_spec (M := ReferenceMatcher) id holds sound
    | optimized matcher =>
      exact LawfulMatcher.cancelOrder_spec (M := OptimizedMatcher) id holds sound
  bestBid_spec {matcher _} holds sound := by
    cases matcher with
    | reference matcher => exact LawfulMatcher.bestBid_spec (M := ReferenceMatcher) holds sound
    | optimized matcher => exact LawfulMatcher.bestBid_spec (M := OptimizedMatcher) holds sound
  bestAsk_spec {matcher _} holds sound := by
    cases matcher with
    | reference matcher => exact LawfulMatcher.bestAsk_spec (M := ReferenceMatcher) holds sound
    | optimized matcher => exact LawfulMatcher.bestAsk_spec (M := OptimizedMatcher) holds sound
  bidDepth_spec {matcher _} holds sound := by
    cases matcher with
    | reference matcher => exact LawfulMatcher.bidDepth_spec (M := ReferenceMatcher) holds sound
    | optimized matcher => exact LawfulMatcher.bidDepth_spec (M := OptimizedMatcher) holds sound
  askDepth_spec {matcher _} holds sound := by
    cases matcher with
    | reference matcher => exact LawfulMatcher.askDepth_spec (M := ReferenceMatcher) holds sound
    | optimized matcher => exact LawfulMatcher.askDepth_spec (M := OptimizedMatcher) holds sound

/-- A new matcher of either kind holds the empty book. -/
theorem holds_makeMatcher (allocator : SlabAllocator) (backend : MatcherBackend) :
    Represents (makeMatcher allocator backend) Book.empty := by
  cases backend with
  | reference => exact ReferenceMatcher.holds_init
  | optimized => exact OptimizedMatcher.holds_init allocator

end Matcher

/-- A matcher with a tape of the calls it received. -/
structure Recorded (M : Type) where
  /-- The matcher. -/
  matcher : M
  /-- Every call with the trades it executed, oldest first. -/
  tape : List (MatcherCall × List Trade)

namespace Recorded

variable {M : Type}

/-- A matcher with an empty tape. -/
def start (matcher : M) : Recorded M := { matcher := matcher, tape := [] }

/-- Every trade executed so far. -/
def executed (recorded : Recorded M) : List Trade := recorded.tape.flatMap Prod.snd

instance [IMatcher M] : IMatcher (Recorded M) where
  addOrder recorded order :=
    { matcher := IMatcher.addOrder recorded.matcher order
      tape := recorded.tape ++
        [(.addOrder order, (IMatcher.matchOrder recorded.matcher order).1)] }
  cancelOrder recorded id :=
    { matcher := IMatcher.cancelOrder recorded.matcher id
      tape := recorded.tape ++ [(.cancelOrder id, [])] }
  matchOrder recorded order :=
    let (trades, next) := IMatcher.matchOrder recorded.matcher order
    (trades, { matcher := next, tape := recorded.tape ++ [(.matchOrder order, trades)] })
  bestBid recorded := IMatcher.bestBid recorded.matcher
  bestAsk recorded := IMatcher.bestAsk recorded.matcher
  bidDepth recorded := IMatcher.bidDepth recorded.matcher
  askDepth recorded := IMatcher.askDepth recorded.matcher

instance [RestingLevels M] : RestingLevels (Recorded M) where
  restingLevels recorded := restingLevels recorded.matcher

instance [LawfulMatcher M] : LawfulMatcher (Recorded M) where
  Represents recorded book := Represents recorded.matcher book
  groups represents := LawfulMatcher.groups (M := M) represents
  addOrder_spec order represents sound fresh :=
    LawfulMatcher.addOrder_spec (M := M) order represents sound fresh
  matchOrder_spec order represents sound fresh :=
    LawfulMatcher.matchOrder_spec (M := M) order represents sound fresh
  cancelOrder_spec id represents sound :=
    LawfulMatcher.cancelOrder_spec (M := M) id represents sound
  bestBid_spec represents sound := LawfulMatcher.bestBid_spec (M := M) represents sound
  bestAsk_spec represents sound := LawfulMatcher.bestAsk_spec (M := M) represents sound
  bidDepth_spec represents sound := LawfulMatcher.bidDepth_spec (M := M) represents sound
  askDepth_spec represents sound := LawfulMatcher.askDepth_spec (M := M) represents sound

end Recorded

end Titan
