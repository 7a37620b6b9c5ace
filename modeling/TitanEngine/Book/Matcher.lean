import TitanEngine.Core.Types

/-!
# The matcher contract

`IMatcher` of `titan/book/i_matcher.hpp`: the operations the exchange layer calls. `addOrder`
and `cancelOrder` return nothing in the source, so here they return the next state alone.
`RestingLevels` is the introspection the tests and the invariant checks use: the orders that
rest on each side, by price, each queue from its front.
-/

namespace Titan

/-- `IMatcher`. -/
class IMatcher (M : Type) where
  /-- Crosses first, rests the remainder. -/
  addOrder : M → Order → M
  /-- No effect on an id that is not resting. -/
  cancelOrder : M → OrderId → M
  /-- As `addOrder`, returning the trades. -/
  matchOrder : M → Order → List Trade × M
  /-- Highest bid price; the empty-side value depends on the matcher. -/
  bestBid : M → Price
  /-- Lowest ask price; the empty-side value depends on the matcher. -/
  bestAsk : M → Price
  /-- Top bid levels, best first. -/
  bidDepth : M → Nat → List PriceLevel
  /-- Top ask levels, best first. -/
  askDepth : M → Nat → List PriceLevel

/-- The orders a matcher holds, for inspection. -/
class RestingLevels (M : Type) where
  /-- The FIFO queue of each price of a side. -/
  restingLevels : M → Side → PriceMap (List Order)

export RestingLevels (restingLevels)

/-- A call of the matcher contract. -/
inductive MatcherCall where
  | addOrder (order : Order)
  | matchOrder (order : Order)
  | cancelOrder (id : OrderId)
  deriving DecidableEq, Repr

/-- What the crossing loop of a matcher changes: the book, the incoming order and the trades. -/
structure CrossState (M : Type) where
  /-- The book. -/
  matcher : M
  /-- The incoming order, with what is left of it. -/
  incoming : Order
  /-- `trades`. -/
  trades : List Trade

section

variable {M : Type} [RestingLevels M]

/-- The FIFO queue at one price of a side, empty where there is no level. -/
def queueAt (matcher : M) (side : Side) (price : Price) : List Order :=
  (restingLevels matcher side)[price]?.getD []

/-- All orders resting on a side, best price first and each queue from its front. -/
def resting (matcher : M) (side : Side) : List Order :=
  (bestFirst side (restingLevels matcher side)).flatMap Prod.snd

/-- An order with this id rests in the book. -/
def IsResting (matcher : M) (id : OrderId) : Prop :=
  ∃ side, ∃ order ∈ resting matcher side, order.id = id

instance (matcher : M) (id : OrderId) : Decidable (IsResting matcher id) :=
  decidable_of_iff (∃ order ∈ resting matcher .buy ++ resting matcher .sell, order.id = id) <| by
    simp only [List.mem_append, IsResting]
    constructor
    · rintro ⟨order, member | member, equal⟩
      · exact ⟨.buy, order, member, equal⟩
      · exact ⟨.sell, order, member, equal⟩
    · rintro ⟨side, order, member, equal⟩
      cases side with
      | buy => exact ⟨order, .inl member, equal⟩
      | sell => exact ⟨order, .inr member, equal⟩

end

end Titan
