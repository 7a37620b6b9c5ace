import TitanEngine.Book.Invariants
import TitanEngine.Spec.Sweeps

/-!
# Price-time priority

What `matchOrder` of the reference matcher means, said of lists alone. The orders that an
incoming order crosses are listed best price first and first in first out within a price; its
trades are the greedy fill of that list. The other side loses exactly what was traded and the
own side gains the remainder at the back of its level.
-/

namespace Titan

open Library

/-- The orders of the other side that an incoming order crosses, in trading order. -/
def crossing {M : Type} [RestingLevels M] (matcher : M) (order : Order) : List Order :=
  (resting matcher order.side.opposite).filter
    (fun maker => crosses order.side order.price maker.price)

namespace Book

variable {book : Book}

/-- The sweep of a submitted order fills from the orders it crosses. -/
theorem Sound.sweep_eq_fill (sound : book.Sound) (order : Order) :
    let makers := book.side order.side.opposite
    let filled := fill order.id order.quantity
      (makers.filter (fun maker => crosses order.side order.price maker.price))
    let swept := sweep order.id (beyondLimit order) order.quantity makers
    swept.trades = filled.trades ∧ swept.left = filled.left := by
  intro makers filled swept
  have taken : makers.takeWhile (fun maker => !beyondLimit order maker) =
      makers.filter (fun maker => crosses order.side order.price maker.price) := by
    rw [sound.filter_crosses]
    simp only [beyondLimit, Bool.not_not, makers]
  constructor
  · change (fill order.id order.quantity (makers.takeWhile _)).trades = _
    rw [taken]
  · change (fill order.id order.quantity (makers.takeWhile _)).left = _
    rw [taken]

/-- The other side after a submission is what the trades leave of it. -/
theorem Sound.side_opposite_submit (sound : book.Sound) (order : Order) :
    (book.submit order).2.side order.side.opposite =
      (book.side order.side.opposite).filterMap (Order.unfilled (book.submit order).1) := by
  let filled := sweep order.id (beyondLimit order) order.quantity (book.side order.side.opposite)
  have rest : filled.rest =
      (book.side order.side.opposite).filterMap (Order.unfilled filled.trades) :=
    sweep_rest_eq_filterMap (sound.positive _) (sound.distinct _)
  have kept : (book.submit order).2.side order.side.opposite = filled.rest := by
    change (if filled.left = 0 then book.setSide order.side.opposite filled.rest
      else (book.setSide order.side.opposite filled.rest).rest
        { order with quantity := filled.left }).side order.side.opposite = _
    split
    · exact Book.side_setSide_same _ _ _
    · exact (Book.side_opposite_rest (book.setSide order.side.opposite filled.rest)
        { order with quantity := filled.left }).trans (Book.side_setSide_same _ _ _)
  rw [kept, rest]
  rfl

/-- The own side after a submission: the remainder stands last in its level. -/
theorem Sound.group_submit (sound : book.Sound) (order : Order) (price : Price) :
    group (fun other : Order => other.price) ((book.submit order).2.side order.side) price =
      group (fun other : Order => other.price) (book.side order.side) price ++
        let left := (sweep order.id (beyondLimit order) order.quantity
          (book.side order.side.opposite)).left
        if left ≠ 0 ∧ price = order.price then [{ order with quantity := left }] else [] := by
  let filled := sweep order.id (beyondLimit order) order.quantity (book.side order.side.opposite)
  let swept := book.setSide order.side.opposite filled.rest
  have own : swept.side order.side = book.side order.side := Book.side_setSide_opposite _ _ _
  change group _ ((if filled.left = 0 then swept
    else swept.rest { order with quantity := filled.left }).side order.side) price =
    _ ++ if filled.left ≠ 0 ∧ price = order.price then _ else _
  by_cases zero : filled.left = 0
  · simp [zero, own]
  · have arrived : (swept.rest { order with quantity := filled.left }).side order.side =
        Library.arrive (fun other => order.side.rank other.price)
          { order with quantity := filled.left } (book.side order.side) := by
      rw [← own]
      exact Book.side_setSide_same _ _ _
    rw [if_neg zero, arrived, Book.group_arrive (sound.ranked order.side)]
    by_cases here : order.price = price
    · rw [if_pos here, if_pos ⟨zero, here.symm⟩]
    · rw [if_neg here, if_neg (fun both => here both.2.symm), List.append_nil]

end Book

/-- `matchOrder` of the reference matcher, in every reachable state and for every order whose id
is not resting. The loop ends; the trades are the greedy fill of the crossed orders, the `i`-th
of them with the `i`-th crossed order, at its price and for the lesser of what either has left,
and all but the last for the whole of it; together they are the lesser of what was asked for and
what was crossed; the other side is what the trades leave of it, in its old order; the own side
has the positive remainder, if there is one, at the back of its level; and `addOrder` leaves the
same matcher. -/
theorem matchOrder_price_time (calls : List MatcherCall) (order : Order)
    (enters : Admissible EntersNewId callMatcher ReferenceMatcher.init calls)
    (unused : ¬ IsResting (run callMatcher ReferenceMatcher.init calls).2 order.id) :
    let matcher := (run callMatcher ReferenceMatcher.init calls).2
    let crossed := crossing matcher order
    let filled := fill order.id order.quantity crossed
    let trades := (matcher.matchOrder order).1
    let after := (matcher.matchOrder order).2
    Ends ReferenceMatcher.crossPass { matcher := matcher, incoming := order, trades := [] }
        (matcher.cross order) ∧
      trades = filled.trades ∧
      (∀ i trade, trades[i]? = some trade →
        ∃ maker, crossed[i]? = some maker ∧
          trade = tradeWith order.id maker trade.quantity ∧
          trade.quantity.toNat =
            min (order.quantity.toNat - totalTraded (trades.take i)) maker.quantity.toNat ∧
          (i + 1 < trades.length → trade.quantity = maker.quantity)) ∧
      totalTraded trades =
        min order.quantity.toNat (crossed.map (fun maker => maker.quantity.toNat)).sum ∧
      resting after order.side.opposite =
        (resting matcher order.side.opposite).filterMap (Order.unfilled trades) ∧
      filled.left.toNat = order.quantity.toNat - totalTraded trades ∧
      (∀ price, queueAt after order.side price = queueAt matcher order.side price ++
        if filled.left ≠ 0 ∧ price = order.price then [{ order with quantity := filled.left }]
        else []) ∧
      matcher.addOrder order = after := by
  intro matcher crossed filled trades after
  obtain ⟨book, kept⟩ := ReferenceMatcher.kept_run enters
  have holds : matcher.Holds book := kept.holds
  have sound := kept.sound
  have fresh : book.Fresh order.id :=
    fresh_of_not_resting (M := ReferenceMatcher) holds sound unused
  obtain ⟨submitted, heldAfter⟩ : trades = (book.submit order).1 ∧
      after.Holds (book.submit order).2 := holds.matchOrder sound fresh
  have soundAfter := sound.submit fresh
  have before (side : Side) : resting matcher side = book.side side :=
    resting_eq (M := ReferenceMatcher) holds sound side
  have list : crossed = (book.side order.side.opposite).filter
      (fun maker => crosses order.side order.price maker.price) := by
    simp only [crossed, crossing, before]
  obtain ⟨sweptTrades, sweptLeft⟩ := sound.sweep_eq_fill order
  rw [← list] at sweptTrades sweptLeft
  have fills : trades = filled.trades := submitted.trans sweptTrades
  have total : totalTraded trades =
      min order.quantity.toNat (crossed.map (fun maker => maker.quantity.toNat)).sum := by
    rw [fills]
    exact fill_total order.quantity crossed
  refine ⟨?_, fills, ?_, total, ?_, ?_, ?_, rfl⟩
  · exact ReferenceMatcher.crossPass_spec.ends holds sound order _ (Nat.lt_succ_self _)
  · intro i trade at_
    rw [fills] at at_ ⊢
    exact fill_trade_at at_
  · rw [resting_eq (M := ReferenceMatcher) heldAfter soundAfter, before, submitted]
    exact sound.side_opposite_submit order
  · have whole : order.quantity.toNat = filled.left.toNat + totalTraded filled.trades := by
      have swept := @sweep_total order.id (fun _ => false) order.quantity crossed
      rwa [sweep_never] at swept
    rw [fills]
    omega
  · intro price
    rw [queueAt_eq (M := ReferenceMatcher) heldAfter, queueAt_eq (M := ReferenceMatcher) holds,
      sound.group_submit order price, sweptLeft]

/-- An order that takes a whole level and a part of the next, and rests nothing. -/
theorem matchOrder_price_time_two_levels :
    let calls : List MatcherCall :=
      [.matchOrder { id := 1, side := .sell, price := 11, quantity := 5 },
        .addOrder { id := 2, side := .sell, price := 10, quantity := 4 }]
    let order : Order := { id := 3, side := .buy, price := 12, quantity := 6 }
    totalTraded ((run callMatcher ReferenceMatcher.init calls).2.matchOrder order).1 =
      min order.quantity.toNat ((crossing (run callMatcher ReferenceMatcher.init calls).2
        order).map (fun maker => maker.quantity.toNat)).sum :=
  (matchOrder_price_time
    [.matchOrder { id := 1, side := .sell, price := 11, quantity := 5 },
      .addOrder { id := 2, side := .sell, price := 10, quantity := 4 }]
    { id := 3, side := .buy, price := 12, quantity := 6 }
    (by decide +kernel) (by decide +kernel)).2.2.2.1

end Titan
