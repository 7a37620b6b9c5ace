import TitanEngine.Exchange.ManagerRuns
import TitanEngine.Spec.Sweeps

/-!
# What matching means

`matchOrder` never runs one sweep, yet it can be read as one. The orders within reach of an
incoming order are listed best price first; the list is cut at the first order of the same
account, and the quantity is filled greedily from what is left of it. The remainder rests at the
back of its own level exactly when the order may rest and nothing within reach was left over.
-/

namespace Titan

open Library Std

/-- The incoming order and the resting one belong to one account. -/
def Order.ownedBy (maker order : Order) : Bool :=
  decide (order.accountId ≠ 0) && decide (maker.accountId = order.accountId)

/-- The orders of a list that an incoming order can trade with: all of them for a market order,
and otherwise those whose price it crosses. -/
def Order.within (order : Order) (makers : List Order) : List Order :=
  if order.type = .market then makers
  else makers.filter (fun maker => crosses order.side order.price maker.price)

/-- The orders within reach, cut just before the first one of the same account. -/
def Order.reachable (order : Order) (makers : List Order) : List Order :=
  (order.within makers).takeWhile (fun maker => !maker.ownedBy order)

/-- The greedy fill of an order from the orders that rest on the other side. -/
def Order.greedy (order : Order) (makers : List Order) : Fill :=
  fill order.id order.quantity (order.reachable makers)

/-- What of the orders within reach the greedy fill leaves. -/
def Order.leftover (order : Order) (makers : List Order) : List Order :=
  (order.greedy makers).rest ++ (order.within makers).drop (order.reachable makers).length

/-- The remainder of an order rests: it is a good-till-cancelled limit order, something of it is
left, and nothing within its reach is. -/
def Order.restsAfter (order : Order) (makers : List Order) : Bool :=
  decide (order.type = .limit) && decide (order.tif = .gtc) &&
    decide ((order.greedy makers).left ≠ 0) && (order.leftover makers).isEmpty

namespace Book.Sound

variable {book : Book}

/-- A market order crosses every price. -/
theorem crosses_market (order : Order) (market : order.type = .market) (price : Price) :
    crosses order.side order.matchPrice price = true := by
  have bound := price.toNat_lt
  unfold Order.matchPrice
  rw [if_pos market]
  cases order.side with
  | buy =>
    have greatest : maxPrice.toNat = 2 ^ 64 - 1 := rfl
    simp only [crosses, ge_iff_le, decide_eq_true_eq, UInt64.le_iff_toNat_le, greatest]
    omega
  | sell => simp [crosses, UInt64.le_iff_toNat_le]

/-- The orders within reach are the prefix of the other side that is crossed. -/
theorem within_eq (sound : book.Sound) (order : Order) :
    order.within (book.side order.side.opposite) =
      (book.side order.side.opposite).takeWhile
        (fun maker => crosses order.side order.matchPrice maker.price) := by
  unfold Order.within
  by_cases market : order.type = .market
  · rw [if_pos market]
    symm
    rw [List.takeWhile_eq_self_iff]
    exact fun maker _ => crosses_market order market maker.price
  · have limit : order.matchPrice = order.price := by
      unfold Order.matchPrice
      rw [if_neg market]
    rw [if_neg market, limit]
    exact sound.filter_crosses order.side order.price

/-- The sweep of a ledger stops where the reachable orders end. -/
theorem reachable_eq (sound : book.Sound) (order : Order) :
    (book.side order.side.opposite).takeWhile (fun maker => !order.stoppedBy maker) =
      order.reachable (book.side order.side.opposite) := by
  rw [Order.reachable, sound.within_eq, List.takeWhile_takeWhile]
  congr 1
  funext maker
  have unfolded : order.stoppedBy maker =
      (!crosses order.side order.matchPrice maker.price || maker.ownedBy order) := rfl
  rw [unfolded]
  cases crosses order.side order.matchPrice maker.price with
  | false => simp
  | true => simp

/-- The sweep of a ledger is the greedy fill. -/
theorem fillOf_eq (sound : book.Sound) {ledger : Ledger} (held : ledger.book = book)
    (order : Order) :
    ledger.fillOf order =
      let makers := book.side order.side.opposite
      let filled := order.greedy makers
      { filled with rest := filled.rest ++ makers.drop (order.reachable makers).length } := by
  have stop := sound.reachable_eq order
  simp only [Ledger.fillOf, sweep, held, Order.greedy]
  rw [← stop, drop_takeWhile_length]

/-- Whatever the greedy fill leaves within reach is still crossed. -/
theorem crosses_leftover (sound : book.Sound) {order other : Order}
    (member : other ∈ order.leftover (book.side order.side.opposite)) :
    crosses order.side order.matchPrice other.price = true := by
  have reach : ∀ maker ∈ order.within (book.side order.side.opposite),
      crosses order.side order.matchPrice maker.price = true := by
    rw [sound.within_eq]
    intro maker listed
    have kept := List.mem_takeWhile_imp listed
    exact kept
  rcases List.mem_append.mp member with filled | behind
  · rw [Order.greedy, ← sweep_never] at filled
    obtain ⟨maker, listed, equal⟩ := exists_mem_of_mem_sweep_rest filled
    have price : maker.price = other.price := by
      have same := congrArg Order.price equal
      exact same
    rw [← price]
    exact reach maker ((List.takeWhile_sublist _).subset listed)
  · exact reach other (List.mem_of_mem_drop behind)

/-- What the sweep leaves on the other side: what is left within reach, and what is beyond. -/
theorem swept_eq (sound : book.Sound) {ledger : Ledger} (held : ledger.book = book)
    (order : Order) :
    (ledger.swept order).side order.side.opposite =
      order.leftover (book.side order.side.opposite) ++
        (book.side order.side.opposite).dropWhile
          (fun maker => crosses order.side order.matchPrice maker.price) := by
  have split := List.takeWhile_append_dropWhile
    (p := fun maker : Order => crosses order.side order.matchPrice maker.price)
    (l := book.side order.side.opposite)
  have bound : (order.reachable (book.side order.side.opposite)).length ≤
      (order.within (book.side order.side.opposite)).length :=
    (List.takeWhile_sublist _).length_le
  rw [Ledger.swept, Book.side_setSide_same, sound.fillOf_eq held, Order.leftover, List.append_assoc]
  simp only
  congr 1
  rw [sound.within_eq] at bound ⊢
  rw [← List.drop_append_of_le_length bound, split]

/-- The remainder rests exactly when the order may rest and nothing within its reach is left. -/
theorem rests_eq (sound : book.Sound) {ledger : Ledger} (held : ledger.book = book)
    (order : Order) :
    ledger.rests order = order.restsAfter (book.side order.side.opposite) := by
  have left : (ledger.fillOf order).left =
      (order.greedy (book.side order.side.opposite)).left := by rw [sound.fillOf_eq held]
  by_cases limit : order.type = .limit
  · have price : order.matchPrice = order.price := by simp [Order.matchPrice, limit]
    have crossed : Ledger.wouldCross (ledger.swept order) order =
        !(order.leftover (book.side order.side.opposite)).isEmpty := by
      have beyond : ((book.side order.side.opposite).dropWhile
          (fun maker => crosses order.side order.matchPrice maker.price)).any
            (fun other => crosses order.side order.price other.price) = false := by
        rw [List.any_eq_false, price]
        intro other member
        have far : crosses order.side order.price other.price = false := by
          apply sound.dropWhile_crosses order.side order.price
          simpa using member
        simp [far]
      rw [Ledger.wouldCross, sound.swept_eq held, List.any_append, beyond, Bool.or_false]
      have all : ∀ other ∈ order.leftover (book.side order.side.opposite),
          crosses order.side order.price other.price = true := by
        intro other member
        have reach := sound.crosses_leftover member
        rw [price] at reach
        exact reach
      cases kept : order.leftover (book.side order.side.opposite) with
      | nil => rfl
      | cons first rest =>
        rw [List.any_cons, all first (kept ▸ List.mem_cons_self)]
        rfl
    have may : order.mayRest = decide (order.tif = .gtc) := by
      cases tif : order.tif <;> simp [Order.mayRest, limit, tif]
    rw [Ledger.rests, Order.restsAfter, may, left, crossed, Bool.not_not]
    simp [limit]
  · have market : order.type = .market := by
      cases kind : order.type with
      | limit => exact absurd kind limit
      | market => rfl
    simp [Ledger.rests, Order.restsAfter, Order.mayRest, market]

end Book.Sound

namespace OrderManager

/-- The order that rests after a greedy fill: what is left of it, with its new status. -/
def remainderAfter (order : Order) (makers : List Order) : Order :=
  let left := (order.greedy makers).left
  { order with
    quantity := left
    status := if order.quantity - left > 0 then .partiallyFilled else .new }

/-- An accepted order, in every reachable state and over either matcher: the trades are the
greedy fill of the reachable orders; of the other side only the filled orders change; the
remainder, which is the quantity less what was traded, goes to the back of its own level when it
rests, and otherwise nothing of the order rests; and the record shows the remainder. -/
theorem matchOrder_is_greedy (allocator : SlabAllocator) (backend : MatcherBackend)
    (calls : List ManagerCall) (order : Order)
    (accepted : ((run callManager (init (makeMatcher allocator backend)) calls).2.matchOrder
      order).1.accept.accepted = true) :
    let manager := (run callManager (init (makeMatcher allocator backend)) calls).2
    let result := (manager.matchOrder order).1
    let after := (manager.matchOrder order).2
    let makers := resting manager.matcher order.side.opposite
    let filled := order.greedy makers
    result.trades = filled.trades ∧
      filled.left = order.quantity - (result.trades.map Trade.quantity).sum ∧
      resting after.matcher order.side.opposite =
        filled.rest ++ makers.drop (order.reachable makers).length ∧
      (∀ price, queueAt after.matcher order.side price =
        queueAt manager.matcher order.side price ++
          if order.restsAfter makers ∧ price = order.price then [remainderAfter order makers]
          else []) ∧
      (IsResting after.matcher order.id ↔ order.restsAfter makers = true) ∧
      (after.find order.id).map Order.quantity = some filled.left := by
  intro manager result after makers filled
  let ledger := (run callLedger Ledger.empty calls).2
  have mirrors : manager.Mirrors ledger :=
    mirrors_run (Matcher.holds_makeMatcher allocator backend) calls
  have sound := mirrors.consistent.sound
  have reason : validateNewOrder order ledger.known = .none := by
    have same := (mirrors.matchOrder order).1
    rw [same] at accepted
    unfold Ledger.matchOrder at accepted
    cases reason : validateNewOrder order ledger.known with
    | none => rfl
    | _ => simp [reason, AcceptResult.reject] at accepted
  have fresh : ledger.book.Fresh order.id :=
    mirrors.fresh_of_unknown (validateNewOrder_none reason).2.2
  obtain ⟨returned, entered⟩ := mirrors.enter reason
  have before : makers = ledger.book.side order.side.opposite :=
    resting_eq mirrors.tracks.represents sound order.side.opposite
  have fills := sound.fillOf_eq rfl order
  have rests := sound.rests_eq rfl order
  rw [← before] at fills rests
  have trades : result.trades = filled.trades := by
    have same := congrArg MatchResult.trades returned
    rw [fills] at same
    exact same
  have sweptOther : (ledger.swept order).side order.side.opposite =
      filled.rest ++ makers.drop (order.reachable makers).length := by
    rw [Ledger.swept, Book.side_setSide_same, fills]
  have sweptOwn : (ledger.swept order).side order.side = ledger.book.side order.side :=
    Book.side_setSide_opposite _ _ _
  have unused : (ledger.swept order).Fresh order.id :=
    Book.fresh_sweep fresh order.stoppedBy order.quantity
  have remainder : ledger.remainder order = remainderAfter order makers := by
    simp only [Ledger.remainder, remainderAfter, fills]
  have represents := entered.tracks.represents
  have soundAfter := entered.consistent.sound
  have record : after.find order.id = some { order with
      quantity := (ledger.fillOf order).left
      status := statusAfter (ledger.fillOf order).left
        (order.quantity - (ledger.fillOf order).left) (ledger.rests order) } := by
    have records := entered.records
    change after.orders[order.id]? = _
    rw [records]
    exact ExtTreeMap.getElem?_insert_self
  refine ⟨trades, ?_, ?_, ?_, ?_, ?_⟩
  · rw [trades]
    exact fill_left order.quantity (order.reachable makers)
  · rw [resting_eq represents soundAfter, ← sweptOther]
    unfold Ledger.enter
    cases ledger.rests order with
    | false => rfl
    | true => exact Book.side_opposite_rest (ledger.swept order) (ledger.remainder order)
  · intro price
    have rankedOwn := sound.ranked order.side
    rw [queueAt_eq represents, queueAt_eq mirrors.tracks.represents, ← rests, ← remainder]
    unfold Ledger.enter
    cases ledger.rests order with
    | false =>
      simp only [Bool.false_eq_true, ↓reduceIte, false_and, List.append_nil]
      rw [sweptOwn]
    | true =>
      have arrived : ((ledger.swept order).rest (ledger.remainder order)).side order.side =
          Library.arrive (fun other => order.side.rank other.price) (ledger.remainder order)
            (ledger.book.side order.side) := by
        rw [← sweptOwn]
        exact Book.side_setSide_same _ _ _
      simp only [↓reduceIte, true_and]
      rw [arrived, Book.group_arrive rankedOwn]
      by_cases here : order.price = price
      · have own : (ledger.remainder order).price = price := here
        rw [if_pos own, if_pos here.symm]
      · have own : ¬ (ledger.remainder order).price = price := here
        rw [if_neg own, if_neg (Ne.symm here), List.append_nil]
  · rw [isResting_iff represents soundAfter, ← rests]
    unfold Ledger.enter
    cases ledger.rests order with
    | false =>
      simp only [Bool.false_eq_true, ↓reduceIte, iff_false, not_not]
      exact unused
    | true =>
      simp only [↓reduceIte, iff_true]
      rw [Book.fresh_rest]
      exact fun both => both.1 rfl
  · rw [record, fills]
    rfl

/-- A market order that takes one order of another account and is stopped by one of its own. -/
theorem matchOrder_is_greedy_stopped :
    let calls : List ManagerCall :=
      [.addOrder { id := 1, side := .sell, price := 10, quantity := 5, accountId := 7 },
        .addOrder { id := 2, side := .sell, price := 9, quantity := 4, accountId := 8 }]
    let order : Order :=
      { id := 3, side := .buy, price := 0, quantity := 6, accountId := 7, type := .market }
    let manager := (run callManager (init (makeMatcher (.consecutive 2 (by decide)) .optimized))
      calls).2
    (manager.matchOrder order).1.trades =
      (order.greedy (resting manager.matcher order.side.opposite)).trades :=
  (matchOrder_is_greedy (.consecutive 2 (by decide)) .optimized
    [.addOrder { id := 1, side := .sell, price := 10, quantity := 5, accountId := 7 },
      .addOrder { id := 2, side := .sell, price := 9, quantity := 4, accountId := 8 }]
    { id := 3, side := .buy, price := 0, quantity := 6, accountId := 7, type := .market }
    (by decide)).1

end OrderManager

end Titan
