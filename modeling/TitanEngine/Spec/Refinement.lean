import TitanEngine.Book.Matcher
import TitanEngine.Library.Loop
import TitanEngine.Spec.Book

/-!
# Matchers that refine the price-time book

A lawful matcher represents a book: its operations do to the represented book what the book's
own operations say, and everything it shows is read off that book. Two lawful matchers that
represent one book cannot be told apart. The crossing loop of a matcher is reduced here to its
single passes: a matcher whose pass trades with the head of the other side, or breaks when
there is nothing to trade with, sweeps that side.
-/

namespace Titan

open Library

namespace Book

/-- The queue of each price of a side. -/
def levels (book : Book) (side : Side) : PriceMap (List Order) :=
  collect (fun order => order.price) (book.side side)

/-- `bestBid`, with the largest price for an empty side. -/
def bestBid (book : Book) : Price := (book.bids.head?.map (fun order => order.price)).getD maxPrice

/-- `bestAsk`, with zero for an empty side. -/
def bestAsk (book : Book) : Price := (book.asks.head?.map (fun order => order.price)).getD 0

/-- The first levels of a side with their total quantities. -/
def depth (book : Book) (side : Side) (maxLevels : Nat) : List PriceLevel :=
  depthFrom (fun queue : List Order => queue.map (fun order => order.quantity)) side
    (book.levels side) maxLevels

/-- An arrival goes to the end of the queue of its price and to no other queue. -/
theorem group_arrive {side : Side} {orders : List Order}
    (ranked : Ranked (fun order : Order => side.rank order.price) orders) (order : Order)
    (price : Price) :
    group (fun order : Order => order.price)
        (arrive (fun other => side.rank other.price) order orders) price =
      if order.price = price then group (fun order : Order => order.price) orders price ++ [order]
      else group (fun order : Order => order.price) orders price := by
  split
  · rename_i equal
    refine filter_arrive_of_same ranked (by simpa using equal) ?_
    intro other _ same
    simp only [decide_eq_true_eq] at same
    simp only [same, equal]
  · rename_i apart
    exact filter_arrive_of_not (by simpa using apart) orders

section Levels

variable {book : Book} {side : Side} {β : Type} {view : List Order → β} {levels : PriceMap β}

/-- A ranked side is ordered by price in the direction in which its levels are walked. -/
theorem pairwise_compare {orders : List Order}
    (ranked : Ranked (fun order : Order => side.rank order.price) orders) :
    orders.Pairwise (fun first later =>
      match side with
      | .buy => compare first.price later.price ≠ .lt
      | .sell => compare later.price first.price ≠ .lt) := by
  refine ranked.imp ?_
  intro first later order
  have boundFirst := first.price.toNat_lt
  have boundLater := later.price.toNat_lt
  cases side with
  | buy =>
    simp only [Side.rank] at order
    simp only [ne_eq, Std.compare_eq_lt, UInt64.lt_iff_toNat_lt]
    omega
  | sell =>
    simp only [Side.rank] at order
    simp only [ne_eq, Std.compare_eq_lt, UInt64.lt_iff_toNat_lt]
    omega

/-- Walking the levels of a ranked side best first, each queue from its front, gives the side. -/
theorem flatMap_bestFirst {orders : List Order}
    (ranked : Ranked (fun order : Order => side.rank order.price) orders)
    {queues : PriceMap (List Order)}
    (grouped : Groups (fun order : Order => order.price) id orders queues) :
    (bestFirst side queues).flatMap Prod.snd = orders := by
  have ordered := pairwise_compare ranked
  cases side with
  | buy => exact grouped.flatMap_reverse_toList ordered
  | sell => exact grouped.flatMap_toList ordered

/-- A ranked side is determined by its queues. -/
theorem eq_of_group_eq {left right : List Order}
    (rankedLeft : Ranked (fun order : Order => side.rank order.price) left)
    (rankedRight : Ranked (fun order : Order => side.rank order.price) right)
    (same : ∀ price, group (fun order : Order => order.price) left price =
      group (fun order : Order => order.price) right price) : left = right := by
  have groupedLeft := groups_collect (fun order : Order => order.price) left
  have groupedRight : Groups (fun order : Order => order.price) id right
      (collect (fun order : Order => order.price) left) := by
    intro price
    rw [groupedLeft price, same price]
  rw [← flatMap_bestFirst rankedLeft groupedLeft, flatMap_bestFirst rankedRight groupedRight]

/-- The best level of a side without orders is missing. -/
theorem bestLevel_of_nil (grouped : Groups (fun order : Order => order.price) view [] levels) :
    bestLevel side levels = none := by
  rw [grouped.eq_empty]
  cases side <;> rfl

/-- The best level of a side with orders is the queue that starts with the head of the side. -/
theorem Sound.bestLevel_of_cons (sound : book.Sound) {first : Order} {rest : List Order}
    (orders : book.side side = first :: rest)
    (grouped : Groups (fun order : Order => order.price) view (book.side side) levels) :
    bestLevel side levels = some (first.price,
      view (first :: group (fun order : Order => order.price) rest first.price)) := by
  have ordered := pairwise_compare (sound.ranked side)
  rw [orders] at ordered grouped
  rw [← group_cons_self (fun order : Order => order.price)]
  cases side with
  | buy => exact grouped.getLast?_toList (List.pairwise_cons.mp ordered).1
  | sell => exact grouped.head?_toList (List.pairwise_cons.mp ordered).1

/-- Depth read from levels that show the queues of the book. -/
theorem depth_of_groups {shown : β → List Order}
    (grouped : Groups (fun order : Order => order.price) id (book.side side)
      (levels.map (fun _ level => shown level))) (maxLevels : Nat) :
    depthFrom (fun level => (shown level).map (fun order => order.quantity)) side levels maxLevels =
      book.depth side maxLevels := by
  rw [depth, Book.levels,
    ← grouped.unique (groups_collect (fun order : Order => order.price) (book.side side)),
    depthFrom_map]
  rfl

end Levels

end Book

/-- A matcher whose operations are those of the book it represents. -/
class LawfulMatcher (M : Type) extends IMatcher M, RestingLevels M where
  /-- The matcher holds exactly the orders of the book. -/
  Represents : M → Book → Prop
  /-- The queues shown are those of the book. -/
  groups : ∀ {matcher book}, Represents matcher book → ∀ side,
    Groups (fun order : Order => order.price) id (book.side side) (restingLevels matcher side)
  /-- Adding a fresh order trades and rests as in the book. -/
  addOrder_spec : ∀ {matcher book} (order : Order), Represents matcher book → book.Sound →
    book.Fresh order.id → Represents (addOrder matcher order) (book.submit order).2
  /-- Matching a fresh order trades and rests as in the book. -/
  matchOrder_spec : ∀ {matcher book} (order : Order), Represents matcher book → book.Sound →
    book.Fresh order.id → (matchOrder matcher order).1 = (book.submit order).1 ∧
      Represents (matchOrder matcher order).2 (book.submit order).2
  /-- Cancelling removes the order from the book. -/
  cancelOrder_spec : ∀ {matcher book} (id : OrderId), Represents matcher book → book.Sound →
    Represents (cancelOrder matcher id) (book.cancel id)
  /-- The best bid is the book's. -/
  bestBid_spec : ∀ {matcher book}, Represents matcher book → book.Sound →
    bestBid matcher = book.bestBid
  /-- The best ask is the book's. -/
  bestAsk_spec : ∀ {matcher book}, Represents matcher book → book.Sound →
    bestAsk matcher = book.bestAsk
  /-- The bid depth is the book's. -/
  bidDepth_spec : ∀ {matcher book}, Represents matcher book → book.Sound → ∀ maxLevels,
    bidDepth matcher maxLevels = book.depth .buy maxLevels
  /-- The ask depth is the book's. -/
  askDepth_spec : ∀ {matcher book}, Represents matcher book → book.Sound → ∀ maxLevels,
    askDepth matcher maxLevels = book.depth .sell maxLevels

export LawfulMatcher (Represents)

section Lawful

variable {M : Type} [LawfulMatcher M] {matcher : M} {book : Book}

/-- The orders a matcher shows on a side are those of its book, in trading order. -/
theorem resting_eq (represents : Represents matcher book) (sound : book.Sound) (side : Side) :
    resting matcher side = book.side side :=
  Book.flatMap_bestFirst (sound.ranked side) (LawfulMatcher.groups represents side)

/-- The queue a matcher shows at a price holds the orders of its book at that price. -/
theorem queueAt_eq (represents : Represents matcher book) (side : Side) (price : Price) :
    queueAt matcher side price =
      group (fun order : Order => order.price) (book.side side) price := by
  rw [queueAt, LawfulMatcher.groups represents side price]
  simp

/-- An id rests in the matcher exactly when it is not fresh to its book. -/
theorem isResting_iff (represents : Represents matcher book) (sound : book.Sound)
    (id : OrderId) : IsResting matcher id ↔ ¬ book.Fresh id := by
  simp only [IsResting, resting_eq represents sound, Book.Fresh, not_forall, ne_eq, not_not]
  constructor
  · rintro ⟨side, order, member, equal⟩
    exact ⟨side, order, member, equal⟩
  · rintro ⟨side, order, member, equal⟩
    exact ⟨side, order, member, equal⟩

end Lawful

section Sweeping

variable {σ : Type}

/-- The head of a queue after it was filled by a quantity: gone, or smaller. -/
def afterFill (maker : Order) (rest : List Order) (traded : Quantity) : List Order :=
  if maker.quantity - traded = 0 then rest
  else { maker with quantity := maker.quantity - traded } :: rest

/-- What one pass of a loop that sweeps a queue does: it breaks when nothing is left to fill or
to fill from, or when the head stops it, and otherwise trades with the head. -/
structure SweepPass (taker : OrderId) (stops : Order → Bool) (Holds : σ → List Order → Prop)
    (remaining : σ → Quantity) (trades : σ → List Trade) (size : σ → Nat)
    (pass : σ → ForInStep σ) : Prop where
  /-- Nothing left to fill. -/
  filled : ∀ state orders, Holds state orders → remaining state = 0 → pass state = .done state
  /-- Nothing to trade with. -/
  bare : ∀ state, Holds state [] → pass state = .done state
  /-- The head is not to be traded with. -/
  stopped : ∀ state maker rest, Holds state (maker :: rest) → stops maker = true →
    pass state = .done state
  /-- The head is traded with. -/
  trade : ∀ state maker rest, Holds state (maker :: rest) → remaining state ≠ 0 →
    stops maker = false →
    ∃ next, pass state = .yield next ∧
      Holds next (afterFill maker rest (min (remaining state) maker.quantity)) ∧
      remaining next = remaining state - min (remaining state) maker.quantity ∧
      trades next = trades state ++
        [tradeWith taker maker (min (remaining state) maker.quantity)] ∧
      0 < size state ∧ (maker.quantity ≤ remaining state → size next < size state)

variable {taker : OrderId} {stops : Order → Bool} {Holds : σ → List Order → Prop}
  {remaining : σ → Quantity} {trades : σ → List Trade} {size : σ → Nat}
  {pass : σ → ForInStep σ}

/-- One trade with the head, followed by the sweep of what is left, is the sweep. -/
theorem sweep_cons {maker : Order} (open_ : stops maker = false) {quantity : Quantity}
    (positive : quantity ≠ 0) (rest : List Order) :
    sweep taker stops quantity (maker :: rest) =
      let traded := min quantity maker.quantity
      let later := sweep taker stops (quantity - traded) (afterFill maker rest traded)
      { later with trades := tradeWith taker maker traded :: later.trades } := by
  by_cases fits : maker.quantity ≤ quantity
  · have least : min quantity maker.quantity = maker.quantity := by
      rw [UInt64.min_def]
      grind
    rw [sweep_consume open_ positive fits]
    simp only [least, afterFill, UInt64.sub_self, ↓reduceIte]
  · have least : min quantity maker.quantity = quantity := by
      rw [UInt64.min_def]
      grind
    have left : ¬ maker.quantity - quantity = 0 := by grind
    rw [sweep_reduce open_ positive fits]
    simp only [least, afterFill, UInt64.sub_self, if_neg left, sweep_zero]

/-- A pass that goes on has traded with the head. -/
theorem SweepPass.yields (step : SweepPass taker stops Holds remaining trades size pass)
    {state next : σ} {orders : List Order} (holds : Holds state orders)
    (passed : pass state = .yield next) :
    ∃ maker rest, orders = maker :: rest ∧ remaining state ≠ 0 ∧ stops maker = false ∧
      Holds next (afterFill maker rest (min (remaining state) maker.quantity)) ∧
      remaining next = remaining state - min (remaining state) maker.quantity := by
  by_cases zero : remaining state = 0
  · rw [step.filled state orders holds zero] at passed
    cases passed
  cases orders with
  | nil =>
    rw [step.bare state holds] at passed
    cases passed
  | cons maker rest =>
    cases stop : stops maker with
    | true =>
      rw [step.stopped state maker rest holds stop] at passed
      cases passed
    | false =>
      obtain ⟨other, yielded, heldNext, remains, _⟩ := step.trade state maker rest holds zero stop
      rw [yielded] at passed
      cases passed
      exact ⟨maker, rest, rfl, zero, stop, heldNext, remains⟩

/-- What every trade lowers: the size of the queue, while something is left to fill. -/
def sweepVariant (remaining : σ → Quantity) (size : σ → Nat) (state : σ) : Nat :=
  if remaining state = 0 then 0 else size state

/-- A pass that goes on lowers the variant. -/
theorem SweepPass.lowers (step : SweepPass taker stops Holds remaining trades size pass)
    {state next : σ} {orders : List Order} (holds : Holds state orders)
    (passed : pass state = .yield next) :
    sweepVariant remaining size next < sweepVariant remaining size state := by
  obtain ⟨maker, rest, rfl, zero, open_, _, remains⟩ := step.yields holds passed
  obtain ⟨other, yielded, _, _, _, nonempty, smaller⟩ :=
    step.trade state maker rest holds zero open_
  rw [yielded] at passed
  cases passed
  rw [sweepVariant, sweepVariant, if_neg zero]
  by_cases fits : maker.quantity ≤ remaining state
  · split
    · exact nonempty
    · exact smaller fits
  · have least : min (remaining state) maker.quantity = remaining state := by
      rw [UInt64.min_def]
      grind
    rw [if_pos (by rw [remains, least, UInt64.sub_self])]
    exact nonempty

/-- The variant is no more than the size. -/
theorem sweepVariant_le (remaining : σ → Quantity) (size : σ → Nat) (state : σ) :
    sweepVariant remaining size state ≤ size state := by
  unfold sweepVariant
  split
  · exact Nat.zero_le _
  · exact le_refl _

/-- A loop made of such passes ends, whatever fuel above the size it is given. -/
theorem SweepPass.ends (step : SweepPass taker stops Holds remaining trades size pass)
    {state : σ} {orders : List Order} (holds : Holds state orders) (fuel : Nat)
    (enough : size state < fuel) : Ends pass state (loop pass fuel state) := by
  refine loop_ends (fun current => ∃ queue, Holds current queue) (sweepVariant remaining size)
    ?_ fuel state ⟨orders, holds⟩ (lt_of_le_of_lt (sweepVariant_le _ _ _) enough)
  rintro current next ⟨queue, held⟩ passed
  obtain ⟨_, _, _, _, _, heldNext, _⟩ := step.yields held passed
  exact ⟨⟨_, heldNext⟩, step.lowers held passed⟩

/-- A loop made of such passes sweeps the queue. -/
theorem SweepPass.sweeps (step : SweepPass taker stops Holds remaining trades size pass)
    {state : σ} {orders : List Order} (holds : Holds state orders) (fuel : Nat)
    (enough : size state < fuel) :
    let filled := sweep taker stops (remaining state) orders
    let final := loop pass fuel state
    Holds final filled.rest ∧ remaining final = filled.left ∧
      trades final = trades state ++ filled.trades := by
  intro filled final
  -- what was traded so far, followed by the sweep of what is left, is the whole sweep
  let Inv : σ → Prop := fun current => ∃ queue, Holds current queue ∧
    let later := sweep taker stops (remaining current) queue
    later.rest = filled.rest ∧ later.left = filled.left ∧
      trades current ++ later.trades = trades state ++ filled.trades
  let Post : σ → Prop := fun current => Holds current filled.rest ∧
    remaining current = filled.left ∧ trades current = trades state ++ filled.trades
  let variant : σ → Nat := sweepVariant remaining size
  have passes : ∀ current, Inv current →
      (∃ next, pass current = .yield next ∧ Inv next ∧ variant next < variant current) ∨
      (pass current = .done current ∧ Post current) := by
    rintro current ⟨queue, held, rest, left, traded⟩
    have broken : sweep taker stops (remaining current) queue =
        { trades := [], rest := queue, left := remaining current } → Post current := by
      intro stop
      rw [stop] at rest left traded
      exact ⟨rest ▸ held, left, by simpa using traded⟩
    by_cases zero : remaining current = 0
    · exact .inr ⟨step.filled current queue held zero,
        broken (by rw [zero]; exact sweep_zero queue)⟩
    cases queue with
    | nil => exact .inr ⟨step.bare current held, broken (by simp)⟩
    | cons maker behind =>
      cases stop : stops maker with
      | true =>
        exact .inr ⟨step.stopped current maker behind held stop, broken (sweep_stop stop _ _)⟩
      | false =>
        obtain ⟨next, yields, heldNext, remains, appended, _, _⟩ :=
          step.trade current maker behind held zero stop
        rw [sweep_cons stop zero] at rest left traded
        refine .inl ⟨next, yields, ⟨_, heldNext, ?_⟩, step.lowers held yields⟩
        rw [remains, appended]
        refine ⟨rest, left, ?_⟩
        rw [List.append_assoc]
        exact traded
  refine loop_total Inv Post variant ?_ ?_ fuel state ⟨orders, holds, rfl, rfl, rfl⟩ ?_
  · intro current next inv yielded
    rcases passes current inv with ⟨other, yields, keeps, lower⟩ | ⟨done, _⟩
    · rw [yields] at yielded
      cases yielded
      exact ⟨keeps, lower⟩
    · rw [done] at yielded
      cases yielded
  · intro current last inv broke
    rcases passes current inv with ⟨other, yields, _, _⟩ | ⟨done, post⟩
    · rw [yields] at broke
      cases broke
    · rw [done] at broke
      cases broke
      exact post
  · exact lt_of_le_of_lt (sweepVariant_le _ _ _) enough

end Sweeping

section Crossing

variable {M : Type}

/-- The book after its head on one side was filled by a quantity. -/
def Book.fillHead (book : Book) (side : Side) (maker : Order) (rest : List Order)
    (traded : Quantity) : Book := book.setSide side (afterFill maker rest traded)

/-- The head of a sound side may be filled by at most its quantity. -/
theorem Book.Sound.fillHead {book : Book} (sound : book.Sound) {side : Side} {maker : Order}
    {rest : List Order} (orders : book.side side = maker :: rest) (traded : Quantity) :
    (book.fillHead side maker rest traded).Sound := by
  have positive := sound.positive side
  rw [orders] at positive
  unfold Book.fillHead afterFill
  split
  · refine sound.shrink side ?_ (fun order member => positive order (List.mem_cons_of_mem _ member))
    rw [orders]
    exact List.sublist_cons_self _ _
  · rename_i left
    refine sound.shrink side ?_ ?_
    · rw [orders]
      exact List.Sublist.refl _
    · intro order member
      rcases List.mem_cons.mp member with rfl | member
      · exact left
      · exact positive order (List.mem_cons_of_mem _ member)

/-- What one pass of a crossing loop does to the represented book. -/
structure CrossPass (Holds : M → Book → Prop) (size : M → Nat)
    (pass : CrossState M → ForInStep (CrossState M)) : Prop where
  /-- Nothing left to fill: break. -/
  filled : ∀ state, state.incoming.quantity = 0 → pass state = .done state
  /-- Nothing to trade with: break. -/
  bare : ∀ state book, Holds state.matcher book → book.Sound →
    book.side state.incoming.side.opposite = [] → pass state = .done state
  /-- The head is out of reach: break. -/
  beyond : ∀ state book maker rest, Holds state.matcher book → book.Sound →
    book.side state.incoming.side.opposite = maker :: rest →
    crosses state.incoming.side state.incoming.price maker.price = false →
    pass state = .done state
  /-- Otherwise trade with the head. -/
  trade : ∀ state book maker rest, Holds state.matcher book → book.Sound →
    state.incoming.quantity ≠ 0 → book.side state.incoming.side.opposite = maker :: rest →
    crosses state.incoming.side state.incoming.price maker.price = true →
    ∃ next : M, pass state = .yield
        { matcher := next
          incoming := { state.incoming with
            quantity := state.incoming.quantity - min state.incoming.quantity maker.quantity }
          trades := state.trades ++
            [tradeWith state.incoming.id maker (min state.incoming.quantity maker.quantity)] } ∧
      Holds next (book.fillHead state.incoming.side.opposite maker rest
        (min state.incoming.quantity maker.quantity)) ∧
      0 < size state.matcher ∧
      (maker.quantity ≤ state.incoming.quantity → size next < size state.matcher)

/-- The order that stops a sweep by an incoming order: one that it does not cross. -/
def beyondLimit (order maker : Order) : Bool := !crosses order.side order.price maker.price

/-- What a crossing loop keeps: the book with its other side as given, and the incoming order
but for its quantity. -/
def CrossSwept (Holds : M → Book → Prop) (book : Book) (order : Order) (state : CrossState M)
    (orders : List Order) : Prop :=
  Holds state.matcher (book.setSide order.side.opposite orders) ∧
    (book.setSide order.side.opposite orders).Sound ∧
    state.incoming = { order with quantity := state.incoming.quantity }

section CrossPass

variable {Holds : M → Book → Prop} {size : M → Nat}
  {pass : CrossState M → ForInStep (CrossState M)} {matcher : M} {book : Book} {order : Order}

/-- A crossing pass sweeps the other side. -/
theorem CrossPass.sweepPass (step : CrossPass Holds size pass) (book : Book) (order : Order) :
    SweepPass order.id (beyondLimit order) (CrossSwept Holds book order)
      (fun state => state.incoming.quantity) (fun state => state.trades)
      (fun state => size state.matcher) pass := by
  have own : ∀ state orders, CrossSwept Holds book order state orders →
      state.incoming.side = order.side ∧ state.incoming.price = order.price ∧
      state.incoming.id = order.id ∧
      (book.setSide order.side.opposite orders).side state.incoming.side.opposite = orders := by
    rintro state orders ⟨_, _, same⟩
    rw [same]
    exact ⟨rfl, rfl, rfl, Book.side_setSide_same _ _ _⟩
  constructor
  · intro state orders _ zero
    exact step.filled state zero
  · intro state swept
    obtain ⟨_, _, _, current⟩ := own state [] swept
    exact step.bare state _ swept.1 swept.2.1 current
  · intro state maker rest swept stop
    obtain ⟨side, price, _, current⟩ := own state (maker :: rest) swept
    refine step.beyond state _ maker rest swept.1 swept.2.1 current ?_
    rw [side, price]
    simpa [beyondLimit] using stop
  · intro state maker rest swept positive open_
    obtain ⟨side, price, taker, current⟩ := own state (maker :: rest) swept
    have reach : crosses state.incoming.side state.incoming.price maker.price = true := by
      rw [side, price]
      simpa [beyondLimit] using open_
    obtain ⟨next, yields, heldNext, nonempty, smaller⟩ :=
      step.trade state _ maker rest swept.1 swept.2.1 positive current reach
    have soundNext := swept.2.1.fillHead current (min state.incoming.quantity maker.quantity)
    have replaced : ∀ traded : Quantity,
        (book.setSide order.side.opposite (maker :: rest)).fillHead
          state.incoming.side.opposite maker rest traded =
        book.setSide order.side.opposite (afterFill maker rest traded) := by
      intro traded
      rw [side, Book.fillHead]
      cases order.side <;> rfl
    rw [replaced] at heldNext soundNext
    refine ⟨_, yields, ⟨heldNext, soundNext, ?_⟩, rfl, by rw [taker], nonempty, smaller⟩
    simp only
    rw [swept.2.2]

/-- A crossing loop starts with the book as it is. -/
theorem crossSwept_start (holds : Holds matcher book) (sound : book.Sound) (order : Order) :
    CrossSwept Holds book order { matcher := matcher, incoming := order, trades := [] }
      (book.side order.side.opposite) := by
  have whole : book.setSide order.side.opposite (book.side order.side.opposite) = book :=
    Book.ext_side (Book.forall_side order.side.opposite (by simp) (by simp))
  refine ⟨?_, ?_, rfl⟩
  · rw [whole]
    exact holds
  · rw [whole]
    exact sound

/-- A crossing loop ends. -/
theorem CrossPass.ends (step : CrossPass Holds size pass) (holds : Holds matcher book)
    (sound : book.Sound) (order : Order) (fuel : Nat) (enough : size matcher < fuel) :
    Ends pass { matcher := matcher, incoming := order, trades := [] }
      (loop pass fuel { matcher := matcher, incoming := order, trades := [] }) :=
  (step.sweepPass book order).ends (crossSwept_start holds sound order) fuel enough

/-- Wherever a crossing loop comes to a pass, its matcher stands for a sound book. -/
theorem CrossPass.reaches (step : CrossPass Holds size pass) (holds : Holds matcher book)
    (sound : book.Sound) {order : Order} {state : CrossState M}
    (reaches : Reaches pass { matcher := matcher, incoming := order, trades := [] } state) :
    ∃ between : Book, Holds state.matcher between ∧ between.Sound := by
  obtain ⟨orders, swept⟩ := reaches.invariant
    (fun state => ∃ orders, CrossSwept Holds book order state orders)
    (by
      rintro state next ⟨orders, swept⟩ passed
      obtain ⟨_, _, _, _, _, later, _⟩ := (step.sweepPass book order).yields swept passed
      exact ⟨_, later⟩)
    ⟨_, crossSwept_start holds sound order⟩
  exact ⟨_, swept.1, swept.2.1⟩

/-- A loop made of such passes sweeps the other side. -/
theorem CrossPass.cross (step : CrossPass Holds size pass) (holds : Holds matcher book)
    (sound : book.Sound) (fuel : Nat) (enough : size matcher < fuel) :
    let filled := sweep order.id (beyondLimit order) order.quantity
      (book.side order.side.opposite)
    let final := loop pass fuel { matcher := matcher, incoming := order, trades := [] }
    final.trades = filled.trades ∧
      final.incoming = { order with quantity := filled.left } ∧
      Holds final.matcher (book.setSide order.side.opposite filled.rest) := by
  intro filled final
  obtain ⟨swept, left, trades⟩ :=
    (step.sweepPass book order).sweeps (crossSwept_start holds sound order) fuel enough
  refine ⟨trades, ?_, swept.1⟩
  rw [← left]
  exact swept.2.2

/-- A matcher that sweeps with such passes, and then rests what is left, submits the order. -/
theorem CrossPass.submit (step : CrossPass Holds size pass) {restOrder : M → Order → M}
    (rests : ∀ matcher book order, Holds matcher book → book.Sound → book.Fresh order.id →
      Holds (restOrder matcher order) (book.rest order)) (holds : Holds matcher book)
    (sound : book.Sound) (fresh : book.Fresh order.id) :
    let final := loop pass (size matcher + 1)
      { matcher := matcher, incoming := order, trades := [] }
    final.trades = (book.submit order).1 ∧
      Holds (if final.incoming.quantity > 0 then restOrder final.matcher final.incoming
        else final.matcher) (book.submit order).2 := by
  intro final
  obtain ⟨trades, incoming, held⟩ : final.trades = _ ∧ final.incoming = _ ∧ _ :=
    step.cross holds sound (size matcher + 1) (Nat.lt_succ_self _)
  refine ⟨trades, ?_⟩
  let filled := sweep order.id (beyondLimit order) order.quantity (book.side order.side.opposite)
  change Holds _ (if filled.left = 0 then book.setSide order.side.opposite filled.rest
    else (book.setSide order.side.opposite filled.rest).rest
      { order with quantity := filled.left })
  have quantity : final.incoming.quantity = filled.left := by rw [incoming]
  by_cases zero : filled.left = 0
  · rw [if_pos zero, if_neg (by rw [quantity, zero]; decide)]
    exact held
  · rw [if_neg zero, if_pos (by rw [quantity]; grind), incoming]
    refine rests _ _ _ held ?_ ?_
    · exact sound.shrink _ (sweep_rest_suffix _ _).sublist
        (sweep_rest_positive _ (sound.positive order.side.opposite))
    · exact Book.fresh_sweep fresh _ _

end CrossPass

end Crossing

end Titan
