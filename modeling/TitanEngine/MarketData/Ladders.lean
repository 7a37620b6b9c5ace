import TitanEngine.Feed.Aggregation
import TitanEngine.MarketData.RegistryLog

/-!
# The levels a snapshot shows

A snapshot shows the best levels of a book, each price once and best first, and leaves no better
one out. Its best bid is below its best ask, however many levels are asked for, and fewer levels are
the first of more.
-/

namespace Titan

open Library Std

/-- The levels are those of the best prices of some orders, best first, up to a depth. -/
structure ShowsTop (side : Side) (orders : List Order) (depth : Nat) (levels : List PriceLevel) :
    Prop where
  /-- No more levels than were asked for. -/
  within : levels.length ≤ depth
  /-- Each price stands once, before the worse ones. -/
  sorted : levels.Pairwise (fun left right => side.Better left.price right.price)
  /-- An order rests at each of them. -/
  occupied : ∀ level ∈ levels, ∃ order ∈ orders, order.price = level.price
  /-- The price of an order is shown, unless enough better ones are. -/
  best : ∀ order ∈ orders, (∃ level ∈ levels, level.price = order.price) ∨
    levels.length = depth ∧ ∀ level ∈ levels, side.Better level.price order.price

namespace Book

variable {book : Book} {side : Side}

/-- The levels of a side are walked from its best price. -/
theorem pairwise_bestFirst {β : Type} (side : Side) (levels : PriceMap β) :
    (bestFirst side levels).Pairwise (fun left right => side.Better left.1 right.1) := by
  have ordered := levels.ordered_keys_toList
  cases side with
  | buy =>
    refine List.pairwise_reverse.mpr (ordered.imp ?_)
    exact fun before => Std.compare_eq_lt.mp before
  | sell => exact ordered.imp (fun before => Std.compare_eq_lt.mp before)

/-- A level is stored exactly where an order of its price rests. -/
theorem mem_bestFirst_levels {price : Price} :
    (∃ queue, (price, queue) ∈ bestFirst side (book.levels side)) ↔
      ∃ order ∈ book.side side, order.price = price := by
  have stored : (∃ queue, (price, queue) ∈ bestFirst side (book.levels side)) ↔
      ∃ queue, (book.levels side)[price]? = some queue := by
    refine exists_congr (fun queue => ?_)
    rw [← ExtTreeMap.mem_toList_iff_getElem?_eq_some]
    cases side with
    | buy => exact List.mem_reverse
    | sell => exact Iff.rfl
  have grouped := groups_collect (fun order : Order => order.price) (book.side side) price
  rw [stored, show (book.levels side)[price]? = _ from grouped]
  cases queue : group (fun order : Order => order.price) (book.side side) price with
  | nil =>
    have nothing : ∀ order ∈ book.side side, order.price ≠ price := by
      intro order rests same
      have listed := mem_group.mpr ⟨rests, same⟩
      rw [queue] at listed
      cases listed
    simpa using nothing
  | cons first rest =>
    have member : first ∈ group (fun order : Order => order.price) (book.side side) price := by
      rw [queue]
      exact List.mem_cons_self
    obtain ⟨rests, same⟩ := mem_group.mp member
    exact iff_of_true ⟨_, rfl⟩ ⟨first, rests, same⟩

/-- The depth of a side shows its best levels. -/
theorem showsTop_depth (book : Book) (side : Side) (depth : Nat) :
    ShowsTop side (book.side side) depth (book.depth side depth) := by
  have sorted := pairwise_bestFirst side (book.levels side)
  rw [← List.take_append_drop depth (bestFirst side (book.levels side)),
    List.pairwise_append] at sorted
  obtain ⟨front, _, across⟩ := sorted
  constructor
  · rw [Book.depth, depthFrom, List.length_map]
    exact List.length_take_le _ _
  · rw [Book.depth, depthFrom, List.pairwise_map]
    exact front
  · intro level shown
    obtain ⟨⟨price, queue⟩, taken, rfl⟩ := List.mem_map.mp shown
    exact mem_bestFirst_levels.mp ⟨queue, List.mem_of_mem_take taken⟩
  · intro order rests
    obtain ⟨queue, stored⟩ := mem_bestFirst_levels.mpr ⟨order, rests, rfl⟩
    rw [← List.take_append_drop depth (bestFirst side (book.levels side))] at stored
    rcases List.mem_append.mp stored with taken | left
    · exact .inl ⟨_, List.mem_map_of_mem taken, rfl⟩
    · refine .inr ⟨?_, ?_⟩
      · -- something is left behind only when the whole depth was taken
        have more := List.length_pos_of_mem left
        rw [List.length_drop] at more
        rw [Book.depth, depthFrom, List.length_map, List.length_take]
        omega
      · intro level shown
        obtain ⟨entry, taken, rfl⟩ := List.mem_map.mp shown
        exact across entry taken _ left

/-- Fewer levels are the first of more. -/
theorem depth_take (book : Book) (side : Side) {depth deeper : Nat} (fewer : depth ≤ deeper) :
    (book.depth side deeper).take depth = book.depth side depth := by
  rw [Book.depth, depthFrom, ← List.map_take, List.take_take, Nat.min_eq_left fewer]
  rfl

end Book

namespace InstrumentRegistry

variable {registry : InstrumentRegistry} {market : Market}

/-- A snapshot shows the depth of the book of its symbol. -/
theorem Mirrors.snapshot_levels (mirrors : registry.Mirrors market) (symbol : Symbol)
    (depth : Nat) :
    (registry.snapshot symbol depth).1.bids =
        (ledgerOf (market.listings symbol)).book.depth .buy depth ∧
      (registry.snapshot symbol depth).1.asks =
        (ledgerOf (market.listings symbol)).book.depth .sell depth := by
  rw [(mirrors.snapshot symbol depth).1, Market.snapshot]
  cases market.listings symbol with
  | none =>
    have bare (side : Side) : Book.empty.depth side depth = [] := by
      apply List.eq_nil_iff_forall_not_mem.mpr
      intro level shown
      obtain ⟨order, rests, _⟩ := (Book.empty.showsTop_depth side depth).occupied level shown
      cases side <;> cases rests
    exact ⟨(bare .buy).symm, (bare .sell).symm⟩
  | some listing => exact ⟨rfl, rfl⟩

/-- After every run of calls over either matcher, a snapshot of any symbol to any depth shows the
best levels of what rests there, the best bid below the best ask, and is the first part of every
deeper one. -/
theorem snapshots_show_the_top (allocator : SlabAllocator) (backend : MatcherBackend)
    (calls : List RegistryCall) (symbol : Symbol) (depth : Nat) :
    let registry := (run callRegistry (init allocator backend) calls).2
    let taken := (registry.snapshot symbol depth).1
    ShowsTop .buy (registry.restingOn symbol .buy) depth taken.bids ∧
      ShowsTop .sell (registry.restingOn symbol .sell) depth taken.asks ∧
      (∀ bid ∈ taken.bids, ∀ ask ∈ taken.asks, bid.price < ask.price) ∧
      ∀ deeper, depth ≤ deeper →
        taken.bids = (registry.snapshot symbol deeper).1.bids.take depth ∧
          taken.asks = (registry.snapshot symbol deeper).1.asks.take depth := by
  intro registry taken
  have mirrors : registry.Mirrors (run callMarket Market.empty calls).2 :=
    ((mirrors_init allocator backend).run calls).2
  have sound := (mirrors.consistent_ledgerOf symbol).sound
  let book := (ledgerOf ((run callMarket Market.empty calls).2.listings symbol)).book
  have bids := book.showsTop_depth .buy depth
  have asks := book.showsTop_depth .sell depth
  obtain ⟨bidLevels, askLevels⟩ := mirrors.snapshot_levels symbol depth
  rw [show taken.bids = _ from bidLevels, show taken.asks = _ from askLevels,
    mirrors.restingOn, mirrors.restingOn]
  refine ⟨bids, asks, ?_, ?_⟩
  · intro bid bidShown ask askShown
    obtain ⟨buyer, buys, buyPrice⟩ := bids.occupied bid bidShown
    obtain ⟨seller, sells, sellPrice⟩ := asks.occupied ask askShown
    rw [← buyPrice, ← sellPrice]
    exact sound.uncrossed buyer buys seller sells
  · intro deeper fewer
    obtain ⟨moreBids, moreAsks⟩ := mirrors.snapshot_levels symbol deeper
    rw [moreBids, moreAsks, Book.depth_take _ _ fewer, Book.depth_take _ _ fewer]
    exact ⟨rfl, rfl⟩

end InstrumentRegistry

end Titan
