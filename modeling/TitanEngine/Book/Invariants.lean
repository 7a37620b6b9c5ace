import TitanEngine.Book.Parity

/-!
# The invariant checks of the reference matcher

`checkInvariants` of `src/book/invariants.cpp` on a reference matcher, and the representation
invariant it samples. The check walks both sides and the order table and dereferences every
stored iterator; a dangling one has no value here, so a check that returns has met none. Every
book reached by calls that enter no resting id is well formed, and a well-formed book passes the
check.
-/

namespace Titan

open Library Std

/-- `InvariantViolation`. -/
structure InvariantViolation where
  /-- Which invariant. -/
  name : String
  /-- Where it fails. -/
  detail : String
  deriving DecidableEq, Repr

namespace ReferenceMatcher

variable {matcher : ReferenceMatcher} {book : Book}

/-- The list nodes of one side, lowest price first and each level from its front. -/
def sideNodes (matcher : ReferenceMatcher) (side : Side) : List OrderNode :=
  (matcher.levels side).toList.flatMap Prod.snd

/-- All list nodes of the book. -/
def nodes (matcher : ReferenceMatcher) : List OrderNode :=
  matcher.sideNodes .buy ++ matcher.sideNodes .sell

/-- `*it`: the node at an address. -/
def deref (matcher : ReferenceMatcher) (it : Nat) : Option OrderNode :=
  matcher.nodes.find? (fun node => node.address == it)

/-- What `walkLevels` updates; `previous` is missing at the first level of a side. -/
structure LevelWalk where
  /-- `restingCount`. -/
  restingCount : Nat
  /-- `first` and `previous`. -/
  previous : Option Price
  /-- `violations`. -/
  violations : List InvariantViolation

/-- The two checks of one resting order. -/
def checkOrder (sideName : String) (price : Price) (order : Order) : List InvariantViolation :=
  (if order.quantity = 0 then
    [{ name := "NoZeroQuantityRestingOrders"
       detail := sideName ++ " order " ++ toString order.id ++
         " has zero quantity while resting" }]
  else []) ++
  (if order.price ≠ price then
    [{ name := "OrderPriceMatchesLevel"
       detail := sideName ++ " order " ++ toString order.id ++ " resting at level " ++
         toString price ++ " but order.price=" ++ toString order.price }]
  else [])

/-- One level of the walk. -/
def checkLevel (sideName : String) (walk : LevelWalk) (entry : Price × List OrderNode) :
    LevelWalk where
  restingCount := walk.restingCount + entry.2.length
  previous := some entry.1
  violations := walk.violations ++
    (if walk.previous.any (fun previous => decide (entry.1 ≤ previous)) then
      [{ name := "PriceLevelsOrdered"
         detail := sideName ++ " price levels not strictly ordered at " ++ toString entry.1 }]
    else []) ++
    entry.2.flatMap (fun node => checkOrder sideName entry.1 node.order)

/-- `walkLevels`. -/
def walkLevels (levels : PriceLevels) (sideName : String) (walk : LevelWalk) : LevelWalk :=
  levels.toList.foldl (checkLevel sideName) { walk with previous := none }

/-- The check of one entry of `orderTable`. -/
def checkLocation (matcher : ReferenceMatcher) (entry : OrderId × OrderLocation) :
    Option (List InvariantViolation) :=
  (matcher.deref entry.2.it).map (fun node =>
    if node.order.id ≠ entry.1 then
      [{ name := "OrderTableLocationsAccurate"
         detail := "orderTable[" ++ toString entry.1 ++ "] points at order id " ++
           toString node.order.id }]
    else [])

/-- `checkReferenceMatcherInvariants`. The entries of `orderTable` are walked by id; the source
walks them in the order of its hash table. -/
def checkReferenceMatcherInvariants (matcher : ReferenceMatcher) :
    Option (List InvariantViolation) := do
  let walked := walkLevels matcher.asks "ask"
    (walkLevels matcher.bids "bid" { restingCount := 0, previous := none, violations := [] })
  let counted := if walked.restingCount ≠ matcher.orderTable.size then
      [{ name := "OrderTableSizeMatchesRestingCount"
         detail := "orderTable size=" ++ toString matcher.orderTable.size ++
           " but walked resting-order count=" ++ toString walked.restingCount }]
    else []
  let located ← matcher.orderTable.toList.mapM matcher.checkLocation
  let crossed := if !matcher.bids.isEmpty && !matcher.asks.isEmpty &&
      !decide (matcher.bestBid < matcher.bestAsk) then
      [{ name := "NoCrossedBookAtRest"
         detail := "bestBid=" ++ toString matcher.bestBid ++ " bestAsk=" ++
           toString matcher.bestAsk }]
    else []
  some (walked.violations ++ counted ++ located.flatten ++ crossed)

/-- `checkInvariants` on a matcher whose dynamic type is `ReferenceMatcher`. -/
def checkInvariants (matcher : ReferenceMatcher) : Option (List InvariantViolation) :=
  matcher.checkReferenceMatcherInvariants

/-- The representation invariant. -/
structure WellFormed (matcher : ReferenceMatcher) : Prop where
  /-- The keys of `orderTable` are the ids of the resting orders. -/
  keys : ∀ id, id ∈ matcher.orderTable ↔ ∃ node ∈ matcher.nodes, node.order.id = id
  /-- Each of them rests once. -/
  once : (matcher.nodes.map (fun node => node.order.id)).Nodup
  /-- Each entry's side and price name the level of its order, and its iterator the node. -/
  located : ∀ id location, matcher.orderTable[id]? = some location →
    ∃ node ∈ matcher.level location.side location.price,
      matcher.deref location.it = some node ∧ node.order.id = id
  /-- No level is empty. -/
  nonempty : ∀ (side : Side) (price : Price) (queue : List OrderNode),
    (matcher.levels side)[price]? = some queue → queue ≠ []
  /-- A resting order has something left, its own side and the price of its level. -/
  resting : ∀ side price, ∀ node ∈ matcher.level side price,
    node.order.quantity ≠ 0 ∧ node.order.side = side ∧ node.order.price = price
  /-- The highest bid is below the lowest ask. -/
  uncrossed : matcher.bids.isEmpty = false → matcher.asks.isEmpty = false →
    matcher.bestBid < matcher.bestAsk

/-- A node is walked exactly when it stands in some level. -/
theorem mem_sideNodes {side : Side} {node : OrderNode} :
    node ∈ matcher.sideNodes side ↔ ∃ price, node ∈ matcher.level side price := by
  simp only [sideNodes, List.mem_flatMap, Prod.exists, ExtTreeMap.mem_toList_iff_getElem?_eq_some,
    level, ExtTreeMap.getD_eq_getD_getElem?]
  constructor
  · rintro ⟨price, queue, stored, member⟩
    exact ⟨price, by simpa [stored] using member⟩
  · rintro ⟨price, member⟩
    cases stored : (matcher.levels side)[price]? with
    | none => simp [stored] at member
    | some queue => exact ⟨price, queue, stored, by simpa [stored] using member⟩

/-- A node of the book stands in some level of some side. -/
theorem mem_nodes {node : OrderNode} :
    node ∈ matcher.nodes ↔ ∃ side price, node ∈ matcher.level side price := by
  rw [nodes, List.mem_append, mem_sideNodes, mem_sideNodes]
  constructor
  · rintro (inside | inside)
    · exact ⟨.buy, inside⟩
    · exact ⟨.sell, inside⟩
  · rintro ⟨side, inside⟩
    cases side with
    | buy => exact .inl inside
    | sell => exact .inr inside

/-- The nodes of a side hold the orders of the book. -/
theorem Holds.perm_sideNodes (holds : Holds matcher book) (sound : book.Sound) (side : Side) :
    ((matcher.sideNodes side).map (fun node => node.order)).Perm (book.side side) := by
  have shown : (matcher.sideNodes side).map (fun node => node.order) =
      (restingLevels matcher side).toList.flatMap Prod.snd := by
    change _ = ((matcher.levels side).map
      (fun _ level => level.map (fun node => node.order))).toList.flatMap Prod.snd
    rw [ExtTreeMap.toList_map, List.flatMap_map, sideNodes, List.map_flatMap]
  have walked : ((restingLevels matcher side).toList.flatMap Prod.snd).Perm
      (resting matcher side) := by
    cases side with
    | buy => exact (List.reverse_perm _).symm.flatMap_right _
    | sell => exact List.Perm.refl _
  rw [shown, ← resting_eq (M := ReferenceMatcher) holds sound side]
  exact walked

/-- Every id of the book is held by one node. -/
theorem Holds.nodup_ids (holds : Holds matcher book) (sound : book.Sound) :
    (matcher.nodes.map (fun node => node.order.id)).Nodup := by
  have orders : (matcher.nodes.map (fun node => node.order)).Perm (book.bids ++ book.asks) := by
    rw [nodes, List.map_append]
    exact (holds.perm_sideNodes sound .buy).append (holds.perm_sideNodes sound .sell)
  have ids := orders.map (fun order => order.id)
  rw [List.map_map] at ids
  refine ids.nodup_iff.mpr ?_
  rw [List.map_append]
  refine List.nodup_append.mpr ⟨sound.distinct .buy, sound.distinct .sell, ?_⟩
  intro left bid right ask same
  obtain ⟨first, memberFirst, rfl⟩ := List.mem_map.mp bid
  obtain ⟨second, memberSecond, rfl⟩ := List.mem_map.mp ask
  exact sound.apart first memberFirst second memberSecond same

/-- No address is used in two levels. -/
structure AddressesApart (matcher : ReferenceMatcher) : Prop where
  /-- Nodes with one address stand in one level. -/
  same_level : ∀ {side price node otherSide otherPrice other},
    node ∈ matcher.level side price → other ∈ matcher.level otherSide otherPrice →
    node.address = other.address → side = otherSide ∧ price = otherPrice

/-- Addresses stay apart when every node was at its place before. -/
theorem AddressesApart.of_subset {changed : ReferenceMatcher} (apart : matcher.AddressesApart)
    (old : ∀ side price, ∀ node ∈ changed.level side price,
      ∃ before ∈ matcher.level side price, before.address = node.address) :
    changed.AddressesApart := by
  constructor
  intro side price node otherSide otherPrice other member otherMember same
  obtain ⟨first, memberFirst, first_address⟩ := old side price node member
  obtain ⟨second, memberSecond, second_address⟩ := old otherSide otherPrice other otherMember
  exact apart.same_level memberFirst memberSecond (by rw [first_address, second_address, same])

theorem apart_init : init.AddressesApart := by
  constructor
  intro side price node otherSide otherPrice other member
  cases side <;> simp [level, levels, init] at member

/-- Removing a node keeps the addresses apart. -/
theorem AddressesApart.removeOrder (apart : matcher.AddressesApart) (id : OrderId) :
    (matcher.removeOrder id).AddressesApart := by
  cases entry : matcher.orderTable[id]? with
  | none =>
    rw [ReferenceMatcher.removeOrder, entry]
    exact apart
  | some location =>
    apply apart.of_subset
    intro side price node member
    rw [(stores_removeOrder entry).level_eq] at member
    split at member
    · rename_i here
      rw [here.1, here.2]
      exact ⟨node, (List.mem_filter.mp member).1, rfl⟩
    · exact ⟨node, member, rfl⟩

/-- Changing the front of a level keeps the addresses apart. -/
theorem AddressesApart.setFrontQuantity (apart : matcher.AddressesApart) (side : Side)
    (price : Price) (quantity : Quantity) :
    (matcher.setFrontQuantity side price quantity).AddressesApart := by
  cases front : matcher.level side price with
  | nil =>
    rw [ReferenceMatcher.setFrontQuantity,
      show (matcher.levels side).getD price [] = [] from front]
    exact apart
  | cons head tail =>
    apply apart.of_subset
    intro otherSide otherPrice node member
    rw [(stores_setFrontQuantity front quantity).level_eq] at member
    split at member
    · rename_i here
      rw [here.1, here.2, front]
      rcases List.mem_cons.mp member with rfl | member
      · exact ⟨head, List.mem_cons_self, rfl⟩
      · exact ⟨node, List.mem_cons_of_mem _ member, rfl⟩
    · exact ⟨node, member, rfl⟩

/-- A pass of the loop changes the quantity of one node and may remove it. -/
theorem crossPass_cases (state : CrossState ReferenceMatcher) :
    crossPass state = .done state ∨
      ∃ next side price quantity, crossPass state = .yield next ∧
        (next.matcher = state.matcher.setFrontQuantity side price quantity ∨
          ∃ id, next.matcher =
            (state.matcher.setFrontQuantity side price quantity).removeOrder id) := by
  let side := state.incoming.side.opposite
  let price := state.matcher.oppositeBest state.incoming.side
  cases guard : crossGuard state.matcher state.incoming with
  | false => exact .inl (by simp [crossPass, guard])
  | true =>
    cases level : (state.matcher.levels side).getD price [] with
    | nil => exact .inl (by simp [crossPass, guard, side, price, level])
    | cons front tail =>
      let left := front.order.quantity - min state.incoming.quantity front.order.quantity
      refine .inr ⟨_, side, price, left, by simp [crossPass, guard, side, price, level]; rfl, ?_⟩
      by_cases spent : left = 0
      · exact .inr ⟨front.order.id, if_pos spent⟩
      · exact .inl (if_neg spent)

/-- The crossing loop keeps the addresses apart. -/
theorem AddressesApart.cross (apart : matcher.AddressesApart) (incoming : Order) :
    (cross matcher incoming).matcher.AddressesApart := by
  refine loop_invariant
    (fun state : CrossState ReferenceMatcher => state.matcher.AddressesApart) ?_ ?_ _ apart
  · intro state next held passed
    rcases crossPass_cases state with broke | ⟨other, side, price, quantity, yielded, change⟩
    · rw [broke] at passed
      cases passed
    · rw [yielded] at passed
      cases passed
      rcases change with reduced | ⟨id, removed⟩
      · rw [reduced]
        exact held.setFrontQuantity side price quantity
      · rw [removed]
        exact (held.setFrontQuantity side price quantity).removeOrder id
  · intro state final held broke
    rcases crossPass_cases state with done | ⟨other, side, price, quantity, yielded, change⟩
    · rw [done] at broke
      cases broke
      exact held
    · rw [yielded] at broke
      cases broke

/-- A new node has an address of its own. -/
theorem AddressesApart.restOrder (apart : matcher.AddressesApart)
    (allocated : ∀ side price, ∀ node ∈ matcher.level side price,
      node.address < matcher.nextNode) (order : Order) :
    (matcher.restOrder order).AddressesApart := by
  -- a node of the new book is an old one at its old place or the new one
  have placed : ∀ side price, ∀ node ∈ (matcher.restOrder order).level side price,
      node ∈ matcher.level side price ∨
        node.address = matcher.nextNode ∧ side = order.side ∧ price = order.price := by
    intro side price node member
    rw [(stores_restOrder matcher order).level_eq] at member
    split at member
    · rename_i here
      rcases List.mem_append.mp member with old | new
      · exact .inl (here.1 ▸ here.2 ▸ old)
      · obtain rfl := List.mem_singleton.mp new
        exact .inr ⟨rfl, here⟩
    · exact .inl member
  constructor
  intro side price node otherSide otherPrice other member otherMember same
  rcases placed _ _ _ member with old | ⟨new, atSide, atPrice⟩
  · rcases placed _ _ _ otherMember with otherOld | ⟨otherNew, _, _⟩
    · exact apart.same_level old otherOld same
    · have below := allocated _ _ _ old
      omega
  · rcases placed _ _ _ otherMember with otherOld | ⟨_, otherSide, otherPrice⟩
    · have below := allocated _ _ _ otherOld
      omega
    · rw [atSide, atPrice, otherSide, otherPrice]
      exact ⟨rfl, rfl⟩

/-- A matcher that stands for a sound book, with its addresses apart. -/
structure Kept (matcher : ReferenceMatcher) (book : Book) : Prop where
  /-- The book is sound. -/
  sound : book.Sound
  /-- The matcher stands for it. -/
  holds : Holds matcher book
  /-- No address is used twice. -/
  apart : matcher.AddressesApart

theorem kept_init : Kept init Book.empty := ⟨Book.sound_empty, holds_init, apart_init⟩

/-- Entering a new id keeps the addresses apart. -/
theorem Kept.apart_addOrder (kept : Kept matcher book) {order : Order} :
    (matcher.addOrder order).AddressesApart := by
  obtain ⟨_, _, held⟩ : (cross matcher order).trades = _ ∧
      (cross matcher order).incoming = _ ∧ Holds (cross matcher order).matcher _ :=
    crossPass_spec.cross kept.holds kept.sound (matcher.orderTable.size + 1) (Nat.lt_succ_self _)
  have crossed := kept.apart.cross order
  unfold addOrder
  simp only
  split
  · exact crossed.restOrder held.allocated _
  · exact crossed

/-- Every call that enters no resting id keeps the invariant. -/
theorem Kept.callMatcher (kept : Kept matcher book) {call : MatcherCall}
    (enters : EntersNewId matcher call) :
    ∃ next, Kept (callMatcher matcher call).2 next := by
  cases call with
  | addOrder order =>
    have fresh := fresh_of_not_resting (M := ReferenceMatcher) kept.holds kept.sound enters
    exact ⟨(book.submit order).2, kept.sound.submit fresh,
      (kept.holds.matchOrder kept.sound fresh).2, kept.apart_addOrder⟩
  | matchOrder order =>
    have fresh := fresh_of_not_resting (M := ReferenceMatcher) kept.holds kept.sound enters
    exact ⟨(book.submit order).2, kept.sound.submit fresh,
      (kept.holds.matchOrder kept.sound fresh).2, kept.apart_addOrder⟩
  | cancelOrder id =>
    exact ⟨book.cancel id, kept.sound.cancel id, kept.holds.removeOrder id,
      kept.apart.removeOrder id⟩

/-- Every run that enters no resting id keeps the invariant. -/
theorem kept_run {calls : List MatcherCall}
    (enters : Admissible EntersNewId Titan.callMatcher init calls) :
    ∃ book, Kept (run Titan.callMatcher init calls).2 book := by
  refine run_invariant (fun matcher => ∃ book, Kept matcher book) ?_
    ⟨Book.empty, kept_init⟩ enters
  rintro state call ⟨book, kept⟩ admitted
  exact kept.callMatcher admitted

/-- The iterator of an entry leads to the node of its level. -/
theorem Kept.deref_eq (kept : Kept matcher book) {side : Side} {price : Price}
    {node : OrderNode} (member : node ∈ matcher.level side price) :
    matcher.deref node.address = some node := by
  cases found : matcher.deref node.address with
  | none =>
    have missing := List.find?_eq_none.mp found node (mem_nodes.mpr ⟨side, price, member⟩)
    simp at missing
  | some other =>
    have same : other.address = node.address := by simpa using List.find?_some found
    obtain ⟨otherSide, otherPrice, inside⟩ := mem_nodes.mp (List.mem_of_find?_eq_some found)
    obtain ⟨rfl, rfl⟩ := kept.apart.same_level inside member same
    rw [List.inj_on_of_nodup_map (kept.holds.addresses _ _) inside member same]

/-- The best bid is below the best ask. -/
theorem Kept.bestBid_lt (kept : Kept matcher book) (bids : matcher.bids.isEmpty = false)
    (asks : matcher.asks.isEmpty = false) : matcher.bestBid < matcher.bestAsk := by
  have bid : matcher.bestBid = book.bestBid :=
    LawfulMatcher.bestBid_spec (M := ReferenceMatcher) kept.holds kept.sound
  have ask : matcher.bestAsk = book.bestAsk :=
    LawfulMatcher.bestAsk_spec (M := ReferenceMatcher) kept.holds kept.sound
  have someBid : book.bids ≠ [] := by
    intro none
    simpa [levels, bids] using (kept.holds.isEmpty_iff kept.sound .buy).mpr none
  have someAsk : book.asks ≠ [] := by
    intro none
    simpa [levels, asks] using (kept.holds.isEmpty_iff kept.sound .sell).mpr none
  obtain ⟨first, laterBids, bidList⟩ := List.exists_cons_of_ne_nil someBid
  obtain ⟨second, laterAsks, askList⟩ := List.exists_cons_of_ne_nil someAsk
  rw [bid, ask, Book.bestBid, Book.bestAsk, bidList, askList]
  exact kept.sound.uncrossed first (by simp [bidList]) second (by simp [askList])

/-- A matcher that keeps the invariant is well formed. -/
theorem Kept.wellFormed (kept : Kept matcher book) : matcher.WellFormed where
  keys id := by
    constructor
    · intro inside
      rw [ExtTreeMap.mem_iff_isSome_getElem?, Option.isSome_iff_exists] at inside
      obtain ⟨location, entry⟩ := inside
      obtain ⟨node, member, _, own⟩ := kept.holds.found id location entry
      exact ⟨node, mem_nodes.mpr ⟨_, _, member⟩, own⟩
    · rintro ⟨node, member, rfl⟩
      obtain ⟨side, price, inside⟩ := mem_nodes.mp member
      exact kept.holds.entry_of_mem (kept.holds.mem_of_node inside).1
  once := kept.holds.nodup_ids kept.sound
  located id location entry := by
    obtain ⟨node, member, address, own⟩ := kept.holds.found id location entry
    exact ⟨node, member, address ▸ kept.deref_eq member, own⟩
  nonempty side price queue stored := by
    rw [kept.holds.stored side price] at stored
    exact (occupied_eq_some_iff.mp stored).2
  resting side price node member := by
    obtain ⟨inside, own⟩ := kept.holds.mem_of_node member
    exact ⟨kept.sound.positive side _ inside, kept.sound.sided side _ inside, own⟩
  uncrossed := kept.bestBid_lt

section Check

variable {sideName : String}

/-- A walk over levels in order, whose orders are in place, counts them and reports nothing. -/
theorem foldl_checkLevel {entries : List (Price × List OrderNode)} {walk : LevelWalk}
    (ordered : entries.Pairwise (fun first later => first.1 < later.1))
    (above : ∀ previous ∈ walk.previous, ∀ entry ∈ entries, previous < entry.1)
    (fine : ∀ entry ∈ entries, ∀ node ∈ entry.2,
      node.order.quantity ≠ 0 ∧ node.order.price = entry.1) :
    (entries.foldl (checkLevel sideName) walk).restingCount =
        walk.restingCount + (entries.flatMap Prod.snd).length ∧
      (entries.foldl (checkLevel sideName) walk).violations = walk.violations := by
  induction entries generalizing walk with
  | nil => simp
  | cons entry rest ih =>
    obtain ⟨least, tail⟩ := List.pairwise_cons.mp ordered
    have rising : walk.previous.any (fun previous => decide (entry.1 ≤ previous)) = false := by
      cases before : walk.previous with
      | none => rfl
      | some previous =>
        have lower := above previous before entry List.mem_cons_self
        simpa using lower
    have quiet : entry.2.flatMap (fun node => checkOrder sideName entry.1 node.order) = [] := by
      rw [List.flatMap_eq_nil_iff]
      intro node member
      obtain ⟨positive, placed⟩ := fine entry List.mem_cons_self node member
      simp [checkOrder, positive, placed]
    have next : ∀ previous ∈ (checkLevel sideName walk entry).previous, ∀ later ∈ rest,
        previous < later.1 := by
      intro previous before later member
      obtain rfl : entry.1 = previous := by simpa [checkLevel] using before
      exact least later member
    obtain ⟨count, violations⟩ :=
      ih tail next (fun later member => fine later (List.mem_cons_of_mem _ member))
    rw [List.foldl_cons, count, violations]
    simp only [checkLevel, rising, quiet, Bool.false_eq_true, ↓reduceIte, List.append_nil,
      List.flatMap_cons, List.length_append, Nat.add_assoc, and_self]

/-- The walk of a side of a well-formed book counts its nodes and reports nothing. -/
theorem WellFormed.walkLevels (formed : matcher.WellFormed) (side : Side) (walk : LevelWalk) :
    (walkLevels (matcher.levels side) sideName walk).restingCount =
        walk.restingCount + (matcher.sideNodes side).length ∧
      (walkLevels (matcher.levels side) sideName walk).violations = walk.violations := by
  have ordered : (matcher.levels side).toList.Pairwise
      (fun first later => first.1 < later.1) :=
    ExtTreeMap.ordered_keys_toList.imp Std.compare_eq_lt.mp
  apply foldl_checkLevel ordered
  · simp
  · rintro ⟨price, queue⟩ member node inside
    have stored := ExtTreeMap.mem_toList_iff_getElem?_eq_some.mp member
    have placed : node ∈ matcher.level side price := by
      simpa [level, ExtTreeMap.getD_eq_getD_getElem?, stored] using inside
    obtain ⟨positive, _, own⟩ := formed.resting side price node placed
    exact ⟨positive, own⟩

/-- The table has as many entries as orders rest. -/
theorem WellFormed.size_eq (formed : matcher.WellFormed) :
    matcher.nodes.length = matcher.orderTable.size := by
  have same : (matcher.nodes.map (fun node => node.order.id)).Perm matcher.orderTable.keys := by
    rw [List.perm_ext_iff_of_nodup formed.once ExtTreeMap.nodup_keys]
    intro id
    rw [ExtTreeMap.mem_keys, formed.keys id, List.mem_map]
  rw [← ExtTreeMap.length_keys, ← same.length_eq, List.length_map]

/-- Every stored iterator leads to the order of its id. -/
theorem WellFormed.checkLocations (formed : matcher.WellFormed) :
    ∀ entry ∈ matcher.orderTable.toList, matcher.checkLocation entry = some [] := by
  rintro ⟨id, location⟩ member
  have stored := ExtTreeMap.mem_toList_iff_getElem?_eq_some.mp member
  obtain ⟨node, _, found, own⟩ := formed.located id location stored
  simp [checkLocation, found, own]

/-- Checks that all report nothing report nothing together. -/
theorem mapM_eq_some_of_quiet {α β : Type} {check : α → Option (List β)} {entries : List α}
    (quiet : ∀ entry ∈ entries, check entry = some []) :
    entries.mapM check = some (entries.map (fun _ => [])) := by
  induction entries with
  | nil => rfl
  | cons entry rest ih =>
    have later := ih (fun other member => quiet other (List.mem_cons_of_mem _ member))
    rw [List.mapM_cons, quiet entry List.mem_cons_self, later]
    rfl

/-- A well-formed book passes the check. -/
theorem WellFormed.checkInvariants_eq (formed : matcher.WellFormed) :
    matcher.checkInvariants = some [] := by
  let start : LevelWalk := { restingCount := 0, previous := none, violations := [] }
  let bidWalk := ReferenceMatcher.walkLevels matcher.bids "bid" start
  let walked := ReferenceMatcher.walkLevels matcher.asks "ask" bidWalk
  obtain ⟨bidCount, bidFine⟩ : bidWalk.restingCount = 0 + _ ∧ bidWalk.violations = [] :=
    formed.walkLevels .buy start
  obtain ⟨askCount, askFine⟩ : walked.restingCount = _ ∧ walked.violations = _ :=
    formed.walkLevels .sell bidWalk
  have count : walked.restingCount = matcher.orderTable.size := by
    rw [askCount, bidCount, ← formed.size_eq, nodes, List.length_append, Nat.zero_add]
  have fine : walked.violations = [] := by rw [askFine, bidFine]
  have located := mapM_eq_some_of_quiet formed.checkLocations
  have uncrossed : (!matcher.bids.isEmpty && !matcher.asks.isEmpty &&
      !decide (matcher.bestBid < matcher.bestAsk)) = false := by
    cases bids : matcher.bids.isEmpty with
    | true => rfl
    | false =>
      cases asks : matcher.asks.isEmpty with
      | true => rfl
      | false => simpa using formed.uncrossed bids asks
  have checked : matcher.checkInvariants =
      (matcher.orderTable.toList.mapM matcher.checkLocation).bind (fun located =>
        some (walked.violations ++
          (if walked.restingCount ≠ matcher.orderTable.size then _ else []) ++
          located.flatten ++
          if !matcher.bids.isEmpty && !matcher.asks.isEmpty &&
            !decide (matcher.bestBid < matcher.bestAsk) then _ else [])) := rfl
  rw [checked, located, fine, uncrossed, if_neg (not_not.mpr count)]
  simp

end Check

end ReferenceMatcher

/-- In every state that calls reach from the empty book, none of them entering an id that is
resting, the reference matcher is well formed and `checkInvariants` reports no violation. -/
theorem reference_well_formed (calls : List MatcherCall)
    (enters : Admissible EntersNewId callMatcher ReferenceMatcher.init calls) (count : Nat) :
    let matcher := (run callMatcher ReferenceMatcher.init (calls.take count)).2
    matcher.WellFormed ∧ matcher.checkInvariants = some [] := by
  intro matcher
  obtain ⟨book, kept⟩ := ReferenceMatcher.kept_run (enters.take count)
  exact ⟨kept.wellFormed, kept.wellFormed.checkInvariants_eq⟩

/-- A run that sweeps one level, reduces the next and rests on neither, then cancels. -/
theorem reference_well_formed_sweep :
    let calls : List MatcherCall :=
      [.matchOrder { id := 1, side := .sell, price := 10, quantity := 5 },
        .addOrder { id := 2, side := .sell, price := 11, quantity := 4 },
        .matchOrder { id := 3, side := .buy, price := 12, quantity := 7 },
        .cancelOrder 2,
        .addOrder { id := 2, side := .buy, price := 9, quantity := 1 }]
    (run callMatcher ReferenceMatcher.init (calls.take 3)).2.checkInvariants = some [] :=
  (reference_well_formed _ (by decide +kernel) 3).2

end Titan
