import TitanEngine.Book.Invariants
import TitanEngine.Exchange.Lifecycle

/-!
# The invariant checks of the manager

`checkOrderManagerInvariants` of `src/book/invariants.cpp`, and what a check that reports nothing
establishes of a state that may be corrupted in any way. The table is compared with the book by its
size and by the ids its iterators lead to; by counting, that alone makes its keys the resting ids
and gives every node one entry. No run of the manager is ever reported.
-/

namespace Titan

open Library Std OrderManager

namespace ReferenceMatcher

variable {matcher : ReferenceMatcher}

/-- What a silent check of the matcher establishes. The side and the price of an entry, the side of
an order and an empty level are not looked at. -/
structure Checked (matcher : ReferenceMatcher) : Prop where
  /-- A resting order has something left and stands at its own price. -/
  placed : ∀ side price, ∀ node ∈ matcher.level side price,
    node.order.quantity ≠ 0 ∧ node.order.price = price
  /-- The keys of `orderTable` are the ids of the resting orders. -/
  keys : ∀ id, id ∈ matcher.orderTable ↔ ∃ node ∈ matcher.nodes, node.order.id = id
  /-- Each of them rests once. -/
  once : (matcher.nodes.map (fun node => node.order.id)).Nodup
  /-- No address is used twice. -/
  addresses : (matcher.nodes.map (fun node => node.address)).Nodup
  /-- Each iterator leads to the order of its key. -/
  located : ∀ id location, matcher.orderTable[id]? = some location →
    ∃ node, matcher.deref location.it = some node ∧ node.order.id = id
  /-- The highest bid is below the lowest ask. -/
  uncrossed : matcher.bids.isEmpty = false → matcher.asks.isEmpty = false →
    matcher.bestBid < matcher.bestAsk

section Walks

variable {sideName : String}

/-- An order in place is not reported, and no other is passed over. -/
theorem checkOrder_eq_nil_iff {price : Price} {order : Order} :
    checkOrder sideName price order = [] ↔ order.quantity ≠ 0 ∧ order.price = price := by
  unfold checkOrder
  by_cases empty : order.quantity = 0
  · simp [empty]
  · by_cases away : order.price = price
    · simp [empty, away]
    · simp [empty, away]

/-- A walk counts every node it passes. -/
theorem restingCount_foldl (entries : List (Price × List OrderNode)) (walk : LevelWalk) :
    (entries.foldl (checkLevel sideName) walk).restingCount =
      walk.restingCount + (entries.flatMap Prod.snd).length := by
  induction entries generalizing walk with
  | nil => simp
  | cons entry rest ih =>
    rw [List.foldl_cons, ih]
    simp only [checkLevel, List.flatMap_cons, List.length_append, Nat.add_assoc]

/-- What a walk that ends without a report has passed was in place. -/
theorem placed_of_foldl {entries : List (Price × List OrderNode)} {walk : LevelWalk}
    (quiet : (entries.foldl (checkLevel sideName) walk).violations = []) :
    walk.violations = [] ∧ ∀ entry ∈ entries, ∀ node ∈ entry.2,
      node.order.quantity ≠ 0 ∧ node.order.price = entry.1 := by
  induction entries generalizing walk with
  | nil => exact ⟨quiet, by simp⟩
  | cons entry rest ih =>
    obtain ⟨here, later⟩ := ih quiet
    simp only [checkLevel, List.append_eq_nil_iff] at here
    refine ⟨here.1.1, ?_⟩
    intro other member
    rcases List.mem_cons.mp member with rfl | member
    · intro node inside
      exact checkOrder_eq_nil_iff.mp (List.flatMap_eq_nil_iff.mp here.2 node inside)
    · exact later other member

/-- The walk of one side counts its nodes. -/
theorem restingCount_walkLevels (matcher : ReferenceMatcher) (side : Side) (walk : LevelWalk) :
    (walkLevels (matcher.levels side) sideName walk).restingCount =
      walk.restingCount + (matcher.sideNodes side).length :=
  restingCount_foldl _ _

/-- The walk of one side ends without a report exactly when it starts without one and every order
of the side is in place. -/
theorem walkLevels_quiet_iff (matcher : ReferenceMatcher) (side : Side) (walk : LevelWalk) :
    (walkLevels (matcher.levels side) sideName walk).violations = [] ↔
      walk.violations = [] ∧ ∀ price, ∀ node ∈ matcher.level side price,
        node.order.quantity ≠ 0 ∧ node.order.price = price := by
  constructor
  · intro quiet
    obtain ⟨before, placed⟩ := placed_of_foldl quiet
    refine ⟨before, ?_⟩
    intro price node member
    cases stored : (matcher.levels side)[price]? with
    | none => simp [level, ExtTreeMap.getD_eq_getD_getElem?, stored] at member
    | some queue =>
      have inside : node ∈ queue := by
        simpa [level, ExtTreeMap.getD_eq_getD_getElem?, stored] using member
      exact placed (price, queue) (ExtTreeMap.mem_toList_iff_getElem?_eq_some.mpr stored) node
        inside
  · rintro ⟨before, placed⟩
    have ordered : (matcher.levels side).toList.Pairwise
        (fun first later => first.1 < later.1) :=
      ExtTreeMap.ordered_keys_toList.imp Std.compare_eq_lt.mp
    refine (foldl_checkLevel ordered (by simp) ?_).2.trans before
    rintro ⟨price, queue⟩ member node inside
    have stored := ExtTreeMap.mem_toList_iff_getElem?_eq_some.mp member
    refine placed price node ?_
    simpa [level, ExtTreeMap.getD_eq_getD_getElem?, stored] using inside

end Walks

/-- Checks that report nothing together report nothing each. -/
theorem quiet_of_mapM {α β : Type} {check : α → Option (List β)} {entries : List α}
    {results : List (List β)} (checked : entries.mapM check = some results)
    (quiet : results.flatten = []) : ∀ entry ∈ entries, check entry = some [] := by
  induction entries generalizing results with
  | nil => simp
  | cons entry rest ih =>
    rw [List.mapM_cons] at checked
    cases here : check entry with
    | none =>
      rw [here] at checked
      cases checked
    | some result =>
      cases there : rest.mapM check with
      | none =>
        rw [here, there] at checked
        cases checked
      | some others =>
        rw [here, there] at checked
        obtain rfl : result :: others = results := Option.some.inj checked
        rw [List.flatten_cons, List.append_eq_nil_iff] at quiet
        intro other member
        rcases List.mem_cons.mp member with rfl | member
        · rw [here, quiet.1]
        · exact ih there quiet.2 other member

/-- An entry is not reported exactly when its iterator leads to the order of its key. -/
theorem checkLocation_eq_nil_iff {id : OrderId} {location : OrderLocation} :
    matcher.checkLocation (id, location) = some [] ↔
      ∃ node, matcher.deref location.it = some node ∧ node.order.id = id := by
  unfold checkLocation
  cases matcher.deref location.it with
  | none => simp
  | some node =>
    by_cases own : node.order.id = id
    · simp [own]
    · simp [own]

/-- What the check looks at. -/
theorem checkInvariants_eq_nil_iff : matcher.checkInvariants = some [] ↔
    (∀ side price, ∀ node ∈ matcher.level side price,
      node.order.quantity ≠ 0 ∧ node.order.price = price) ∧
    matcher.nodes.length = matcher.orderTable.size ∧
    (∀ entry ∈ matcher.orderTable.toList, matcher.checkLocation entry = some []) ∧
    (matcher.bids.isEmpty = false → matcher.asks.isEmpty = false →
      matcher.bestBid < matcher.bestAsk) := by
  let start : LevelWalk := { restingCount := 0, previous := none, violations := [] }
  let bidWalk := walkLevels matcher.bids "bid" start
  let walked := walkLevels matcher.asks "ask" bidWalk
  have count : walked.restingCount = matcher.nodes.length := by
    have bids : bidWalk.restingCount = 0 + _ := restingCount_walkLevels matcher .buy start
    have asks : walked.restingCount = _ := restingCount_walkLevels matcher .sell bidWalk
    rw [asks, bids, nodes, List.length_append, Nat.zero_add]
  have walks : walked.violations = [] ↔ ∀ side price, ∀ node ∈ matcher.level side price,
      node.order.quantity ≠ 0 ∧ node.order.price = price := by
    have bids : bidWalk.violations = [] ↔ _ := walkLevels_quiet_iff matcher .buy start
    have asks : walked.violations = [] ↔ _ := walkLevels_quiet_iff matcher .sell bidWalk
    rw [asks, bids]
    constructor
    · rintro ⟨⟨_, bid⟩, ask⟩ side
      cases side with
      | buy => exact bid
      | sell => exact ask
    · intro placed
      exact ⟨⟨rfl, placed .buy⟩, placed .sell⟩
  have unfolded : matcher.checkInvariants =
      (matcher.orderTable.toList.mapM matcher.checkLocation).bind (fun located =>
        some (walked.violations ++
          (if walked.restingCount ≠ matcher.orderTable.size then _ else []) ++
          located.flatten ++
          if !matcher.bids.isEmpty && !matcher.asks.isEmpty &&
            !decide (matcher.bestBid < matcher.bestAsk) then _ else [])) := rfl
  rw [unfolded, ← count, ← walks]
  constructor
  · intro quiet
    obtain ⟨located, checked, all⟩ := Option.bind_eq_some_iff.mp quiet
    have parts := Option.some.inj all
    simp only [List.append_eq_nil_iff] at parts
    obtain ⟨⟨⟨walk, counted⟩, flat⟩, crossed⟩ := parts
    refine ⟨walk, ?_, quiet_of_mapM checked flat, ?_⟩
    · by_contra differs
      rw [if_pos differs] at counted
      cases counted
    · intro bids asks
      by_contra through
      rw [if_pos (by simp [bids, asks, through])] at crossed
      cases crossed
  · rintro ⟨walk, counted, located, uncrossed⟩
    have clear : (!matcher.bids.isEmpty && !matcher.asks.isEmpty &&
        !decide (matcher.bestBid < matcher.bestAsk)) = false := by
      cases bids : matcher.bids.isEmpty with
      | true => rfl
      | false =>
        cases asks : matcher.asks.isEmpty with
        | true => rfl
        | false => simpa using uncrossed bids asks
    rw [mapM_eq_some_of_quiet located, walk, clear, if_neg (not_not.mpr counted)]
    simp

/-- A table as large as the book whose iterators lead to the orders of its keys has the resting ids
as its keys. -/
theorem keys_perm (size : matcher.nodes.length = matcher.orderTable.size)
    (located : ∀ id location, matcher.orderTable[id]? = some location →
      ∃ node, matcher.deref location.it = some node ∧ node.order.id = id) :
    matcher.orderTable.keys.Perm (matcher.nodes.map (fun node => node.order.id)) := by
  have inside : matcher.orderTable.keys ⊆ matcher.nodes.map (fun node => node.order.id) := by
    intro id key
    rw [ExtTreeMap.mem_keys, ExtTreeMap.mem_iff_isSome_getElem?, Option.isSome_iff_exists] at key
    obtain ⟨location, entry⟩ := key
    obtain ⟨node, found, own⟩ := located id location entry
    exact List.mem_map.mpr ⟨node, List.mem_of_find?_eq_some found, own⟩
  -- distinct keys, all of them resting ids, and no fewer than nodes
  refine (List.Nodup.subperm ExtTreeMap.nodup_keys inside).perm_of_length_le ?_
  rw [List.length_map, ExtTreeMap.length_keys, size]

/-- The entries of such a table lead to every node, so no address is used twice. -/
theorem nodup_addresses
    (keys : ∀ node ∈ matcher.nodes, node.order.id ∈ matcher.orderTable)
    (once : (matcher.nodes.map (fun node => node.order.id)).Nodup)
    (located : ∀ id location, matcher.orderTable[id]? = some location →
      ∃ node, matcher.deref location.it = some node ∧ node.order.id = id) :
    (matcher.nodes.map (fun node => node.address)).Nodup := by
  have led : ∀ node ∈ matcher.nodes, matcher.deref node.address = some node := by
    intro node member
    have key := keys node member
    rw [ExtTreeMap.mem_iff_isSome_getElem?, Option.isSome_iff_exists] at key
    obtain ⟨location, entry⟩ := key
    obtain ⟨other, found, own⟩ := located _ location entry
    have same : other = node :=
      List.inj_on_of_nodup_map once (List.mem_of_find?_eq_some found) member own
    subst same
    have address : other.address = location.it := by simpa using List.find?_some found
    rw [address]
    exact found
  refine once.of_map.map_on ?_
  intro first memberFirst second memberSecond same
  have found := led first memberFirst
  rw [same, led second memberSecond] at found
  exact (Option.some.inj found).symm

/-- The check is silent exactly on the states it establishes. -/
theorem checked_iff : matcher.checkInvariants = some [] ↔ matcher.Checked := by
  rw [checkInvariants_eq_nil_iff]
  constructor
  · rintro ⟨placed, size, quiet, uncrossed⟩
    have located : ∀ id location, matcher.orderTable[id]? = some location →
        ∃ node, matcher.deref location.it = some node ∧ node.order.id = id :=
      fun id location entry => checkLocation_eq_nil_iff.mp
        (quiet _ (ExtTreeMap.mem_toList_iff_getElem?_eq_some.mpr entry))
    have perm := keys_perm size located
    have keys : ∀ id, id ∈ matcher.orderTable ↔ ∃ node ∈ matcher.nodes, node.order.id = id := by
      intro id
      rw [← ExtTreeMap.mem_keys, perm.mem_iff, List.mem_map]
    have once := perm.nodup_iff.mp ExtTreeMap.nodup_keys
    exact
      { placed := placed
        keys := keys
        once := once
        addresses :=
          nodup_addresses (fun node member => (keys _).mpr ⟨node, member, rfl⟩) once located
        located := located
        uncrossed := uncrossed }
  · intro checked
    have perm : (matcher.nodes.map (fun node => node.order.id)).Perm matcher.orderTable.keys := by
      rw [List.perm_ext_iff_of_nodup checked.once ExtTreeMap.nodup_keys]
      intro id
      rw [ExtTreeMap.mem_keys, checked.keys id, List.mem_map]
    refine ⟨checked.placed, ?_, ?_, checked.uncrossed⟩
    · rw [← ExtTreeMap.length_keys, ← perm.length_eq, List.length_map]
    · rintro ⟨id, location⟩ member
      exact checkLocation_eq_nil_iff.mpr
        (checked.located id location (ExtTreeMap.mem_toList_iff_getElem?_eq_some.mp member))

end ReferenceMatcher

/-- `checkInvariants`: a matcher of another dynamic type is not looked into. -/
def Matcher.checkInvariants : Matcher → Option (List InvariantViolation)
  | .reference matcher => matcher.checkInvariants
  | .optimized _ => some []

/-- `dynamic_cast<const ReferenceMatcher*>`. -/
def Matcher.reference? : Matcher → Option ReferenceMatcher
  | .reference matcher => some matcher
  | .optimized _ => none

namespace OrderManager

variable {M : Type}

/-- The two checks of one active id. -/
def checkActive (manager : OrderManager M) (reference : Option ReferenceMatcher) (id : OrderId) :
    List InvariantViolation :=
  (if (manager.statusOf id).any (fun status =>
      decide (status = .new) || decide (status = .partiallyFilled)) then []
  else
    [{ name := "StatusConsistentWithActive"
       detail := "active order " ++ toString id ++ " has a non-resting status" }]) ++
  (if reference.any (fun matcher => !matcher.orderTable.contains id) then
    [{ name := "ActiveIdsSubsetOfOrderTable"
       detail := "active order " ++ toString id ++ " missing from matcher orderTable" }]
  else [])

/-- `checkShadow`. -/
def checkShadow (shadow : Shadow) (real : PriceLevels) (sideName : String) :
    List InvariantViolation :=
  shadow.toList.flatMap (fun entry =>
    if (real.getD entry.1 []).map (fun node => node.order.id) ≠ entry.2 then
      [{ name := "ShadowQueueMatchesMatcherFifo"
         detail := sideName ++ " price " ++ toString entry.1 ++
           " shadow/matcher FIFO order mismatch" }]
    else [])

/-- `checkOrderManagerInvariants`. The active ids are walked in order; the source walks them in the
order of its hash set. -/
def checkOrderManagerInvariants (manager : OrderManager M) (matcher : Matcher) :
    Option (List InvariantViolation) :=
  matcher.checkInvariants.map (fun violations =>
    violations ++
      manager.activeOrderIds.toList.flatMap (manager.checkActive matcher.reference?) ++
      match matcher.reference? with
      | some reference =>
        checkShadow manager.restingBidsAt reference.bids "bid" ++
          checkShadow manager.restingAsksAt reference.asks "ask"
      | none => [])

/-- What a silent check of the manager establishes. That every resting order is active, that every
level of the book has its shadow and that the ids of a shadow are active is not looked at; over the
optimized matcher neither is the book nor the shadow. -/
structure Checked (manager : OrderManager M) (matcher : Matcher) : Prop where
  /-- The record of an active id is that of an order that may trade. -/
  live : ∀ id ∈ manager.activeOrderIds, ∃ status, manager.statusOf id = some status ∧ status.Live
  /-- The reference matcher passes its own check. -/
  book : ∀ reference, matcher = .reference reference → reference.Checked
  /-- An active id rests in the reference matcher. -/
  rests : ∀ reference, matcher = .reference reference → ∀ id ∈ manager.activeOrderIds,
    ∃ node ∈ reference.nodes, node.order.id = id
  /-- A shadow queue is the queue of the reference matcher. -/
  queues : ∀ reference, matcher = .reference reference → ∀ side price ids,
    (manager.shadow side)[price]? = some ids →
      (reference.level side price).map (fun node => node.order.id) = ids

/-- An active id is not reported exactly when its record may trade and it is in the table. -/
theorem checkActive_eq_nil_iff {manager : OrderManager M} {reference : Option ReferenceMatcher}
    {id : OrderId} : manager.checkActive reference id = [] ↔
      (∃ status, manager.statusOf id = some status ∧ status.Live) ∧
        ∀ matcher, reference = some matcher → id ∈ matcher.orderTable := by
  have status : (manager.statusOf id).any (fun status =>
      decide (status = .new) || decide (status = .partiallyFilled)) = true ↔
      ∃ status, manager.statusOf id = some status ∧ status.Live := by
    cases manager.statusOf id with
    | none => simp
    | some status => simp [OrderStatus.Live]
  have table : reference.any (fun matcher => !matcher.orderTable.contains id) = true ↔
      ¬ ∀ matcher, reference = some matcher → id ∈ matcher.orderTable := by
    cases reference with
    | none => simp
    | some matcher => simp [← Bool.not_eq_true, ExtTreeMap.contains_iff_mem]
  rw [← status]
  unfold checkActive
  by_cases present : ∀ matcher, reference = some matcher → id ∈ matcher.orderTable
  · rw [if_neg (fun missing => table.mp missing present)]
    by_cases live : (manager.statusOf id).any (fun status =>
        decide (status = .new) || decide (status = .partiallyFilled)) = true
    · rw [if_pos live]
      exact iff_of_true rfl ⟨live, present⟩
    · rw [if_neg live]
      exact iff_of_false (by simp) (fun both => live both.1)
  · rw [if_pos (table.mpr present)]
    exact iff_of_false (by simp) (fun both => present both.2)

/-- A shadow is not reported exactly when each of its queues is the matcher's. -/
theorem checkShadow_eq_nil_iff {shadow : Shadow} {real : PriceLevels} {sideName : String} :
    checkShadow shadow real sideName = [] ↔ ∀ price ids, shadow[price]? = some ids →
      (real.getD price []).map (fun node => node.order.id) = ids := by
  unfold checkShadow
  rw [List.flatMap_eq_nil_iff]
  constructor
  · intro quiet price ids stored
    have here := quiet (price, ids) (ExtTreeMap.mem_toList_iff_getElem?_eq_some.mpr stored)
    by_contra differs
    rw [if_pos differs] at here
    cases here
  · rintro equal ⟨price, ids⟩ member
    have stored := ExtTreeMap.mem_toList_iff_getElem?_eq_some.mp member
    exact if_neg (not_not.mpr (equal price ids stored))

/-- The manager's check, with the active ids spelled out. -/
theorem checkActive_quiet_iff {manager : OrderManager M} {reference : Option ReferenceMatcher} :
    manager.activeOrderIds.toList.flatMap (manager.checkActive reference) = [] ↔
      ∀ id ∈ manager.activeOrderIds,
        (∃ status, manager.statusOf id = some status ∧ status.Live) ∧
          ∀ matcher, reference = some matcher → id ∈ matcher.orderTable := by
  rw [List.flatMap_eq_nil_iff]
  constructor
  · intro quiet id active
    exact checkActive_eq_nil_iff.mp (quiet id (ExtTreeSet.mem_toList.mpr active))
  · intro held id member
    exact checkActive_eq_nil_iff.mpr (held id (ExtTreeSet.mem_toList.mp member))

/-- On every state of the manager and of its matcher, corrupted or not, the check dereferences no
dangling iterator and reports nothing exactly when `Checked` holds. -/
theorem checkOrderManagerInvariants_exact (manager : OrderManager M) (matcher : Matcher) :
    manager.checkOrderManagerInvariants matcher = some [] ↔ manager.Checked matcher := by
  unfold checkOrderManagerInvariants
  cases matcher with
  | optimized matcher =>
    simp only [Matcher.checkInvariants, Matcher.reference?, Option.map_some, Option.some.injEq,
      List.nil_append, List.append_nil]
    rw [checkActive_quiet_iff]
    constructor
    · intro held
      exact
        { live := fun id active => (held id active).1
          book := fun _ other => by cases other
          rests := fun _ other => by cases other
          queues := fun _ other => by cases other }
    · intro checked id active
      exact ⟨checked.live id active, fun _ other => by cases other⟩
  | reference matcher =>
    simp only [Matcher.checkInvariants, Matcher.reference?, Option.map_eq_some_iff,
      List.append_eq_nil_iff]
    constructor
    · rintro ⟨violations, quiet, ⟨rfl, active⟩, bids, asks⟩
      have book := ReferenceMatcher.checked_iff.mp quiet
      rw [checkActive_quiet_iff] at active
      refine
        { live := fun id member => (active id member).1
          book := ?_
          rests := ?_
          queues := ?_ }
      · rintro reference ⟨⟩
        exact book
      · rintro reference ⟨⟩ id member
        exact (book.keys id).mp ((active id member).2 matcher rfl)
      · rintro reference ⟨⟩ side
        cases side with
        | buy => exact checkShadow_eq_nil_iff.mp bids
        | sell => exact checkShadow_eq_nil_iff.mp asks
    · intro checked
      have book := checked.book matcher rfl
      refine ⟨[], ReferenceMatcher.checked_iff.mpr book, ⟨rfl, ?_⟩, ?_, ?_⟩
      · rw [checkActive_quiet_iff]
        intro id member
        refine ⟨checked.live id member, ?_⟩
        rintro reference ⟨⟩
        exact (book.keys id).mpr (checked.rests matcher rfl id member)
      · exact checkShadow_eq_nil_iff.mpr (checked.queues matcher rfl .buy)
      · exact checkShadow_eq_nil_iff.mpr (checked.queues matcher rfl .sell)

end OrderManager

namespace Matcher

/-- No address of the reference matcher is used twice. -/
def Apart : Matcher → Prop
  | .reference matcher => matcher.AddressesApart
  | .optimized _ => True

/-- Matchers are lawful with their addresses kept apart, too. -/
@[reducible] def lawfulApart : LawfulMatcher Matcher where
  Represents matcher book := matcher.Holds book ∧ matcher.Apart
  groups kept := LawfulMatcher.groups (M := Matcher) kept.1
  addOrder_spec {matcher _} order kept sound fresh := by
    refine ⟨LawfulMatcher.addOrder_spec (M := Matcher) order kept.1 sound fresh, ?_⟩
    cases matcher with
    | reference matcher =>
      exact ReferenceMatcher.Kept.apart_addOrder ⟨sound, kept.1, kept.2⟩
    | optimized matcher => trivial
  matchOrder_spec {matcher _} order kept sound fresh := by
    obtain ⟨trades, held⟩ := LawfulMatcher.matchOrder_spec (M := Matcher) order kept.1 sound fresh
    refine ⟨trades, held, ?_⟩
    cases matcher with
    | reference matcher =>
      exact ReferenceMatcher.Kept.apart_addOrder ⟨sound, kept.1, kept.2⟩
    | optimized matcher => trivial
  cancelOrder_spec {matcher _} id kept sound := by
    refine ⟨LawfulMatcher.cancelOrder_spec (M := Matcher) id kept.1 sound, ?_⟩
    cases matcher with
    | reference matcher => exact kept.2.removeOrder id
    | optimized matcher => trivial
  bestBid_spec kept := LawfulMatcher.bestBid_spec (M := Matcher) kept.1
  bestAsk_spec kept := LawfulMatcher.bestAsk_spec (M := Matcher) kept.1
  bidDepth_spec kept := LawfulMatcher.bidDepth_spec (M := Matcher) kept.1
  askDepth_spec kept := LawfulMatcher.askDepth_spec (M := Matcher) kept.1

/-- A new matcher has no addresses in use. -/
theorem apart_makeMatcher (allocator : SlabAllocator) (backend : MatcherBackend) :
    (makeMatcher allocator backend).Apart := by
  cases backend with
  | reference => exact ReferenceMatcher.apart_init
  | optimized => trivial

end Matcher

namespace OrderManager

/-- Along every run of the manager the addresses stay apart. -/
theorem apart_run (allocator : SlabAllocator) (backend : MatcherBackend)
    (calls : List ManagerCall) :
    (run callManager (init (makeMatcher allocator backend)) calls).2.matcher.Apart := by
  let _ := Matcher.lawfulApart
  have start : Represents (makeMatcher allocator backend) Book.empty :=
    ⟨Matcher.holds_makeMatcher allocator backend, Matcher.apart_makeMatcher allocator backend⟩
  exact (mirrors_run start calls).tracks.represents.2

/-- After every call of every run, with any arguments and over either matcher, the check reports
nothing. -/
theorem checkOrderManagerInvariants_silent (allocator : SlabAllocator) (backend : MatcherBackend)
    (calls : List ManagerCall) :
    let manager := (run callManager (init (makeMatcher allocator backend)) calls).2
    manager.checkOrderManagerInvariants manager.matcher = some [] := by
  intro manager
  have holds := Matcher.holds_makeMatcher allocator backend
  have mirrors := mirrors_run holds calls
  have recorded : Represents (Recorded.start (makeMatcher allocator backend)) Book.empty := holds
  have life := (mirrors_init recorded).lifecycle_run Ledger.lifecycle_empty calls
  have sound := mirrors.consistent.sound
  have represents : ∀ reference, manager.matcher = .reference reference →
      reference.Holds (run callLedger Ledger.empty calls).2.book := by
    intro reference shown
    have represents : manager.matcher.Holds _ := mirrors.tracks.represents
    rw [shown] at represents
    exact represents
  have formed : ∀ reference, manager.matcher = .reference reference → reference.WellFormed := by
    intro reference shown
    have apart : manager.matcher.Apart := apart_run allocator backend calls
    rw [shown] at apart
    exact ReferenceMatcher.Kept.wellFormed ⟨sound, represents reference shown, apart⟩
  rw [checkOrderManagerInvariants_exact]
  refine
    { live := ?_
      book := fun reference shown =>
        ReferenceMatcher.checked_iff.mp (formed reference shown).checkInvariants_eq
      rests := ?_
      queues := ?_ }
  · intro id active
    have held : (run callLedger Ledger.empty calls).2.holds id = true := by
      rw [← mirrors.contains_active id]
      exact ExtTreeSet.contains_iff_mem.mpr active
    have known := (life.known id).mp (mirrors.consistent.known_of_holds held)
    obtain ⟨record, found⟩ := Option.isSome_iff_exists.mp known
    have recorded : manager.orders[id]? = some record := by
      rw [← found]
      exact congrArg (·[id]?) mirrors.records
    exact ⟨record.status, by rw [statusOf, recorded, Option.map_some],
      (life.live id record found).mp held⟩
  · intro reference shown id active
    have resting := (mirrors.tracks.active id).mp active
    simp only [Book.Fresh, not_forall, ne_eq, not_not] at resting
    obtain ⟨side, order, member, own⟩ := resting
    obtain ⟨node, inside, held⟩ := (represents reference shown).node_of_mem member
    exact ⟨node, ReferenceMatcher.mem_nodes.mpr ⟨side, order.price, inside⟩, by rw [held, own]⟩
  · intro reference shown side price ids stored
    rw [mirrors.tracks.shadows side price] at stored
    have queue := (represents reference shown).orders side price
    rw [← (occupied_eq_some_iff.mp stored).1, ← queue, List.map_map]
    rfl

end OrderManager

end Titan
