import TitanEngine.Exchange.RegistryRuns
import TitanEngine.Library.Tally

/-!
# The totals that a snapshot shows

Each level of a snapshot carries the sum of the quantities that rest at its price, added up in a
64-bit word. Nothing bounds the quantity of an order or the number of orders of a level, so the
word is the sum exactly when the sum fits.
-/

namespace Titan

open Library Std

/-- The sum of the quantities of some orders. -/
def totalQuantity (orders : List Order) : Nat :=
  (orders.map (fun order => order.quantity.toNat)).sum

/-- No order has more than the total. -/
theorem quantity_le_total {orders : List Order} {order : Order} (member : order ∈ orders) :
    order.quantity.toNat ≤ totalQuantity orders :=
  List.single_le_sum (fun _ _ => Nat.zero_le _) _ (List.mem_map_of_mem member)

/-- A level carries the total of a queue, which is not zero and no less than any order of it. -/
def PriceLevel.Exact (queue : List Order) (level : PriceLevel) : Prop :=
  level.quantity.toNat = totalQuantity queue ∧ level.quantity ≠ 0 ∧
    ∀ order ∈ queue, order.quantity ≤ level.quantity

/-- The wrapping sum of a queue is exact when the total fits a word. -/
theorem exact_sum_iff {queue : List Order} (nonempty : queue ≠ [])
    (positive : ∀ order ∈ queue, order.quantity ≠ 0) (price : Price) :
    PriceLevel.Exact queue
        { price := price, quantity := (queue.map (fun order => order.quantity)).sum } ↔
      totalQuantity queue < 2 ^ 64 := by
  have words : UInt64.ofNat (totalQuantity queue) =
      (queue.map (fun order => order.quantity)).sum := by
    rw [← ofNat_sum_toNat, List.map_map]
    rfl
  unfold PriceLevel.Exact
  rw [← words]
  constructor
  · intro exact_
    have bound := (UInt64.ofNat (totalQuantity queue)).toNat_lt
    rw [exact_.1] at bound
    exact bound
  · intro fits
    have whole : (UInt64.ofNat (totalQuantity queue)).toNat = totalQuantity queue :=
      UInt64.toNat_ofNat_of_lt' fits
    have covers : ∀ order ∈ queue, order.quantity ≤ UInt64.ofNat (totalQuantity queue) := by
      intro order member
      rw [UInt64.le_iff_toNat_le, whole]
      exact quantity_le_total member
    refine ⟨whole, ?_, covers⟩
    obtain ⟨first, member⟩ := List.exists_mem_of_ne_nil queue nonempty
    intro zero
    have nothing : UInt64.ofNat (totalQuantity queue) = 0 := zero
    have below := covers first member
    rw [nothing] at below
    exact positive first member (UInt64.le_zero_iff.mp below)

namespace InstrumentRegistry

/-- The levels of a side of an instrument, best first, each with its queue. -/
def levelsOf (registry : InstrumentRegistry) (symbol : Symbol) (side : Side) :
    List (Price × List Order) :=
  match registry.find symbol with
  | none => []
  | some instrument => bestFirst side (restingLevels instrument.manager.matcher side)

/-- The orders that rest at a price of a side of an instrument. -/
def queueOf (registry : InstrumentRegistry) (symbol : Symbol) (side : Side) (price : Price) :
    List Order :=
  match registry.find symbol with
  | none => []
  | some instrument => queueAt instrument.manager.matcher side price

/-- Every level of a snapshot carries the exact total of what rests at its price. -/
def ExactDepth (registry : InstrumentRegistry) (symbol : Symbol) (depth : Nat) : Prop :=
  (∀ level ∈ (registry.snapshot symbol depth).1.bids,
    level.Exact (registry.queueOf symbol .buy level.price)) ∧
  ∀ level ∈ (registry.snapshot symbol depth).1.asks,
    level.Exact (registry.queueOf symbol .sell level.price)

/-- The totals of the first levels of both sides fit a word. -/
def Fits (registry : InstrumentRegistry) (symbol : Symbol) (depth : Nat) : Prop :=
  ∀ side, ∀ entry ∈ (registry.levelsOf symbol side).take depth, totalQuantity entry.2 < 2 ^ 64

end InstrumentRegistry

section Depth

variable {M : Type} [LawfulMatcher M] {matcher : M} {book : Book}

/-- The levels a matcher shows are those of its book. -/
theorem restingLevels_eq (represents : Represents matcher book) (side : Side) :
    restingLevels matcher side = book.levels side := by
  have queues := (groups_collect (fun order : Order => order.price) (book.side side))
  exact (LawfulMatcher.groups represents side).unique queues

/-- The levels of a depth are exact when their totals fit. -/
theorem exact_depth_iff (represents : Represents matcher book) (sound : book.Sound)
    (side : Side) (depth : Nat) :
    (∀ level ∈ book.depth side depth, level.Exact (queueAt matcher side level.price)) ↔
      ∀ entry ∈ (bestFirst side (restingLevels matcher side)).take depth,
        totalQuantity entry.2 < 2 ^ 64 := by
  rw [Book.depth, depthFrom, ← restingLevels_eq represents side, List.forall_mem_map]
  refine forall_congr' (fun entry => forall_congr' (fun member => ?_))
  have inside : (restingLevels matcher side)[entry.1]? = some entry.2 := by
    rw [← ExtTreeMap.mem_toList_iff_getElem?_eq_some]
    have listed := List.mem_of_mem_take member
    cases side with
    | buy => exact List.mem_reverse.mp listed
    | sell => exact listed
  have queue : queueAt matcher side entry.1 = entry.2 := by rw [queueAt, inside, Option.getD_some]
  have grouped := LawfulMatcher.groups represents side entry.1
  rw [inside, Option.map_id_fun, id_eq, eq_comm, occupied_eq_some_iff] at grouped
  rw [queue]
  refine exact_sum_iff ?_ ?_ entry.1
  · exact grouped.2
  · intro order member
    rw [← grouped.1] at member
    exact sound.positive side order (mem_group.mp member).1

end Depth

namespace InstrumentRegistry

/-- The snapshots of a registry that keeps a market are exact when the totals fit. -/
theorem Mirrors.exactDepth_iff {registry : InstrumentRegistry} {market : Market}
    (mirrors : registry.Mirrors market) (symbol : Symbol) (depth : Nat) :
    registry.ExactDepth symbol depth ↔ registry.Fits symbol depth := by
  unfold ExactDepth Fits queueOf levelsOf
  rw [(mirrors.snapshot symbol depth).1]
  cases found : registry.find symbol with
  | none =>
    rw [Market.snapshot, mirrors.unlisted found]
    simp
  | some instrument =>
    obtain ⟨listing, listed, kept⟩ := mirrors.listing found
    have levels := exact_depth_iff kept.manager.tracks.represents kept.manager.consistent.sound
    rw [Market.snapshot, listed]
    constructor
    · rintro ⟨bids, asks⟩ side
      cases side with
      | buy => exact (levels .buy depth).mp bids
      | sell => exact (levels .sell depth).mp asks
    · exact fun fits =>
        ⟨(levels .buy depth).mpr (fits .buy), (levels .sell depth).mpr (fits .sell)⟩

/-- Whatever calls a registry received, over either matcher, a snapshot of any symbol to any depth
carries the exact totals, none of them zero or below the quantity of an order of the level,
exactly when the totals of the levels it shows fit a word. -/
theorem snapshot_exact_iff (allocator : SlabAllocator) (backend : MatcherBackend)
    (calls : List RegistryCall) (symbol : Symbol) (depth : Nat) :
    let registry := (run callRegistry (init allocator backend) calls).2
    registry.ExactDepth symbol depth ↔ registry.Fits symbol depth :=
  ((mirrors_init allocator backend).run calls).2.exactDepth_iff symbol depth

/-- Two bids of 2^63 at one price are accepted and shown as a level of nothing. -/
theorem snapshot_shows_nothing :
    let calls : List RegistryCall :=
      [.createInstrument [65],
        .submitOrder [65] { id := 1, side := .buy, price := 10, quantity := 2 ^ 63 },
        .submitOrder [65] { id := 2, side := .buy, price := 10, quantity := 2 ^ 63 }]
    let ran := run callRegistry (init (.consecutive 2 (by decide)) .reference) calls
    ran.1 = [.created, .accept .ok, .accept .ok] ∧
      (ran.2.snapshot [65] 1).1.bids = [{ price := 10, quantity := 0 }] ∧
      totalQuantity (ran.2.queueOf [65] .buy 10) = 2 ^ 64 ∧
      ¬ ran.2.ExactDepth [65] 1 := by
  intro calls ran
  have shown : (ran.2.snapshot [65] 1).1.bids = [{ price := 10, quantity := 0 }] := by
    decide +kernel
  refine ⟨by decide +kernel, shown, by decide +kernel, ?_⟩
  intro exact_
  have level := exact_.1 { price := 10, quantity := 0 } (by rw [shown]; exact List.mem_cons_self)
  exact level.2.1 rfl

end InstrumentRegistry

end Titan
