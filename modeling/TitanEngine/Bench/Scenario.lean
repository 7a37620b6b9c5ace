import Mathlib.Logic.Function.Basic
import TitanEngine.Core.Types
import TitanEngine.Library.Machine

/-!
# Generated scenarios

`Scenario::generateOrders` of `titan/bench/scenario.hpp`, which makes up the operations that the
benchmarks replay. What it draws from is a parameter: the generator with its distributions, and
the numbers the weights are, of which nothing is assumed. Whatever is drawn, an id is entered once,
and a cancel names an order that was added on its symbol and not cancelled before.
-/

namespace Titan

open Library

/-- `ScenarioOpType`. -/
inductive ScenarioOpType where
  | add
  | cancel
  | match
  | snapshot
  deriving DecidableEq, Repr

/-- `ScenarioOp`. -/
structure ScenarioOp where
  /-- What is done. -/
  type : ScenarioOpType
  /-- Which symbol it is done on. -/
  symbolIndex : UInt32
  /-- The order it enters or names. -/
  orderId : OrderId
  /-- Side of the order. -/
  side : Side
  /-- Price of the order. -/
  price : Price
  /-- Quantity of the order. -/
  quantity : Quantity
  deriving DecidableEq, Repr

/-- `Scenario`, as far as `generateOrders` reads it; the weights are of a type `W`. -/
structure Scenario (W : Type) where
  /-- Number of symbols. -/
  symbolCount : UInt32
  /-- Number of operations. -/
  orderCount : UInt64
  /-- Share of the orders added. -/
  addWeight : W
  /-- Share of the cancels. -/
  cancelWeight : W
  /-- Share of the orders matched. -/
  matchWeight : W
  /-- Share of the snapshots. -/
  snapshotWeight : W

/-- `std::mt19937` and the three distributions over it. -/
structure RandomSource (W Rng : Type) where
  /-- The generator with a seed. -/
  seeded : UInt32 → Rng
  /-- The next number. -/
  next : Rng → UInt32 × Rng
  /-- A real between zero and one. -/
  unit : Rng → W × Rng
  /-- A price. -/
  priceDist : Rng → Price × Rng
  /-- A quantity. -/
  qtyDist : Rng → Quantity × Rng
  /-- Prices are drawn from 90 to 110. -/
  price_range : ∀ rng, 90 ≤ (priceDist rng).1 ∧ (priceDist rng).1 ≤ 110
  /-- Quantities are drawn from 1 to 100. -/
  qty_range : ∀ rng, 1 ≤ (qtyDist rng).1 ∧ (qtyDist rng).1 ≤ 100

/-- The locals of the loop. -/
structure ScenarioState (Rng : Type) where
  /-- `rng`. -/
  rng : Rng
  /-- `activeIdsPerSymbol`. -/
  activeIds : UInt32 → List OrderId
  /-- `nextId`. -/
  nextId : OrderId

namespace Scenario

variable {W Rng : Type} [Zero W] [Add W] [Mul W] [LT W] [DecidableLT W]

/-- `total`. -/
def total (scenario : Scenario W) : W :=
  scenario.addWeight + scenario.cancelWeight + scenario.matchWeight + scenario.snapshotWeight

/-- `symbols`. -/
def symbols (scenario : Scenario W) : UInt32 :=
  if scenario.symbolCount > 0 then scenario.symbolCount else 1

/-- The chain of comparisons; the second one adds to `cumulative` even where nothing is active. -/
def typeOf (scenario : Scenario W) (roll : W) (idle : Bool) : ScenarioOpType :=
  if roll < scenario.addWeight then .add
  else if roll < scenario.addWeight + scenario.cancelWeight ∧ idle = false then .cancel
  else if roll < scenario.addWeight + scenario.cancelWeight + scenario.matchWeight then .match
  else .snapshot

/-- The part of one pass that draws; the id is still zero. -/
def draw (scenario : Scenario W) (source : RandomSource W Rng) (state : ScenarioState Rng) :
    ScenarioOp × Rng :=
  let (picked, rng) := source.next state.rng
  let symbolIndex := picked % scenario.symbols
  let (roll, rng) :=
    if scenario.total > 0 then
      let (share, rng) := source.unit rng
      (share * scenario.total, rng)
    else (0, rng)
  let type := scenario.typeOf roll (state.activeIds symbolIndex).isEmpty
  let (coin, rng) := source.next rng
  let (price, rng) := source.priceDist rng
  let (quantity, rng) := source.qtyDist rng
  ({ type := type
     symbolIndex := symbolIndex
     orderId := 0
     side := if coin % 2 = 0 then .buy else .sell
     price := price
     quantity := quantity }, rng)

/-- The part of one pass that finds the id: a cancel takes the last active one of its symbol, and
everything else the next new one. -/
def assign (state : ScenarioState Rng) (op : ScenarioOp) : ScenarioOp × ScenarioState Rng :=
  let activeIds := state.activeIds op.symbolIndex
  match activeIds.getLast?, decide (op.type = .cancel) with
  | some last, true =>
    ({ op with orderId := last },
      { state with
        activeIds := Function.update state.activeIds op.symbolIndex activeIds.dropLast })
  | _, _ =>
    ({ op with orderId := state.nextId },
      { state with
        activeIds :=
          if op.type = .add then
            Function.update state.activeIds op.symbolIndex (activeIds ++ [state.nextId])
          else state.activeIds
        nextId := state.nextId + 1 })

/-- One pass of the loop. -/
def generate (scenario : Scenario W) (source : RandomSource W Rng) (state : ScenarioState Rng)
    (_ : Unit) : ScenarioOp × ScenarioState Rng :=
  let (op, rng) := scenario.draw source state
  assign { state with rng := rng } op

/-- `generateOrders`. -/
def generateOrders (scenario : Scenario W) (source : RandomSource W Rng) (seed : UInt32) :
    List ScenarioOp :=
  let start : ScenarioState Rng :=
    { rng := source.seeded seed, activeIds := fun _ => [], nextId := 1 }
  (run (scenario.generate source) start (List.replicate scenario.orderCount.toNat ())).1

end Scenario

/-- What an operation may be after the earlier ones. -/
structure ScenarioOp.Follows (symbols : UInt32) (earlier : List ScenarioOp) (op : ScenarioOp) :
    Prop where
  /-- It is on one of the symbols. -/
  symbol : op.symbolIndex < symbols
  /-- Its price is drawn. -/
  price : 90 ≤ op.price ∧ op.price ≤ 110
  /-- So is its quantity. -/
  quantity : 1 ≤ op.quantity ∧ op.quantity ≤ 100
  /-- An id that is not cancelled is new. -/
  fresh : op.type ≠ .cancel → ∀ other ∈ earlier, other.orderId ≠ op.orderId
  /-- An id that is cancelled was added on the same symbol. -/
  added : op.type = .cancel → ∃ other ∈ earlier, other.type = .add ∧
    other.symbolIndex = op.symbolIndex ∧ other.orderId = op.orderId
  /-- It was not cancelled before. -/
  once : op.type = .cancel →
    ∀ other ∈ earlier, other.type = .cancel → other.orderId ≠ op.orderId

namespace ScenarioState

variable {Rng : Type} {state : ScenarioState Rng} {earlier : List ScenarioOp}

/-- The locals fit the operations made so far. -/
structure Keeps (state : ScenarioState Rng) (earlier : List ScenarioOp) : Prop where
  /-- The ids so far are the numbers up to some count, and the next one is new. -/
  counted : ∃ count ≤ earlier.length, state.nextId = UInt64.ofNat (count + 1) ∧
    ∀ op ∈ earlier, op.orderId.toNat ≤ count
  /-- An active id was added on its symbol. -/
  added : ∀ symbol, ∀ id ∈ state.activeIds symbol,
    ∃ op ∈ earlier, op.type = .add ∧ op.symbolIndex = symbol ∧ op.orderId = id
  /-- It was not cancelled. -/
  open_ : ∀ symbol, ∀ id ∈ state.activeIds symbol,
    ∀ op ∈ earlier, op.type = .cancel → op.orderId ≠ id
  /-- It is active once on its symbol. -/
  distinct : ∀ symbol, (state.activeIds symbol).Nodup
  /-- It is active on no other one. -/
  apart : ∀ left right id, id ∈ state.activeIds left → id ∈ state.activeIds right → left = right

/-- An id that is new. -/
theorem Keeps.nextId (keeps : state.Keeps earlier) (short : earlier.length + 1 < 2 ^ 64) :
    ∀ op ∈ earlier, op.orderId ≠ state.nextId := by
  obtain ⟨count, bound, next, below⟩ := keeps.counted
  intro op member same
  have small := below op member
  rw [same, next, UInt64.toNat_ofNat_of_lt' (by simp only [UInt64.size]; omega)] at small
  omega

/-- Entering a new id keeps the locals in step. -/
theorem Keeps.enter (keeps : state.Keeps earlier) (short : earlier.length + 1 < 2 ^ 64)
    {op : ScenarioOp} (own : op.orderId = state.nextId) (enters : op.type ≠ .cancel) :
    ({ state with
      activeIds :=
        if op.type = .add then
          Function.update state.activeIds op.symbolIndex
            (state.activeIds op.symbolIndex ++ [state.nextId])
        else state.activeIds
      nextId := state.nextId + 1 } : ScenarioState Rng).Keeps (earlier ++ [op]) := by
  have new := keeps.nextId short
  have inactive : ∀ symbol, state.nextId ∉ state.activeIds symbol := by
    intro symbol active
    obtain ⟨other, member, _, _, same⟩ := keeps.added symbol _ active
    exact new other member same
  -- an id that is active afterwards was active before, or is the new one on its symbol
  have active : ∀ symbol, ∀ id ∈ (if op.type = .add then
      Function.update state.activeIds op.symbolIndex
        (state.activeIds op.symbolIndex ++ [state.nextId])
      else state.activeIds) symbol, id ∈ state.activeIds symbol ∨
        (op.type = .add ∧ symbol = op.symbolIndex ∧ id = state.nextId) := by
    intro symbol id listed
    split_ifs at listed with adds
    · by_cases here : symbol = op.symbolIndex
      · subst here
        rw [Function.update_self] at listed
        rcases List.mem_append.mp listed with before | last
        · exact .inl before
        · exact .inr ⟨adds, rfl, List.mem_singleton.mp last⟩
      · rw [Function.update_of_ne here] at listed
        exact .inl listed
    · exact .inl listed
  constructor
  · obtain ⟨count, bound, next, below⟩ := keeps.counted
    refine ⟨count + 1, by simpa using bound, ?_, ?_⟩
    · show state.nextId + 1 = _
      rw [next, UInt64.ofNat_add (count + 1) 1]
      rfl
    · intro other member
      rcases List.mem_append.mp member with before | last
      · exact (below other before).trans (Nat.le_succ count)
      · rw [List.mem_singleton.mp last, own, next]
        exact Nat.le_of_eq (UInt64.toNat_ofNat_of_lt' (by simp only [UInt64.size]; omega))
  · intro symbol id listed
    rcases active symbol id listed with before | ⟨adds, here, new⟩
    · obtain ⟨other, member, found⟩ := keeps.added symbol id before
      exact ⟨other, List.mem_append_left _ member, found⟩
    · exact ⟨op, List.mem_append_right _ (List.mem_singleton_self op), adds, here.symm,
        own.trans new.symm⟩
  · intro symbol id listed other member cancels
    rcases List.mem_append.mp member with before | last
    · rcases active symbol id listed with held | ⟨_, _, rfl⟩
      · exact keeps.open_ symbol id held other before cancels
      · exact new other before
    · rw [List.mem_singleton.mp last] at cancels
      exact absurd cancels enters
  · intro symbol
    show ((if op.type = .add then _ else state.activeIds) symbol).Nodup
    split_ifs
    · by_cases here : symbol = op.symbolIndex
      · subst here
        rw [Function.update_self, List.nodup_append]
        refine ⟨keeps.distinct _, List.nodup_singleton _, ?_⟩
        intro id before other last same
        rw [same, List.mem_singleton.mp last] at before
        exact inactive _ before
      · rw [Function.update_of_ne here]
        exact keeps.distinct symbol
    · exact keeps.distinct symbol
  · intro left right id first second
    rcases active left id first with before | ⟨_, here, rfl⟩
    · rcases active right id second with held | ⟨_, _, rfl⟩
      · exact keeps.apart left right id before held
      · exact absurd before (inactive left)
    · rcases active right _ second with held | ⟨_, there, _⟩
      · exact absurd held (inactive right)
      · exact here.trans there.symm

/-- Cancelling the last active id of a symbol keeps the locals in step. -/
theorem Keeps.cancel (keeps : state.Keeps earlier) {op : ScenarioOp}
    (last : (state.activeIds op.symbolIndex).getLast? = some op.orderId) :
    ({ state with
      activeIds := Function.update state.activeIds op.symbolIndex
        (state.activeIds op.symbolIndex).dropLast } : ScenarioState Rng).Keeps
      (earlier ++ [op]) := by
  obtain ⟨front, whole⟩ := List.getLast?_eq_some_iff.mp last
  have held : op.orderId ∈ state.activeIds op.symbolIndex := List.mem_of_getLast? last
  -- an id that is active afterwards was active before and is another one
  have active : ∀ symbol, ∀ id ∈ Function.update state.activeIds op.symbolIndex
      (state.activeIds op.symbolIndex).dropLast symbol,
      id ∈ state.activeIds symbol ∧ id ≠ op.orderId := by
    intro symbol id listed
    by_cases here : symbol = op.symbolIndex
    · subst here
      rw [Function.update_self, whole, List.dropLast_concat] at listed
      have distinct := keeps.distinct op.symbolIndex
      rw [whole, List.nodup_append] at distinct
      refine ⟨?_, fun same => distinct.2.2 id listed op.orderId (List.mem_singleton_self _) same⟩
      rw [whole]
      exact List.mem_append_left _ listed
    · rw [Function.update_of_ne here] at listed
      refine ⟨listed, ?_⟩
      rintro rfl
      exact here (keeps.apart _ _ _ listed held)
  constructor
  · obtain ⟨count, bound, next, below⟩ := keeps.counted
    refine ⟨count, bound.trans (by simp), next, ?_⟩
    intro other member
    rcases List.mem_append.mp member with before | this
    · exact below other before
    · obtain ⟨added, before, _, _, same⟩ := keeps.added _ _ held
      rw [List.mem_singleton.mp this, ← same]
      exact below added before
  · intro symbol id listed
    obtain ⟨other, member, found⟩ := keeps.added symbol id (active symbol id listed).1
    exact ⟨other, List.mem_append_left _ member, found⟩
  · intro symbol id listed other member cancels
    obtain ⟨before, different⟩ := active symbol id listed
    rcases List.mem_append.mp member with earlier_ | this
    · exact keeps.open_ symbol id before other earlier_ cancels
    · rw [List.mem_singleton.mp this]
      exact different.symm
  · intro symbol
    show (Function.update state.activeIds op.symbolIndex
      (state.activeIds op.symbolIndex).dropLast symbol).Nodup
    by_cases here : symbol = op.symbolIndex
    · subst here
      rw [Function.update_self]
      exact (keeps.distinct _).sublist (List.dropLast_sublist _)
    · rw [Function.update_of_ne here]
      exact keeps.distinct symbol
  · intro left right id first second
    exact keeps.apart left right id (active left id first).1 (active right id second).1

/-- The id that is found makes an operation that may follow the earlier ones. -/
theorem Keeps.assign (keeps : state.Keeps earlier) (short : earlier.length + 1 < 2 ^ 64)
    {symbols : UInt32} {op : ScenarioOp} (symbol : op.symbolIndex < symbols)
    (price : 90 ≤ op.price ∧ op.price ≤ 110) (quantity : 1 ≤ op.quantity ∧ op.quantity ≤ 100)
    (active : op.type = .cancel → state.activeIds op.symbolIndex ≠ []) :
    (Scenario.assign state op).1.Follows symbols earlier ∧
      (Scenario.assign state op).2.Keeps (earlier ++ [(Scenario.assign state op).1]) := by
  -- without a cancel the new id is entered
  have entered (enters : op.type ≠ .cancel)
      (found : Scenario.assign state op = ({ op with orderId := state.nextId }, { state with
        activeIds :=
          if op.type = .add then
            Function.update state.activeIds op.symbolIndex
              (state.activeIds op.symbolIndex ++ [state.nextId])
          else state.activeIds
        nextId := state.nextId + 1 })) :
      (Scenario.assign state op).1.Follows symbols earlier ∧
        (Scenario.assign state op).2.Keeps (earlier ++ [(Scenario.assign state op).1]) := by
    let entering : ScenarioOp := { op with orderId := state.nextId }
    have own : entering.orderId = state.nextId := rfl
    rw [found]
    refine ⟨?_, keeps.enter short own enters⟩
    exact
      { symbol := symbol
        price := price
        quantity := quantity
        fresh := fun _ => keeps.nextId short
        added := fun cancels => absurd cancels enters
        once := fun cancels => absurd cancels enters }
  cases last : (state.activeIds op.symbolIndex).getLast? with
  | none =>
    have enters : op.type ≠ .cancel :=
      fun cancels => active cancels (List.getLast?_eq_none_iff.mp last)
    exact entered enters (by simp only [Scenario.assign, last])
  | some id =>
    by_cases cancels : op.type = .cancel
    · let leaving : ScenarioOp := { op with orderId := id }
      have found : Scenario.assign state op = (leaving, { state with
          activeIds := Function.update state.activeIds op.symbolIndex
            (state.activeIds op.symbolIndex).dropLast }) := by
        simp only [Scenario.assign, last, decide_eq_true cancels, leaving]
      have held : id ∈ state.activeIds op.symbolIndex := List.mem_of_getLast? last
      have front : (state.activeIds leaving.symbolIndex).getLast? = some leaving.orderId := last
      rw [found]
      refine ⟨?_, keeps.cancel front⟩
      exact
        { symbol := symbol
          price := price
          quantity := quantity
          fresh := fun enters => absurd cancels enters
          added := fun _ => keeps.added _ id held
          once := fun _ => keeps.open_ _ id held }
    · exact entered cancels (by simp only [Scenario.assign, last, decide_eq_false cancels])

end ScenarioState

namespace Scenario

variable {W Rng : Type}

/-- There is a symbol. -/
theorem symbols_pos (scenario : Scenario W) : 0 < scenario.symbols := by
  unfold symbols
  split_ifs with some_
  · exact some_
  · decide

variable [Add W] [LT W] [DecidableLT W]

/-- A cancel is drawn only for a symbol with an active id. -/
theorem typeOf_cancel {scenario : Scenario W} {roll : W} {idle : Bool}
    (cancels : scenario.typeOf roll idle = .cancel) : idle = false := by
  unfold typeOf at cancels
  split_ifs at cancels with adds active
  exact active.2

variable [Zero W] [Mul W]

/-- What a pass draws is in range, and a cancel is drawn only for a symbol with an active id. -/
theorem draw_range (scenario : Scenario W) (source : RandomSource W Rng)
    (state : ScenarioState Rng) :
    let op := (scenario.draw source state).1
    op.symbolIndex < scenario.symbols ∧ (90 ≤ op.price ∧ op.price ≤ 110) ∧
      (1 ≤ op.quantity ∧ op.quantity ≤ 100) ∧
      (op.type = .cancel → state.activeIds op.symbolIndex ≠ []) := by
  refine ⟨UInt32.mod_lt _ scenario.symbols_pos, source.price_range _, source.qty_range _, ?_⟩
  intro cancels nothing
  have some_ := typeOf_cancel cancels
  rw [List.isEmpty_eq_false_iff] at some_
  exact some_ nothing

/-- One pass makes an operation that may follow the earlier ones. -/
theorem follows_generate (scenario : Scenario W) (source : RandomSource W Rng)
    {state : ScenarioState Rng} {earlier : List ScenarioOp} (keeps : state.Keeps earlier)
    (short : earlier.length + 1 < 2 ^ 64) :
    let pass := scenario.generate source state ()
    pass.1.Follows scenario.symbols earlier ∧ pass.2.Keeps (earlier ++ [pass.1]) := by
  obtain ⟨symbol, price, quantity, active⟩ := scenario.draw_range source state
  have drawn : ({ state with rng := (scenario.draw source state).2 } : ScenarioState Rng).Keeps
      earlier := ⟨keeps.counted, keeps.added, keeps.open_, keeps.distinct, keeps.apart⟩
  exact drawn.assign short symbol price quantity active

/-- Every operation that is generated may follow those before it. -/
theorem follows_run (scenario : Scenario W) (source : RandomSource W Rng) (count : Nat)
    {state : ScenarioState Rng} {earlier : List ScenarioOp} (keeps : state.Keeps earlier)
    (short : earlier.length + count < 2 ^ 64)
    (grown : Grows (ScenarioOp.Follows scenario.symbols) earlier) :
    Grows (ScenarioOp.Follows scenario.symbols)
      (earlier ++ (run (scenario.generate source) state (List.replicate count ())).1) := by
  induction count generalizing state earlier with
  | zero =>
    rw [List.replicate_zero, run, List.append_nil]
    exact grown
  | succ count ih =>
    obtain ⟨follows, kept⟩ := scenario.follows_generate source keeps (by omega)
    have more := ih kept (by simp only [List.length_append, List.length_singleton]; omega)
      (grows_concat.mpr ⟨grown, follows⟩)
    rw [List.append_assoc, List.singleton_append] at more
    exact more

/-- Every operation of a scenario may follow those before it. -/
theorem follows_generateOrders (scenario : Scenario W) (source : RandomSource W Rng)
    (seed : UInt32) :
    Grows (ScenarioOp.Follows scenario.symbols) (scenario.generateOrders source seed) := by
  have start : ({ rng := source.seeded seed, activeIds := fun _ => [], nextId := 1 } :
      ScenarioState Rng).Keeps [] := by
    refine ⟨⟨0, Nat.le_refl 0, rfl, by simp⟩, ?_, ?_, fun _ => List.nodup_nil, ?_⟩
    · intro symbol id listed
      cases listed
    · intro symbol id listed
      cases listed
    · intro left right id listed
      cases listed
  have short : ([] : List ScenarioOp).length + scenario.orderCount.toNat < 2 ^ 64 := by
    have bound := scenario.orderCount.toNat_lt
    simpa using bound
  exact scenario.follows_run source scenario.orderCount.toNat start short (grows_nil _)

/-- A scenario has as many operations as it asks for, and whatever is drawn each of them may follow
those before it: its symbol, price and quantity are in range, the id it enters is new, and the id
it cancels was added on its symbol and not cancelled before. -/
theorem generateOrders_well_formed (scenario : Scenario W) (source : RandomSource W Rng)
    (seed : UInt32) :
    (scenario.generateOrders source seed).length = scenario.orderCount.toNat ∧
      Grows (ScenarioOp.Follows scenario.symbols) (scenario.generateOrders source seed) := by
  refine ⟨?_, scenario.follows_generateOrders source seed⟩
  rw [generateOrders, length_run, List.length_replicate]

end Scenario

end Titan
