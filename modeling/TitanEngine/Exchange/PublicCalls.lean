import TitanEngine.Exchange.RegistryRuns

/-!
# The whole interface of the registry

Everything its owner may call, in any order: the calls of a symbol, the questions and the two that
drop something. Whatever the matchers are, each answer is the market's, so what the registry keeps
beside it (slots, levels, iterators, pools) can never be seen.
-/

namespace Titan

open Library

/-- A public member function of the registry. -/
inductive RegistryUse where
  | call (call : RegistryCall)
  | findOrder (symbol : Symbol) (id : OrderId)
  | hasInstrument (symbol : Symbol)
  | eventLog
  | clearEventLog
  | reset
  deriving DecidableEq, Repr

/-- What it returns. -/
inductive RegistryReply where
  | answer (answer : RegistryAnswer)
  | order (found : Option Order)
  | listed (listed : Bool)
  | events (log : List Event)
  | done
  deriving DecidableEq, Repr

/-- Use a registry once. -/
def useRegistry (registry : InstrumentRegistry) (use : RegistryUse) :
    RegistryReply × InstrumentRegistry :=
  match use with
  | .call call =>
    let (answer, next) := callRegistry registry call
    (.answer answer, next)
  | .findOrder symbol id => (.order (registry.findOrder symbol id), registry)
  | .hasInstrument symbol => (.listed (registry.hasInstrument symbol), registry)
  | .eventLog => (.events registry.eventLog, registry)
  | .clearEventLog => (.done, registry.clearEventLog)
  | .reset => (.done, registry.reset)

/-- Use a market once. -/
def useMarket (market : Market) (use : RegistryUse) : RegistryReply × Market :=
  match use with
  | .call call =>
    let (answer, next) := callMarket market call
    (.answer answer, next)
  | .findOrder symbol id => (.order (market.findOrder symbol id), market)
  | .hasInstrument symbol => (.listed (market.listings symbol).isSome, market)
  | .eventLog => (.events market.log, market)
  | .clearEventLog => (.done, { market with log := [] })
  | .reset => (.done, market.reset)

namespace InstrumentRegistry

variable {registry : InstrumentRegistry} {market : Market}

/-- `hasInstrument` says which symbols are listed. -/
theorem Mirrors.hasInstrument (mirrors : registry.Mirrors market) (symbol : Symbol) :
    registry.hasInstrument symbol = (market.listings symbol).isSome := by
  have present : registry.hasInstrument symbol = (registry.find symbol).isSome := by
    simp [InstrumentRegistry.hasInstrument, find]
  rw [present]
  cases found : registry.find symbol with
  | none =>
    rw [mirrors.unlisted found]
    rfl
  | some instrument =>
    obtain ⟨listing, listed, _⟩ := mirrors.listing found
    rw [listed]
    rfl

/-- Every use is answered as the market answers it. -/
theorem Mirrors.use (mirrors : registry.Mirrors market) (use : RegistryUse) :
    (useRegistry registry use).1 = (useMarket market use).1 ∧
      (useRegistry registry use).2.Mirrors (useMarket market use).2 := by
  cases use with
  | call call =>
    have step := mirrors.call call
    exact ⟨congrArg RegistryReply.answer step.1, step.2⟩
  | findOrder symbol id =>
    exact ⟨congrArg RegistryReply.order (mirrors.findOrder symbol id), mirrors⟩
  | hasInstrument symbol =>
    exact ⟨congrArg RegistryReply.listed (mirrors.hasInstrument symbol), mirrors⟩
  | eventLog => exact ⟨congrArg RegistryReply.events mirrors.log, mirrors⟩
  | clearEventLog => exact ⟨rfl, { listed := mirrors.listed, log := rfl, next := mirrors.next }⟩
  | reset => exact ⟨rfl, Mirrors.reset registry⟩

/-- Over either matcher and any allocator, every sequence of public calls, questions, log clearings
and resets is answered as the market answers it. -/
theorem registry_refines_market (allocator : SlabAllocator) (backend : MatcherBackend)
    (uses : List RegistryUse) :
    (run useRegistry (init allocator backend) uses).1 = (run useMarket Market.empty uses).1 := by
  have kept : ∀ (left : InstrumentRegistry) (right : Market) (use : RegistryUse),
      left.Mirrors right → True → (useRegistry left use).1 = (useMarket right use).1 ∧
        (useRegistry left use).2.Mirrors (useMarket right use).2 :=
    fun _ _ use held _ => held.use use
  exact (run_simulation Mirrors kept (mirrors_init allocator backend)
    (admissible_true useRegistry (init allocator backend) uses)).1

end InstrumentRegistry

end Titan
