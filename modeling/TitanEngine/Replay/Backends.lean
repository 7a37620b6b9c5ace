import TitanEngine.Replay.Backtest
import TitanEngine.Replay.ParityReports

/-!
# The backend of a replay

A replay asks the registry for the records of orders and decides by them what to do next, so a
difference between the matchers could grow along a file. It does not: over registries that keep one
market every message makes the same call, gets the same answer and leaves the registries alike. A
file of any bytes is replayed and backtested alike over either matcher. For the same reason the end
of messages is a new beginning: what follows it goes as over a new registry.
-/

namespace Titan

open Library

namespace InstrumentRegistry

/-- Registries that are alike answer a call alike and stay alike. -/
theorem Alike.call {left right : InstrumentRegistry} (alike : Alike left right)
    (call : RegistryCall) :
    (callRegistry left call).1 = (callRegistry right call).1 ∧
      Alike (callRegistry left call).2 (callRegistry right call).2 := by
  obtain ⟨market, first, second⟩ := alike
  obtain ⟨answer, kept⟩ := first.call call
  obtain ⟨otherAnswer, otherKept⟩ := second.call call
  exact ⟨answer.trans otherAnswer.symm, _, kept, otherKept⟩

/-- A reset leaves any registries alike. -/
theorem alike_reset (left right : InstrumentRegistry) : Alike left.reset right.reset :=
  ⟨Market.empty, Mirrors.reset left, Mirrors.reset right⟩

/-- Registries that are alike find the same records. -/
theorem Alike.findOrder {left right : InstrumentRegistry} (alike : Alike left right) :
    left.findOrder = right.findOrder := by
  funext symbol id
  exact alike.sameView.findOrder symbol id

end InstrumentRegistry

namespace ItchEngineAdapter

/-- The adapter over another registry. -/
def withRegistry (adapter : ItchEngineAdapter) (registry : InstrumentRegistry) :
    ItchEngineAdapter :=
  { adapter with registry := registry }

/-- Over an alike registry a message makes the same call. -/
theorem callFor_withRegistry (adapter : ItchEngineAdapter) {registry : InstrumentRegistry}
    (alike : InstrumentRegistry.Alike adapter.registry registry) (message : ItchMessage) :
    (adapter.withRegistry registry).callFor message = adapter.callFor message := by
  have records : (adapter.withRegistry registry).registry.findOrder = adapter.registry.findOrder :=
    alike.findOrder.symm
  cases message with
  | orderExecuted message =>
    simp only [callFor, executionCall, records]
    rfl
  | orderExecutedWithPrice message =>
    simp only [callFor, executionCall, records]
    rfl
  | orderCancel message =>
    simp only [callFor, cancelCall, records]
    rfl
  | orderReplace message =>
    simp only [callFor, replaceCall, records]
    rfl
  | _ => rfl

/-- Two adapters differ at most in their registries, which keep one market. -/
def Alike (left right : ItchEngineAdapter) : Prop :=
  ∃ registry, InstrumentRegistry.Alike left.registry registry ∧ right = left.withRegistry registry

/-- Over an alike registry a call of a message does the same. -/
theorem called_over (adapter : ItchEngineAdapter) {registry : InstrumentRegistry}
    (alike : InstrumentRegistry.Alike adapter.registry registry) (message : ItchMessage)
    (call : RegistryCall) :
    (adapter.called message call).1 = ((adapter.withRegistry registry).called message call).1 ∧
      Alike (adapter.called message call).2
        ((adapter.withRegistry registry).called message call).2 := by
  obtain ⟨answer, kept⟩ := alike.call call
  have symbols : (adapter.withRegistry registry).symbolsAfter message =
      adapter.symbolsAfter message := by
    cases message <;> rfl
  have ids : ∀ succeeded, (adapter.withRegistry registry).idsAfter message succeeded =
      adapter.idsAfter message succeeded := by
    intro succeeded
    cases message <;> rfl
  have next : (adapter.withRegistry registry).nextIdAfter call = adapter.nextIdAfter call := by
    cases call <;> rfl
  refine ⟨congrArg RegistryAnswer.succeeded answer, (callRegistry registry call).2, kept, ?_⟩
  simp only [called, symbols, ids, next, answer]
  rfl

variable {left right : ItchEngineAdapter}

/-- A message does the same to adapters that are alike. -/
theorem Alike.apply (alike : Alike left right) (message : ItchMessage) :
    (left.apply message).1 = (right.apply message).1 ∧
      Alike (left.apply message).2 (right.apply message).2 := by
  obtain ⟨registry, same, rfl⟩ := alike
  have call := left.callFor_withRegistry same message
  cases makes : left.callFor message with
  | none =>
    rw [makes] at call
    rw [left.apply_idle_eq makes, (left.withRegistry registry).apply_idle_eq call]
    refine ⟨rfl, ?_⟩
    cases message.endsSession with
    | false => exact ⟨registry, same, rfl⟩
    | true => exact ⟨registry.reset, InstrumentRegistry.alike_reset left.registry registry, rfl⟩
  | some made =>
    rw [makes] at call
    rw [left.apply_call makes, (left.withRegistry registry).apply_call call]
    exact left.called_over same message made

/-- A snapshot of both is the same. -/
theorem Alike.snapshot (alike : Alike left right) (locate : StockLocate) (depth : Nat) :
    (left.snapshot locate depth).1 = (right.snapshot locate depth).1 ∧
      Alike (left.snapshot locate depth).2 (right.snapshot locate depth).2 := by
  obtain ⟨registry, same, rfl⟩ := alike
  have symbols : (left.withRegistry registry).symbols[locate]? = left.symbols[locate]? := rfl
  unfold ItchEngineAdapter.snapshot
  rw [symbols]
  cases left.symbols[locate]? with
  | none => exact ⟨rfl, registry, same, rfl⟩
  | some symbol =>
    obtain ⟨answer, kept⟩ := same.call (.snapshot symbol depth)
    exact ⟨RegistryAnswer.snapshot.inj answer, _, kept, rfl⟩

/-- Messages do the same to both. -/
theorem Alike.run (alike : Alike left right) (messages : List ItchMessage) :
    (Library.run ItchEngineAdapter.apply left messages).1 =
        (Library.run ItchEngineAdapter.apply right messages).1 ∧
      Alike (Library.run ItchEngineAdapter.apply left messages).2
        (Library.run ItchEngineAdapter.apply right messages).2 := by
  have kept : ∀ (left right : ItchEngineAdapter) (message : ItchMessage), Alike left right →
      True → (left.apply message).1 = (right.apply message).1 ∧
        Alike (left.apply message).2 (right.apply message).2 :=
    fun _ _ message alike _ => alike.apply message
  exact run_simulation Alike kept alike (admissible_true ItchEngineAdapter.apply left messages)

/-- Adapters that are alike show the same. -/
structure SameView (left right : ItchEngineAdapter) : Prop where
  /-- The registries show the same. -/
  registry : InstrumentRegistry.SameView left.registry right.registry
  /-- A locate has the same symbol. -/
  symbols : ∀ locate, left.symbolForLocate locate = right.symbolForLocate locate
  /-- A locate shows the same levels, under the same number. -/
  snapshot : ∀ locate depth, (left.snapshot locate depth).1 = (right.snapshot locate depth).1
  /-- A reference stands for the same order. -/
  ids : ∀ ref, left.engineIdFor ref = right.engineIdFor ref
  /-- The volumes are the same. -/
  tradeVolume : left.tradeVolume = right.tradeVolume

theorem Alike.sameView (alike : Alike left right) : SameView left right := by
  have shown := fun locate depth => (alike.snapshot locate depth).1
  obtain ⟨registry, same, rfl⟩ := alike
  exact ⟨same.sameView, fun _ => rfl, shown, fun _ => rfl, rfl⟩

/-- Whatever an adapter and its registry went through, after the end of messages any messages are
answered as by a new adapter over a new registry with either matcher, and leave the same to see. -/
theorem end_of_messages_forgets (adapter : ItchEngineAdapter) (closing : SystemEventMessage)
    (allocator : SlabAllocator) (backend : MatcherBackend) (messages : List ItchMessage) :
    let ended := adapter.apply (.systemEvent { closing with eventCode := endOfMessages })
    let fresh := ItchEngineAdapter.init (InstrumentRegistry.init allocator backend)
    (Library.run ItchEngineAdapter.apply ended.2 messages).1 =
        (Library.run ItchEngineAdapter.apply fresh messages).1 ∧
      SameView (Library.run ItchEngineAdapter.apply ended.2 messages).2
        (Library.run ItchEngineAdapter.apply fresh messages).2 := by
  intro ended fresh
  have reset : ended.2 = adapter.reset := by
    show (if endOfMessages = endOfMessages then (true, adapter.reset) else (true, adapter)).2 = _
    rw [if_pos rfl]
  have start : Alike ended.2 fresh := by
    rw [reset]
    exact ⟨_, ⟨Market.empty, InstrumentRegistry.Mirrors.reset adapter.registry,
      InstrumentRegistry.mirrors_init allocator backend⟩, rfl⟩
  obtain ⟨answers, alike⟩ := start.run messages
  exact ⟨answers, alike.sameView⟩

end ItchEngineAdapter

namespace ParityChecker

/-- Two checkers differ at most in their adapters, which are alike. -/
def Alike (left right : ParityChecker) : Prop :=
  ∃ adapter, ItchEngineAdapter.Alike left.adapter adapter ∧
    right = { left with adapter := adapter }

variable {left right : ParityChecker}

/-- Comparing a locate does the same to both. -/
theorem Alike.compareLocate (alike : Alike left right) (locate : StockLocate) :
    Alike (left.compareLocate locate) (right.compareLocate locate) := by
  obtain ⟨adapter, same, rfl⟩ := alike
  obtain ⟨shown, kept⟩ := same.snapshot locate 1
  unfold ParityChecker.compareLocate
  simp only
  cases taken : left.builder.snapshot locate 1 with
  | mk feedSnap builder =>
    cases feedSnap with
    | none => exact ⟨adapter, same, rfl⟩
    | some feedSnap =>
      simp only [← shown]
      split
      · exact ⟨_, kept, rfl⟩
      · exact ⟨_, kept, rfl⟩

/-- Comparing any locates does the same to both. -/
theorem Alike.compareAll (alike : Alike left right) (locates : List StockLocate) :
    Alike (locates.foldl ParityChecker.compareLocate left)
      (locates.foldl ParityChecker.compareLocate right) := by
  induction locates generalizing left right with
  | nil => exact alike
  | cons locate rest ih => exact ih (alike.compareLocate locate)

/-- A comparison of all locates does the same to both. -/
theorem Alike.compareAllLocates (alike : Alike left right) :
    Alike left.compareAllLocates right.compareAllLocates := by
  have compared := alike.compareAll (left.walk left.knownLocates)
  obtain ⟨adapter, same, rfl⟩ := alike
  exact compared

/-- Applying a message does the same to both. -/
theorem Alike.advance (alike : Alike left right) (message : ItchMessage) :
    Alike (left.advance message) (right.advance message) := by
  obtain ⟨adapter, same, rfl⟩ := alike
  have applied := (same.apply message).2
  obtain ⟨registry, kept, moved⟩ := applied
  have known : (learn { left with adapter := adapter } message).knownLocates =
      (left.learn message).knownLocates := by
    unfold learn
    split
    · rfl
    · simp only
      split <;> rfl
  have volume : (adapter.apply message).2.tradeVolume =
      (left.adapter.apply message).2.tradeVolume := by
    rw [moved]
    rfl
  refine ⟨(adapter.apply message).2, ⟨registry, kept, moved⟩, ?_⟩
  simp only [ParityChecker.advance, known, volume]

/-- Processing a message does the same to both. -/
theorem Alike.process (alike : Alike left right) (message : ItchMessage) :
    Alike (left.process message) (right.process message) := by
  have advanced := alike.advance message
  rw [process_eq, process_eq]
  obtain ⟨adapter, same, rfl⟩ := alike
  split
  · exact advanced.compareAllLocates
  · exact advanced

/-- The reports are the same. -/
theorem Alike.report (alike : Alike left right) : left.report = right.report := by
  obtain ⟨adapter, same, rfl⟩ := alike
  rfl

/-- The registries keep one market. -/
theorem Alike.registry (alike : Alike left right) :
    InstrumentRegistry.Alike left.adapter.registry right.adapter.registry := by
  obtain ⟨adapter, ⟨registry, same, rfl⟩, rfl⟩ := alike
  exact same

end ParityChecker

namespace EventReplayer

/-- Parse results are replayed alike and counted alike. -/
theorem foldl_alike {left right : ParityChecker} (alike : left.Alike right)
    (results : List ItchParseResult) (counts : Nat × Nat) :
    ParityChecker.Alike (results.foldl replayMessage (left, counts)).1
        (results.foldl replayMessage (right, counts)).1 ∧
      (results.foldl replayMessage (left, counts)).2 =
        (results.foldl replayMessage (right, counts)).2 := by
  induction results generalizing left right counts with
  | nil => exact ⟨alike, rfl⟩
  | cons parsed rest ih =>
    rw [List.foldl_cons, List.foldl_cons]
    unfold replayMessage
    simp only
    split
    · exact ih (alike.process parsed.message) _
    · exact ih alike _

/-- A file of any bytes is replayed alike over alike registries. -/
theorem replayFile_alike {left right : InstrumentRegistry}
    (alike : InstrumentRegistry.Alike left right) (checkpointInterval : CheckpointInterval)
    (walk : List StockLocate → List StockLocate) (bytes : List UInt8) :
    (replayFile ⟨left, checkpointInterval, walk⟩ bytes).1 =
        (replayFile ⟨right, checkpointInterval, walk⟩ bytes).1 ∧
      InstrumentRegistry.Alike (replayFile ⟨left, checkpointInterval, walk⟩ bytes).2
        (replayFile ⟨right, checkpointInterval, walk⟩ bytes).2 := by
  have start : ParityChecker.Alike
      (ParityChecker.init (ItchEngineAdapter.init left) checkpointInterval walk)
      (ParityChecker.init (ItchEngineAdapter.init right) checkpointInterval walk) :=
    ⟨ItchEngineAdapter.init right, ⟨right, alike, rfl⟩, rfl⟩
  obtain ⟨final, counts⟩ := foldl_alike start (ItchParser.init.feed bytes).1 (0, 0)
  have report := final.report
  have log := final.registry.sameView.eventLog
  refine ⟨?_, final.registry⟩
  simp only [replayFile, replayMessages, report, log, counts]

end EventReplayer

/-- A shot of a symbol is the same of alike registries. -/
theorem BacktestResult.shoot_alike {left right : InstrumentRegistry}
    (alike : InstrumentRegistry.Alike left right) (depth : Nat) (symbols : List Symbol)
    (result : BacktestResult) :
    (symbols.foldl (shoot depth) (result, left)).1 =
      (symbols.foldl (shoot depth) (result, right)).1 := by
  induction symbols generalizing left right result with
  | nil => rfl
  | cons symbol rest ih =>
    obtain ⟨answer, kept⟩ := alike.call (.snapshot symbol depth)
    have taken : (left.snapshot symbol depth).1 = (right.snapshot symbol depth).1 :=
      RegistryAnswer.snapshot.inj answer
    rw [List.foldl_cons, List.foldl_cons]
    simp only [shoot, taken]
    exact ih kept _

/-- A file of any bytes is replayed and backtested alike over either matcher: the parity reports
with their snapshots, the event logs, the counters, the metrics and the final books are equal, and
the registries left show the same. -/
theorem BacktestRunner.backend_independent (allocator other : SlabAllocator)
    (backend otherBackend : MatcherBackend) (bookDepth : Nat)
    (walk : List StockLocate → List StockLocate) (bytes : List UInt8) :
    let left := (replayer ⟨backend, bookDepth⟩ allocator walk).replayFile bytes
    let right := (replayer ⟨otherBackend, bookDepth⟩ other walk).replayFile bytes
    left.1 = right.1 ∧ InstrumentRegistry.SameView left.2 right.2 ∧
      replayFile ⟨backend, bookDepth⟩ allocator walk bytes =
        replayFile ⟨otherBackend, bookDepth⟩ other walk bytes := by
  intro left right
  obtain ⟨same, alike⟩ := EventReplayer.replayFile_alike
    (InstrumentRegistry.alike_init allocator other backend otherBackend) everyMessage walk bytes
  refine ⟨same, alike.sameView, ?_⟩
  unfold replayFile replayer
  generalize EventReplayer.replayFile
    ⟨InstrumentRegistry.init allocator backend, everyMessage, walk⟩ bytes = left at same alike
  generalize EventReplayer.replayFile
    ⟨InstrumentRegistry.init other otherBackend, everyMessage, walk⟩ bytes = right at same alike
  simp only [same]
  exact BacktestResult.shoot_alike alike bookDepth _ _

end Titan
