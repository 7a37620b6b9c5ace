import TitanEngine.Exchange.RegistryRuns
import TitanEngine.Library.Views

/-!
# Snapshots only observe

`InstrumentRegistry::snapshot` is a constant member function that counts in a mutable member. Taken
anywhere in a run, from any registry, snapshots change nothing but that count: without them every
other call has the same answer, the log and the records are the same and every later snapshot shows
the same levels. The count itself numbers the snapshots of each symbol without a gap, whatever is
called in between.
-/

namespace Titan

open Library Std

/-- An instrument whose snapshots were not counted. -/
def Instrument.unnumbered (instrument : Instrument) : Instrument :=
  { instrument with nextSnapshotSequenceNumber := 0 }

/-- The call may change more than the number of the next snapshot. -/
def RegistryCall.acts : RegistryCall → Bool
  | snapshot _ _ => false
  | _ => true

/-- The call takes a snapshot of a symbol. -/
def RegistryCall.observes (symbol : Symbol) : RegistryCall → Bool
  | snapshot other _ => decide (other = symbol)
  | _ => false

/-- The numbers of the snapshots of a symbol among the answers. -/
def snapshotNumbers (symbol : Symbol) (answers : List RegistryAnswer) : List UInt64 :=
  answers.filterMap (fun answer =>
    match answer with
    | .snapshot taken => if taken.symbol = symbol then some taken.sequenceNumber else none
    | _ => none)

namespace InstrumentRegistry

/-- A registry whose snapshots were not counted. -/
def unnumbered (registry : InstrumentRegistry) : InstrumentRegistry :=
  { registry with instruments := registry.instruments.map (fun _ => Instrument.unnumbered) }

@[simp] theorem find_unnumbered (registry : InstrumentRegistry) (symbol : Symbol) :
    registry.unnumbered.find symbol = (registry.find symbol).map Instrument.unnumbered :=
  ExtTreeMap.getElem?_map

@[simp] theorem emit_unnumbered (registry : InstrumentRegistry) (payload : EventPayload) :
    registry.unnumbered.emit payload = (registry.emit payload).unnumbered := rfl

@[simp] theorem setManager_unnumbered (registry : InstrumentRegistry) (symbol : Symbol)
    (instrument : Instrument) (manager : OrderManager Matcher) :
    registry.unnumbered.setManager symbol instrument.unnumbered manager =
      (registry.setManager symbol instrument manager).unnumbered := by
  unfold setManager unnumbered
  simp only
  rw [map_insert]
  rfl

/-- The events of a list of trades are logged without looking at the counts. -/
theorem foldl_emit_unnumbered {α : Type} (payload : α → EventPayload) (entries : List α)
    (registry : InstrumentRegistry) :
    entries.foldl (fun logged entry => logged.emit (payload entry)) registry.unnumbered =
      (entries.foldl (fun logged entry => logged.emit (payload entry)) registry).unnumbered := by
  induction entries generalizing registry with
  | nil => rfl
  | cons entry rest ih => exact ih (registry.emit (payload entry))

/-- A request does not look at the counts. -/
theorem route_unnumbered (registry : InstrumentRegistry) (symbol : Symbol) (id : OrderId)
    (request : OrderManager Matcher → AcceptResult × OrderManager Matcher)
    (accepted : EventPayload) :
    registry.unnumbered.route symbol id request accepted =
      ((registry.route symbol id request accepted).1,
        (registry.route symbol id request accepted).2.unnumbered) := by
  unfold route
  rw [find_unnumbered]
  cases registry.find symbol with
  | none => rfl
  | some instrument =>
    simp only [Option.map_some, Instrument.unnumbered]
    have set := registry.setManager_unnumbered symbol instrument (request instrument.manager).2
    simp only [Instrument.unnumbered] at set
    rw [set]
    split <;> rfl

/-- A call that acts does not look at the counts. -/
theorem callRegistry_unnumbered (registry : InstrumentRegistry) {call : RegistryCall}
    (acts : call.acts = true) :
    callRegistry registry.unnumbered call =
      ((callRegistry registry call).1, (callRegistry registry call).2.unnumbered) := by
  cases call with
  | snapshot symbol depth => cases acts
  | submitOrder symbol order =>
    simp only [callRegistry, submitOrder, route_unnumbered]
  | cancelOrder symbol id =>
    simp only [callRegistry, cancelOrder, route_unnumbered]
  | cancelReplace symbol oldId newOrder =>
    simp only [callRegistry, cancelReplace, route_unnumbered]
  | createInstrument symbol =>
    simp only [callRegistry, createInstrument]
    have listed : registry.unnumbered.instruments.contains symbol =
        registry.instruments.contains symbol := ExtTreeMap.contains_map
    rw [listed]
    split
    · rfl
    · simp only [unnumbered, map_insert]
      rfl
  | matchOrder symbol order =>
    simp only [callRegistry, matchOrder, find_unnumbered]
    cases registry.find symbol with
    | none => rfl
    | some instrument =>
      simp only [Option.map_some, Instrument.unnumbered]
      have set := registry.setManager_unnumbered symbol instrument
        (instrument.manager.matchOrder order).2
      simp only [Instrument.unnumbered] at set
      rw [set, ← foldl_emit_unnumbered]
      split <;> rfl

/-- A snapshot only counts. -/
theorem snapshot_unnumbered (registry : InstrumentRegistry) (symbol : Symbol) (depth : Nat) :
    (registry.snapshot symbol depth).2.unnumbered = registry.unnumbered := by
  unfold snapshot
  cases found : registry.find symbol with
  | none => rfl
  | some instrument =>
    simp only [unnumbered]
    congr 1
    exact map_insert_of_same found rfl

/-- What a registry shows besides the numbers of its snapshots. -/
structure SameButNumbers (left right : InstrumentRegistry) : Prop where
  /-- The log is the same. -/
  log : left.eventLog = right.eventLog
  /-- So is the number of the next event. -/
  next : left.nextSequenceNumber = right.nextSequenceNumber
  /-- So are the records. -/
  records : ∀ symbol id, left.findOrder symbol id = right.findOrder symbol id
  /-- So are the levels of every symbol to every depth. -/
  levels : ∀ symbol depth,
    (left.snapshot symbol depth).1.bids = (right.snapshot symbol depth).1.bids ∧
      (left.snapshot symbol depth).1.asks = (right.snapshot symbol depth).1.asks

/-- The levels shown do not depend on the counts. -/
theorem levels_unnumbered (registry : InstrumentRegistry) (symbol : Symbol) (depth : Nat) :
    (registry.unnumbered.snapshot symbol depth).1 =
      { (registry.snapshot symbol depth).1 with sequenceNumber := 0 } := by
  unfold snapshot
  rw [find_unnumbered]
  cases registry.find symbol <;> rfl

/-- Neither do the records. -/
theorem findOrder_unnumbered (registry : InstrumentRegistry) (symbol : Symbol) (id : OrderId) :
    registry.unnumbered.findOrder symbol id = registry.findOrder symbol id := by
  unfold findOrder
  rw [find_unnumbered]
  cases registry.find symbol <;> rfl

/-- Registries that are the same without their counts show the same. -/
theorem sameButNumbers_of_unnumbered {left right : InstrumentRegistry}
    (same : left.unnumbered = right.unnumbered) : SameButNumbers left right where
  log := by
    have logs := congrArg InstrumentRegistry.eventLog same
    exact logs
  next := by
    have numbers := congrArg InstrumentRegistry.nextSequenceNumber same
    exact numbers
  records symbol id := by
    rw [← left.findOrder_unnumbered, same, findOrder_unnumbered]
  levels symbol depth := by
    have shown := left.levels_unnumbered symbol depth
    rw [same, levels_unnumbered] at shown
    simp only [BookSnapshot.mk.injEq] at shown
    exact ⟨shown.2.2.1.symm, shown.2.2.2.symm⟩

/-- The number of the next snapshot of a listed symbol. -/
def nextSnapshot (registry : InstrumentRegistry) (symbol : Symbol) : Option UInt64 :=
  (registry.find symbol).map Instrument.nextSnapshotSequenceNumber

/-- Storing an instrument counts for its own symbol. -/
theorem nextSnapshot_insert (registry : InstrumentRegistry) (symbol : Symbol)
    (instrument : Instrument) (other : Symbol) :
    ({ registry with instruments := registry.instruments.insert symbol instrument } :
      InstrumentRegistry).nextSnapshot other =
      if symbol = other then some instrument.nextSnapshotSequenceNumber
      else registry.nextSnapshot other := by
  unfold nextSnapshot find
  rw [ExtTreeMap.getElem?_insert]
  by_cases same : symbol = other
  · rw [if_pos same, if_pos (by simp [same])]
    rfl
  · rw [if_neg same, if_neg (by simpa using same)]

/-- A manager's change is not counted. -/
theorem nextSnapshot_setManager {registry : InstrumentRegistry} {symbol : Symbol}
    {instrument : Instrument} (found : registry.find symbol = some instrument)
    (manager : OrderManager Matcher) (other : Symbol) :
    (registry.setManager symbol instrument manager).nextSnapshot other =
      registry.nextSnapshot other := by
  unfold setManager
  rw [nextSnapshot_insert]
  split
  · rename_i same
    rw [← same, nextSnapshot, found]
    rfl
  · rfl

/-- Neither are the events of a list of trades. -/
theorem nextSnapshot_foldl_emit {α : Type} (payload : α → EventPayload) (entries : List α)
    (registry : InstrumentRegistry) (symbol : Symbol) :
    (entries.foldl (fun logged entry => logged.emit (payload entry)) registry).nextSnapshot
      symbol = registry.nextSnapshot symbol := by
  induction entries generalizing registry with
  | nil => rfl
  | cons entry rest ih => exact ih (registry.emit (payload entry))

/-- Neither is a request. -/
theorem nextSnapshot_route (registry : InstrumentRegistry) (symbol : Symbol) (id : OrderId)
    (request : OrderManager Matcher → AcceptResult × OrderManager Matcher)
    (accepted : EventPayload) (other : Symbol) :
    (registry.route symbol id request accepted).2.nextSnapshot other =
      registry.nextSnapshot other := by
  unfold route
  cases found : registry.find symbol with
  | none => rfl
  | some instrument =>
    have kept := nextSnapshot_setManager found (request instrument.manager).2 other
    simp only
    split <;> exact kept

/-- A call that acts counts nothing for a listed symbol. -/
theorem nextSnapshot_callRegistry (registry : InstrumentRegistry) {symbol : Symbol}
    {number : UInt64} (listed : registry.nextSnapshot symbol = some number) {call : RegistryCall}
    (acts : call.acts = true) :
    (callRegistry registry call).2.nextSnapshot symbol = some number := by
  cases call with
  | snapshot _ _ => cases acts
  | submitOrder other order =>
    simp only [callRegistry, submitOrder, nextSnapshot_route]
    exact listed
  | cancelOrder other id =>
    simp only [callRegistry, cancelOrder, nextSnapshot_route]
    exact listed
  | cancelReplace other oldId newOrder =>
    simp only [callRegistry, cancelReplace, nextSnapshot_route]
    exact listed
  | matchOrder other order =>
    simp only [callRegistry, matchOrder]
    cases found : registry.find other with
    | none => exact listed
    | some instrument =>
      have kept := nextSnapshot_setManager found (instrument.manager.matchOrder order).2 symbol
      simp only [nextSnapshot_foldl_emit]
      split <;> exact kept.trans listed
  | createInstrument other =>
    simp only [callRegistry, createInstrument]
    split
    · exact listed
    · rename_i absent
      have apart : other ≠ symbol := by
        rintro rfl
        have missing : registry.instruments[other]? = none := by
          apply ExtTreeMap.getElem?_eq_none
          rw [← ExtTreeMap.contains_iff_mem]
          exact absent
        rw [nextSnapshot, find, missing] at listed
        cases listed
      rw [nextSnapshot_insert, if_neg apart]
      exact listed

/-- A snapshot of a listed symbol shows its number, and counts for that symbol alone. -/
theorem nextSnapshot_snapshot (registry : InstrumentRegistry) {symbol : Symbol} {number : UInt64}
    (listed : registry.nextSnapshot symbol = some number) (other : Symbol) (depth : Nat) :
    (registry.snapshot other depth).1.symbol = other ∧
      (other = symbol → (registry.snapshot other depth).1.sequenceNumber = number) ∧
      (registry.snapshot other depth).2.nextSnapshot symbol =
        some (if other = symbol then number + 1 else number) := by
  unfold snapshot
  cases found : registry.find other with
  | none =>
    have apart : other ≠ symbol := by
      rintro rfl
      rw [nextSnapshot, found] at listed
      cases listed
    refine ⟨rfl, fun same => absurd same apart, ?_⟩
    rw [if_neg apart]
    exact listed
  | some instrument =>
    have own : other = symbol → instrument.nextSnapshotSequenceNumber = number := by
      rintro rfl
      rw [nextSnapshot, found] at listed
      exact Option.some.inj listed
    refine ⟨rfl, own, ?_⟩
    show InstrumentRegistry.nextSnapshot { registry with
      instruments := registry.instruments.insert other _ } symbol = _
    rw [nextSnapshot_insert]
    by_cases same : other = symbol
    · rw [if_pos same, if_pos same, ← own same]
    · rw [if_neg same, if_neg same]
      exact listed

/-- The snapshots of a listed symbol are numbered one by one, whatever is called in between. -/
theorem snapshotNumbers_run (calls : List RegistryCall) {registry : InstrumentRegistry}
    {symbol : Symbol} {number : UInt64} (listed : registry.nextSnapshot symbol = some number) :
    snapshotNumbers symbol (run callRegistry registry calls).1 =
      (List.range (calls.countP (RegistryCall.observes symbol))).map
        (fun later => number + UInt64.ofNat later) := by
  induction calls generalizing registry number with
  | nil => rfl
  | cons call rest ih =>
    have split : snapshotNumbers symbol (run callRegistry registry (call :: rest)).1 =
        snapshotNumbers symbol [(callRegistry registry call).1] ++
          snapshotNumbers symbol (run callRegistry (callRegistry registry call).2 rest).1 := by
      unfold snapshotNumbers
      rw [← List.filterMap_append]
      rfl
    rw [split]
    cases acts : call.acts with
    | true =>
      have silent : snapshotNumbers symbol [(callRegistry registry call).1] = [] ∧
          call.observes symbol = false := by
        cases call with
        | snapshot _ _ => cases acts
        | _ => exact ⟨rfl, rfl⟩
      rw [silent.1, List.nil_append, List.countP_cons_of_neg (by simp [silent.2])]
      exact ih (nextSnapshot_callRegistry registry listed acts)
    | false =>
      cases call with
      | snapshot other depth =>
        obtain ⟨named, shown, counted⟩ := registry.nextSnapshot_snapshot listed other depth
        have later := ih counted
        have here : snapshotNumbers symbol
            [(callRegistry registry (.snapshot other depth)).1] =
            if other = symbol then
              [(registry.snapshot other depth).1.sequenceNumber] else [] := by
          simp only [snapshotNumbers, callRegistry, List.filterMap_cons, List.filterMap_nil, named]
          by_cases same : other = symbol
          · simp [same]
          · simp [same]
        rw [here]
        show _ ++ snapshotNumbers symbol
          (run callRegistry (registry.snapshot other depth).2 rest).1 = _
        rw [later]
        by_cases same : other = symbol
        · rw [if_pos same, if_pos same, shown same,
            List.countP_cons_of_pos (by simp [RegistryCall.observes, same]),
            List.range_succ_eq_map, List.map_cons, List.map_map]
          simp only [List.cons_append, List.nil_append, List.cons.injEq]
          refine ⟨by simp, ?_⟩
          apply List.map_congr_left
          intro later _
          simp only [Function.comp_apply, Nat.succ_eq_add_one, UInt64.ofNat_add]
          rw [UInt64.add_assoc, UInt64.add_comm 1]
          rfl
        · rw [if_neg same, if_neg same, List.nil_append,
            List.countP_cons_of_neg (by simp [RegistryCall.observes, same])]
      | _ => cases acts

/-- From any registry and for any calls: without the snapshots among them all other calls have the
same answers and lead to a registry that shows the same, and the snapshots of a listed symbol have
consecutive numbers. -/
theorem snapshots_only_observe (registry : InstrumentRegistry) (calls : List RegistryCall) :
    let whole := run callRegistry registry calls
    let quiet := run callRegistry registry (calls.filter RegistryCall.acts)
    outputsOf RegistryCall.acts calls whole.1 = quiet.1 ∧ SameButNumbers whole.2 quiet.2 ∧
      ∀ symbol number, registry.nextSnapshot symbol = some number →
        snapshotNumbers symbol whole.1 =
          (List.range (calls.countP (RegistryCall.observes symbol))).map
            (fun later => number + UInt64.ofNat later) := by
  intro whole quiet
  have seen : ∀ (left right : InstrumentRegistry) (call : RegistryCall),
      left.unnumbered = right.unnumbered → True → call.acts = true →
      (callRegistry left call).1 = (callRegistry right call).1 ∧
        (callRegistry left call).2.unnumbered = (callRegistry right call).2.unnumbered := by
    intro left right call same _ acts
    have first := left.callRegistry_unnumbered acts
    rw [same, right.callRegistry_unnumbered acts] at first
    exact ⟨(congrArg Prod.fst first).symm, (congrArg Prod.snd first).symm⟩
  have unseen : ∀ (left right : InstrumentRegistry) (call : RegistryCall),
      left.unnumbered = right.unnumbered → True → call.acts = false →
      (callRegistry left call).2.unnumbered = right.unnumbered := by
    intro left right call same _ idle
    cases call with
    | snapshot symbol depth => exact (left.snapshot_unnumbered symbol depth).trans same
    | _ => cases idle
  obtain ⟨answers, ended⟩ := run_filter RegistryCall.acts
    (fun left right : InstrumentRegistry => left.unnumbered = right.unnumbered) seen unseen
    (Eq.refl registry.unnumbered) (admissible_true callRegistry registry calls)
  exact ⟨answers, sameButNumbers_of_unnumbered ended,
    fun symbol number listed => snapshotNumbers_run calls listed⟩

end InstrumentRegistry

end Titan
