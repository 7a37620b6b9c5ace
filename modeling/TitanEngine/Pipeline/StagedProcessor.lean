import TitanEngine.Pipeline.SpscQueue
import TitanEngine.Spec.Market

/-!
# The staged processor

`StagedProcessor` of `src/pipeline/staged_processor.cpp`: a producer thread puts events into the
ring buffer, spinning while it is full, and a consumer thread applies them to a registry until
it meets the sentinel of `stop`. A list of moves interleaves the steps of the two threads. What
the consumer does between two accesses of the queue touches nothing the producer sees, so it is
one step.

Once the consumer has exited, the registry, the applied sequence numbers and the trades handed
to the callback are those of the same operations called directly, on either backend.
-/

namespace Titan

open Library

/-- `PipelineEventKind`. -/
inductive PipelineEventKind where
  | submitOrder
  | cancelOrder
  | matchOrder
  | cancelReplace
  | shutdown
  deriving DecidableEq, Repr, Inhabited

/-- `PipelineEvent`, with its member initialisers. -/
structure PipelineEvent where
  /-- What is to be done. -/
  kind : PipelineEventKind := .shutdown
  /-- The caller's number of the event. -/
  sequence : UInt64 := 0
  /-- When it was enqueued. -/
  enqueueTimeNs : UInt64 := 0
  /-- The instrument. -/
  symbol : Symbol := []
  /-- The order of a submission, a match or a replacement. -/
  order : Order := default
  /-- The id to cancel or to replace. -/
  cancelId : OrderId := 0
  deriving DecidableEq, Repr, Inhabited

/-- A call of the producer's interface. -/
inductive EnqueueCall where
  | enqueueSubmit (symbol : Symbol) (order : Order) (sequence : UInt64)
  | enqueueCancel (symbol : Symbol) (id : OrderId) (sequence : UInt64)
  | enqueueMatch (symbol : Symbol) (order : Order) (sequence : UInt64)
  | enqueueCancelReplace (symbol : Symbol) (oldId : OrderId) (newOrder : Order)
      (sequence : UInt64)
  deriving DecidableEq, Repr

namespace EnqueueCall

/-- The argument `sequence`. -/
def sequence : EnqueueCall → UInt64
  | enqueueSubmit _ _ sequence => sequence
  | enqueueCancel _ _ sequence => sequence
  | enqueueMatch _ _ sequence => sequence
  | enqueueCancelReplace _ _ _ sequence => sequence

/-- The event a call builds; `now` is what `nowNanos` reads in it. -/
def event (call : EnqueueCall) (now : UInt64) : PipelineEvent :=
  match call with
  | enqueueSubmit symbol order sequence =>
    { kind := .submitOrder
      sequence := sequence
      enqueueTimeNs := now
      symbol := symbol
      order := order }
  | enqueueCancel symbol id sequence =>
    { kind := .cancelOrder
      sequence := sequence
      enqueueTimeNs := now
      symbol := symbol
      cancelId := id }
  | enqueueMatch symbol order sequence =>
    { kind := .matchOrder
      sequence := sequence
      enqueueTimeNs := now
      symbol := symbol
      order := order }
  | enqueueCancelReplace symbol oldId newOrder sequence =>
    { kind := .cancelReplace
      sequence := sequence
      enqueueTimeNs := now
      symbol := symbol
      cancelId := oldId
      order := newOrder }

/-- The same operation called on a registry, with the trades it returns. -/
def direct (registry : InstrumentRegistry) (call : EnqueueCall) :
    List Trade × InstrumentRegistry :=
  match call with
  | enqueueSubmit symbol order _ => ([], (registry.submitOrder symbol order).2)
  | enqueueCancel symbol id _ => ([], (registry.cancelOrder symbol id).2)
  | enqueueMatch symbol order _ => registry.matchOrder symbol order
  | enqueueCancelReplace symbol oldId newOrder _ =>
    ([], (registry.cancelReplace symbol oldId newOrder).2)

end EnqueueCall

/-- The `switch` of `consumerLoop`. -/
def dispatch (registry : InstrumentRegistry) (event : PipelineEvent) :
    List Trade × InstrumentRegistry :=
  match event.kind with
  | .submitOrder => ([], (registry.submitOrder event.symbol event.order).2)
  | .cancelOrder => ([], (registry.cancelOrder event.symbol event.cancelId).2)
  | .matchOrder => registry.matchOrder event.symbol event.order
  | .cancelReplace => ([], (registry.cancelReplace event.symbol event.cancelId event.order).2)
  | .shutdown => ([], registry)

/-- `kPipelineQueueCapacity`. -/
def kPipelineQueueCapacity : Capacity where
  size := 4096
  atLeastTwo := by decide
  powerOfTwo := by decide

/-- The arguments of one call of the apply callback. -/
structure Applied where
  /-- Number of the event. -/
  sequence : UInt64
  /-- Trades it produced. -/
  trades : List Trade
  /-- Nanoseconds from being enqueued to being applied. -/
  latency : UInt64
  deriving DecidableEq, Repr

/-- `StagedProcessor` with its two threads. -/
structure StagedProcessor where
  /-- `registry_`. -/
  registry : InstrumentRegistry
  /-- `queue_`, with where the threads are in its calls. -/
  queue : SpscSystem PipelineEvent kPipelineQueueCapacity
  /-- Whether `applyCallback_` is set. -/
  hasCallback : Bool
  /-- `appliedSequences_`. -/
  appliedSequences : List UInt64
  /-- The calls of `applyCallback_`. -/
  callbacks : List Applied
  /-- The events the producer has still to enqueue, the one it holds first. -/
  pending : List PipelineEvent
  /-- `event` of `consumerLoop`, once it was dequeued and until it is applied. -/
  inHand : Option PipelineEvent
  /-- The consumer has left its loop. -/
  exited : Bool

/-- Whose turn it is; the consumer's clock shows `now`. -/
inductive StagedMove where
  | producer
  | consumer (now : UInt64)
  deriving DecidableEq, Repr

namespace StagedProcessor

/-- `createInstrument` for each symbol, then `start`: the producer goes through its calls, each
with its clock reading, and then through `stop`. -/
def start (allocator : SlabAllocator) (backend : MatcherBackend) (symbols : List Symbol)
    (hasCallback : Bool) (slots : Vector PipelineEvent kPipelineQueueCapacity.size)
    (calls : List (EnqueueCall × UInt64)) : StagedProcessor where
  registry :=
    symbols.foldl InstrumentRegistry.createInstrument (InstrumentRegistry.init allocator backend)
  queue := SpscSystem.init slots
  hasCallback := hasCallback
  appliedSequences := []
  callbacks := []
  pending := calls.map (fun call => call.1.event call.2) ++ [{ kind := .shutdown }]
  inHand := none
  exited := false

/-- The next step of the loop of `enqueue`: another try, or the next step of the one in
progress. An event that was refused is tried again. -/
def producerMove (moved : PipelineEvent → PipelineEvent) (staged : StagedProcessor) :
    StagedProcessor :=
  match staged.queue.producer, staged.pending with
  | .idle, [] => staged
  | .idle, event :: _ => { staged with queue := (staged.queue.step moved (.enqueue event)).2 }
  | _, _ =>
    let (outcome, queue) := staged.queue.step moved .producer
    match outcome with
    | some (.enqueued _) => { staged with queue := queue, pending := staged.pending.tail }
    | some (.refused item) =>
      { staged with queue := queue, pending := item :: staged.pending.tail }
    | _ => { staged with queue := queue }

/-- The body of `consumerLoop` after an event was dequeued. -/
def applyEvent (staged : StagedProcessor) (event : PipelineEvent) (now : UInt64) :
    StagedProcessor :=
  if event.kind = .shutdown then { staged with exited := true }
  else
    let (trades, registry) := dispatch staged.registry event
    { staged with
      registry := registry
      appliedSequences := staged.appliedSequences ++ [event.sequence]
      callbacks :=
        if staged.hasCallback then
          staged.callbacks ++
            [{ sequence := event.sequence, trades := trades, latency := now - event.enqueueTimeNs }]
        else staged.callbacks
      inHand := none }

/-- The next step of the call of `try_dequeue` in `consumerLoop`; a call that fails is made
again. -/
def poll (moved : PipelineEvent → PipelineEvent) (staged : StagedProcessor) : StagedProcessor :=
  let (outcome, queue) := staged.queue.step moved .consumer
  match outcome with
  | some (.dequeued event) => { staged with queue := queue, inHand := some event }
  | _ => { staged with queue := queue }

/-- The next step of `consumerLoop`. -/
def consumerMove (moved : PipelineEvent → PipelineEvent) (staged : StagedProcessor)
    (now : UInt64) : StagedProcessor :=
  if staged.exited then staged
  else
    match staged.inHand with
    | some event => staged.applyEvent event now
    | none => staged.poll moved

/-- One step of either thread. -/
def step (moved : PipelineEvent → PipelineEvent) (staged : StagedProcessor) (move : StagedMove) :
    StagedProcessor :=
  match move with
  | .producer => staged.producerMove moved
  | .consumer now => staged.consumerMove moved now

/-- The item of the call the producer is in. -/
def carried : Producer PipelineEvent kPipelineQueueCapacity → Option PipelineEvent
  | .idle => none
  | .loadedTail item _ => some item
  | .hasRoom item _ => some item
  | .written item _ => some item

/-- How far the two threads are: the queue's history and the events that were applied. -/
structure Progress (program : List PipelineEvent) (registry : InstrumentRegistry)
    (staged : StagedProcessor) (fifo : Fifo PipelineEvent) (processed : List PipelineEvent) :
    Prop where
  /-- The queue holds what it was given. -/
  holds : staged.queue.Holds fifo
  /-- Every event of the program was delivered, waits or is still to be enqueued. -/
  whole : fifo.delivered ++ fifo.waiting ++ staged.pending = program
  /-- The producer tries the first event still to be enqueued. -/
  trying : ∀ item, carried staged.queue.producer = some item → staged.pending.head? = some item
  /-- What was delivered was applied, but for the event in the consumer's hands. -/
  delivered : fifo.delivered = processed ++ staged.inHand.toList
  /-- No sentinel was applied. -/
  worked : ∀ event ∈ processed, event.kind ≠ .shutdown
  /-- The registry received the applied events in their order. -/
  applied : staged.registry = (run dispatch registry processed).2
  /-- Their numbers were noted in their order. -/
  sequences : staged.appliedSequences = processed.map PipelineEvent.sequence
  /-- So were their trades, for the callback. -/
  called : staged.callbacks.map (fun call => (call.sequence, call.trades)) =
    if staged.hasCallback then
      (processed.map PipelineEvent.sequence).zip (run dispatch registry processed).1
    else []
  /-- The consumer leaves its loop with a sentinel in its hands. -/
  left : staged.exited = true → ∃ event, staged.inHand = some event ∧ event.kind = .shutdown

variable {program : List PipelineEvent} {registry : InstrumentRegistry}
  {staged : StagedProcessor} {fifo : Fifo PipelineEvent} {processed : List PipelineEvent}

/-- Only the queue and the program of the producer matter to the producer's progress. -/
theorem Progress.requeue (progress : Progress program registry staged fifo processed)
    {queue : SpscSystem PipelineEvent kPipelineQueueCapacity} {pending : List PipelineEvent}
    {next : Fifo PipelineEvent} (holds : queue.Holds next)
    (delivered : next.delivered = fifo.delivered)
    (whole : next.waiting ++ pending = fifo.waiting ++ staged.pending)
    (trying : ∀ item, carried queue.producer = some item → pending.head? = some item) :
    Progress program registry { staged with queue := queue, pending := pending } next
      processed where
  holds := holds
  whole := by
    rw [delivered, List.append_assoc, whole, ← List.append_assoc]
    exact progress.whole
  trying := trying
  delivered := delivered.trans progress.delivered
  worked := progress.worked
  applied := progress.applied
  sequences := progress.sequences
  called := progress.called
  left := progress.left

/-- The producer's steps keep the progress. -/
theorem Progress.producerMove (moved : PipelineEvent → PipelineEvent)
    (progress : Progress program registry staged fifo processed) :
    ∃ next, Progress program registry (staged.producerMove moved) next processed := by
  -- in a call, the item tried is the first one of the program
  have first : ∀ item, carried staged.queue.producer = some item →
      ∃ later, staged.pending = item :: later :=
    fun item carries => List.head?_eq_some_iff.mp (progress.trying item carries)
  cases phase : staged.queue.producer with
  | idle =>
    cases rest : staged.pending with
    | nil =>
      simp only [StagedProcessor.producerMove, phase, rest]
      exact ⟨fifo, progress⟩
    | cons event later =>
      obtain ⟨next, answer, holds⟩ := progress.holds.step moved (.enqueue event)
      simp only [StagedProcessor.producerMove, phase, rest]
      simp only [SpscSystem.step, phase] at answer holds ⊢
      cases answer
      refine ⟨fifo, progress.requeue holds rfl (by rw [rest]) ?_⟩
      intro item carries
      simpa [carried] using carries
  | loadedTail item tail =>
    obtain ⟨later, rest⟩ := first item (by rw [phase]; rfl)
    obtain ⟨next, answer, holds⟩ := progress.holds.step moved .producer
    simp only [StagedProcessor.producerMove, phase, rest]
    simp only [SpscSystem.step, SpscSystem.producerStep, phase] at answer holds ⊢
    by_cases full : kPipelineQueueCapacity.advance tail = staged.queue.queue.head
    · simp only [if_pos full] at answer holds ⊢
      cases answer
      refine ⟨fifo, progress.requeue holds rfl (by rw [rest]; rfl) ?_⟩
      intro other carries
      cases carries
    · simp only [if_neg full] at answer holds ⊢
      cases answer
      refine ⟨fifo, progress.requeue holds rfl (by rw [rest]) ?_⟩
      intro other carries
      simpa [carried] using carries
  | hasRoom item tail =>
    obtain ⟨later, rest⟩ := first item (by rw [phase]; rfl)
    obtain ⟨next, answer, holds⟩ := progress.holds.step moved .producer
    simp only [StagedProcessor.producerMove, phase, rest]
    simp only [SpscSystem.step, SpscSystem.producerStep, phase] at answer holds ⊢
    cases answer
    refine ⟨fifo, progress.requeue holds rfl (by rw [rest]) ?_⟩
    intro other carries
    simpa [carried] using carries
  | written item tail =>
    obtain ⟨later, rest⟩ := first item (by rw [phase]; rfl)
    obtain ⟨next, answer, holds⟩ := progress.holds.step moved .producer
    simp only [StagedProcessor.producerMove, phase, rest]
    simp only [SpscSystem.step, SpscSystem.producerStep, phase] at answer holds ⊢
    cases answer
    refine ⟨_, progress.requeue holds rfl ?_ ?_⟩
    · rw [rest]
      simp
    · intro other carries
      cases carries

/-- Applying an event to a registry goes on with the run that applied the earlier ones. -/
theorem run_snoc (registry : InstrumentRegistry) (processed : List PipelineEvent)
    (event : PipelineEvent) :
    run dispatch registry (processed ++ [event]) =
      ((run dispatch registry processed).1 ++
          [(dispatch (run dispatch registry processed).2 event).1],
        (dispatch (run dispatch registry processed).2 event).2) := by
  rw [run_append]
  rfl

/-- Applying the event in hand keeps the progress. -/
theorem Progress.applyEvent (progress : Progress program registry staged fifo processed)
    {event : PipelineEvent} (hand : staged.inHand = some event)
    (running : ¬ staged.exited = true) (now : UInt64) :
    ∃ done, Progress program registry (staged.applyEvent event now) fifo done := by
  have delivered := progress.delivered
  rw [hand] at delivered
  unfold StagedProcessor.applyEvent
  by_cases sentinel : event.kind = .shutdown
  · rw [if_pos sentinel]
    exact ⟨processed, { progress with left := fun _ => ⟨event, hand, sentinel⟩ }⟩
  · rw [if_neg sentinel]
    have lengths : (processed.map PipelineEvent.sequence).length =
        (run dispatch registry processed).1.length := by
      rw [List.length_map, length_run]
    refine ⟨processed ++ [event], ?_⟩
    constructor
    · exact progress.holds
    · exact progress.whole
    · exact progress.trying
    · simpa using delivered
    · intro other member
      rcases List.mem_append.mp member with old | new
      · exact progress.worked other old
      · rw [List.mem_singleton.mp new]
        exact sentinel
    · rw [run_snoc, ← progress.applied]
    · show staged.appliedSequences ++ [event.sequence] = _
      rw [progress.sequences, List.map_append]
      rfl
    · have called := progress.called
      rw [run_snoc, ← progress.applied]
      cases callback : staged.hasCallback with
      | false => simpa [callback] using called
      | true =>
        simp only [callback, ↓reduceIte] at called ⊢
        simp only [List.map_append, List.map_cons, List.map_nil, called,
          List.zip_append lengths]
        rfl
    · exact fun exited => absurd exited running

/-- Polling the queue keeps the progress. -/
theorem Progress.poll (moved : PipelineEvent → PipelineEvent)
    (progress : Progress program registry staged fifo processed)
    (hand : staged.inHand = none) (running : ¬ staged.exited = true) :
    ∃ next, Progress program registry (staged.poll moved) next processed := by
  obtain ⟨next, answer, holds⟩ := progress.holds.step moved .consumer
  have same : (staged.queue.step moved .consumer).2.producer = staged.queue.producer :=
    congrArg (fun result => result.2.producer)
      (SpscSystem.consumerStep_producer moved staged.queue staged.queue.producer)
  have trying := progress.trying
  rw [← same] at trying
  unfold StagedProcessor.poll
  cases phase : staged.queue.consumer with
  | loadedHead head =>
    simp only [SpscSystem.step, SpscSystem.consumerStep, phase] at answer holds trying ⊢
    by_cases met : head = staged.queue.queue.tail
    · simp only [if_pos met] at answer holds trying ⊢
      cases answer
      exact ⟨fifo, progress.requeue holds rfl rfl trying⟩
    · simp only [if_neg met] at answer holds trying ⊢
      cases answer
      exact ⟨fifo, progress.requeue holds rfl rfl trying⟩
  | read head out =>
    simp only [SpscSystem.step, SpscSystem.consumerStep, phase] at answer holds trying ⊢
    cases answer with
    | dequeued front =>
      have whole := progress.whole
      have delivered := progress.delivered
      rw [hand] at delivered
      refine ⟨_, { progress with
        holds := holds
        whole := ?_
        trying := trying
        delivered := ?_
        left := fun left => absurd left running }⟩
      · rw [← whole, front]
        simp
      · show fifo.delivered ++ [out] = processed ++ [out]
        rw [delivered]
        simp
  | _ =>
    simp only [SpscSystem.step, SpscSystem.consumerStep, phase] at answer holds trying ⊢
    cases answer
    exact ⟨fifo, progress.requeue holds rfl rfl trying⟩

/-- The consumer's steps keep the progress. -/
theorem Progress.consumerMove (moved : PipelineEvent → PipelineEvent)
    (progress : Progress program registry staged fifo processed) (now : UInt64) :
    ∃ next done, Progress program registry (staged.consumerMove moved now) next done := by
  unfold StagedProcessor.consumerMove
  by_cases exited : staged.exited = true
  · rw [if_pos exited]
    exact ⟨fifo, processed, progress⟩
  · rw [if_neg exited]
    cases hand : staged.inHand with
    | some event => exact ⟨fifo, progress.applyEvent hand exited now⟩
    | none =>
      obtain ⟨next, still⟩ := progress.poll moved hand exited
      exact ⟨next, processed, still⟩

/-- Every step keeps the progress. -/
theorem Progress.step (moved : PipelineEvent → PipelineEvent)
    (progress : Progress program registry staged fifo processed) (move : StagedMove) :
    ∃ next done, Progress program registry (staged.step moved move) next done := by
  cases move with
  | producer =>
    obtain ⟨next, still⟩ := progress.producerMove moved
    exact ⟨next, processed, still⟩
  | consumer now => exact progress.consumerMove moved now

/-- The events of the producer's calls. -/
def events (calls : List (EnqueueCall × UInt64)) : List PipelineEvent :=
  calls.map (fun call => call.1.event call.2)

/-- The registry a pipeline starts on, or that is called directly. -/
def listed (allocator : SlabAllocator) (backend : MatcherBackend) (symbols : List Symbol) :
    InstrumentRegistry :=
  symbols.foldl InstrumentRegistry.createInstrument (InstrumentRegistry.init allocator backend)

/-- Nothing has happened at the start. -/
theorem progress_start (allocator : SlabAllocator) (backend : MatcherBackend)
    (symbols : List Symbol) (hasCallback : Bool)
    (slots : Vector PipelineEvent kPipelineQueueCapacity.size)
    (calls : List (EnqueueCall × UInt64)) :
    Progress (events calls ++ [{ kind := .shutdown }]) (listed allocator backend symbols)
      (start allocator backend symbols hasCallback slots calls) Fifo.empty [] where
  holds := SpscSystem.holds_init slots
  whole := rfl
  trying _ carries := nomatch carries
  delivered := rfl
  worked _ member := nomatch member
  applied := rfl
  sequences := rfl
  called := by cases hasCallback <;> rfl
  left exited := nomatch exited

/-- Every interleaving makes progress from there. -/
theorem progress_run (moved : PipelineEvent → PipelineEvent) (moves : List StagedMove)
    (start : Progress program registry staged fifo processed) :
    ∃ next done, Progress program registry (moves.foldl (StagedProcessor.step moved) staged)
      next done := by
  induction moves generalizing staged fifo processed with
  | nil => exact ⟨fifo, processed, start⟩
  | cons move moves ih =>
    obtain ⟨next, done, still⟩ := start.step moved move
    exact ih still

/-- No step sets or unsets the callback. -/
theorem hasCallback_step (moved : PipelineEvent → PipelineEvent) (staged : StagedProcessor)
    (move : StagedMove) : (staged.step moved move).hasCallback = staged.hasCallback := by
  cases move with
  | producer =>
    simp only [StagedProcessor.step, StagedProcessor.producerMove]
    split
    · rfl
    · rfl
    · split <;> rfl
  | consumer now =>
    simp only [StagedProcessor.step, StagedProcessor.consumerMove, StagedProcessor.applyEvent,
      StagedProcessor.poll]
    split
    · rfl
    · split
      · split <;> rfl
      · split <;> rfl

/-- No run sets or unsets the callback. -/
theorem hasCallback_run (moved : PipelineEvent → PipelineEvent) (staged : StagedProcessor)
    (moves : List StagedMove) :
    (moves.foldl (StagedProcessor.step moved) staged).hasCallback = staged.hasCallback := by
  induction moves generalizing staged with
  | nil => rfl
  | cons move moves ih => rw [List.foldl_cons, ih, hasCallback_step]

/-- The events before the first sentinel of a list. -/
theorem takeWhile_sentinel {work : List PipelineEvent}
    (working : ∀ event ∈ work, event.kind ≠ .shutdown) {sentinel : PipelineEvent}
    (stops : sentinel.kind = .shutdown) (rest : List PipelineEvent) :
    (work ++ sentinel :: rest).takeWhile
      (fun event : PipelineEvent => decide (event.kind ≠ .shutdown)) = work := by
  rw [List.takeWhile_append_of_pos (fun event member => decide_eq_true (working event member)),
    List.takeWhile_cons_of_neg (by simp [stops]), List.append_nil]

/-- A consumer that has left its loop has applied every event before the sentinel. -/
theorem Progress.finished {sentinel : PipelineEvent} {work : List PipelineEvent}
    (progress : Progress (work ++ [sentinel]) registry staged fifo processed)
    (working : ∀ event ∈ work, event.kind ≠ .shutdown) (stops : sentinel.kind = .shutdown)
    (exited : staged.exited = true) : processed = work := by
  obtain ⟨last, hand, ended⟩ := progress.left exited
  have whole : processed ++ last :: (fifo.waiting ++ staged.pending) = work ++ [sentinel] := by
    have kept := progress.whole
    rw [progress.delivered, hand] at kept
    simpa using kept
  have before := takeWhile_sentinel progress.worked ended (fifo.waiting ++ staged.pending)
  rw [whole, takeWhile_sentinel working stops []] at before
  exact before.symm

/-- An event does to a registry what its call does directly. -/
theorem dispatch_event (registry : InstrumentRegistry) (call : EnqueueCall) (now : UInt64) :
    dispatch registry (call.event now) = call.direct registry := by
  cases call <;> rfl

/-- So do the events of a list of calls. -/
theorem run_events (registry : InstrumentRegistry) (calls : List (EnqueueCall × UInt64)) :
    run dispatch registry (events calls) =
      run EnqueueCall.direct registry (calls.map Prod.fst) := by
  induction calls generalizing registry with
  | nil => rfl
  | cons call calls ih =>
    have later := ih (call.1.direct registry).2
    simp only [events, List.map_cons, run, dispatch_event] at later ⊢
    rw [later]

/-- No call builds a sentinel. -/
theorem kind_event (calls : List (EnqueueCall × UInt64)) :
    ∀ event ∈ events calls, event.kind ≠ .shutdown := by
  intro event member
  obtain ⟨⟨call, now⟩, _, rfl⟩ := List.mem_map.mp member
  cases call <;> exact fun equal => nomatch equal

/-- The number of an event is the argument of its call. -/
theorem sequence_event (calls : List (EnqueueCall × UInt64)) :
    (events calls).map PipelineEvent.sequence = calls.map (fun call => call.1.sequence) := by
  rw [events, List.map_map]
  apply List.map_congr_left
  rintro ⟨call, now⟩ _
  cases call <;> rfl

/-- Registries that are alike answer a call alike and stay alike. -/
theorem direct_alike {left right : InstrumentRegistry}
    (alike : InstrumentRegistry.Alike left right) (call : EnqueueCall) :
    (call.direct left).1 = (call.direct right).1 ∧
      InstrumentRegistry.Alike (call.direct left).2 (call.direct right).2 := by
  obtain ⟨market, first, second⟩ := alike
  cases call with
  | enqueueSubmit symbol order _ =>
    exact ⟨rfl, _, (first.submitOrder symbol order).2, (second.submitOrder symbol order).2⟩
  | enqueueCancel symbol id _ =>
    exact ⟨rfl, _, (first.cancelOrder symbol id).2, (second.cancelOrder symbol id).2⟩
  | enqueueMatch symbol order _ =>
    have left_ := first.matchOrder symbol order
    have right_ := second.matchOrder symbol order
    exact ⟨left_.1.trans right_.1.symm, _, left_.2, right_.2⟩
  | enqueueCancelReplace symbol oldId newOrder _ =>
    exact ⟨rfl, _, (first.cancelReplace symbol oldId newOrder).2,
      (second.cancelReplace symbol oldId newOrder).2⟩

/-- Registries of either backend with the same symbols listed are alike. -/
theorem listed_alike (allocator other : SlabAllocator) (backend otherBackend : MatcherBackend)
    (symbols : List Symbol) :
    InstrumentRegistry.Alike (listed allocator backend symbols)
      (listed other otherBackend symbols) := by
  have kept : ∀ left right : InstrumentRegistry, InstrumentRegistry.Alike left right →
      InstrumentRegistry.Alike (symbols.foldl InstrumentRegistry.createInstrument left)
        (symbols.foldl InstrumentRegistry.createInstrument right) := by
    induction symbols with
    | nil => exact fun _ _ alike => alike
    | cons symbol symbols ih =>
      intro left right alike
      exact ih _ _ (alike.createInstrument symbol)
  exact kept _ _ (InstrumentRegistry.alike_init allocator other backend otherBackend)

/-- The pipeline is transparent: however the steps of its threads interleave, once the consumer
has exited, it has applied the calls in their order, handed their trades to the callback, and
left a registry that shows what one of either backend shows on which the same operations were
called directly. -/
theorem staged_is_transparent (allocator other : SlabAllocator)
    (backend otherBackend : MatcherBackend) (symbols : List Symbol) (hasCallback : Bool)
    (moved : PipelineEvent → PipelineEvent)
    (slots : Vector PipelineEvent kPipelineQueueCapacity.size)
    (calls : List (EnqueueCall × UInt64)) (moves : List StagedMove)
    (exited : (moves.foldl (StagedProcessor.step moved)
      (start allocator backend symbols hasCallback slots calls)).exited = true) :
    let final := moves.foldl (StagedProcessor.step moved)
      (start allocator backend symbols hasCallback slots calls)
    let direct :=
      run EnqueueCall.direct (listed other otherBackend symbols) (calls.map Prod.fst)
    final.appliedSequences = calls.map (fun call => call.1.sequence) ∧
      final.callbacks.map (fun call => (call.sequence, call.trades)) =
        (if hasCallback then (calls.map (fun call => call.1.sequence)).zip direct.1 else []) ∧
      InstrumentRegistry.SameView final.registry direct.2 := by
  intro final direct
  obtain ⟨fifo, processed, progress⟩ :=
    progress_run moved moves (progress_start allocator backend symbols hasCallback slots calls)
  obtain rfl := progress.finished (kind_event calls) rfl exited
  have same := run_simulation InstrumentRegistry.Alike
    (fun _ _ call alike _ => direct_alike alike call)
    (listed_alike allocator other backend otherBackend symbols)
    (admissible_true EnqueueCall.direct _ (calls.map Prod.fst))
  have callback : final.hasCallback = hasCallback := hasCallback_run moved _ moves
  refine ⟨?_, ?_, ?_⟩
  · rw [← sequence_event]
    exact progress.sequences
  · have called := progress.called
    rw [run_events, same.1, sequence_event, callback] at called
    exact called
  · have applied := progress.applied
    rw [run_events] at applied
    rw [applied]
    exact same.2.sameView

/-- A producer that is ahead of the consumer: a resting buy, a sell that matches it and the
sentinel go through the queue, over the optimized backend and directly over the reference one. -/
theorem staged_is_transparent_two_calls :
    let calls : List (EnqueueCall × UInt64) :=
      [(.enqueueSubmit [65] { id := 1, side := .buy, price := 100, quantity := 10 } 7, 0),
        (.enqueueMatch [65] { id := 2, side := .sell, price := 100, quantity := 4 } 9, 5)]
    let final := (List.replicate 12 StagedMove.producer ++
      List.replicate 15 (StagedMove.consumer 20)).foldl (StagedProcessor.step id)
        (start (.consecutive 2 (by decide)) .optimized [[65]] true
          (Vector.replicate _ default) calls)
    let direct := run EnqueueCall.direct
      (listed (.consecutive 2 (by decide)) .reference [[65]]) (calls.map Prod.fst)
    final.exited = true ∧ direct.1 = [[], [⟨2, 1, 100, 4⟩]] ∧
      final.appliedSequences = [7, 9] ∧
      final.callbacks.map (fun call => (call.sequence, call.trades)) =
        [(7, []), (9, [⟨2, 1, 100, 4⟩])] ∧
      InstrumentRegistry.SameView final.registry direct.2 := by
  intro calls final direct
  have exited : final.exited = true := by decide
  have trades : direct.1 = [[], [⟨2, 1, 100, 4⟩]] := by decide
  have same := staged_is_transparent (.consecutive 2 (by decide)) (.consecutive 2 (by decide))
    .optimized .reference [[65]] true id (Vector.replicate _ default) calls _ exited
  refine ⟨exited, trades, same.1, ?_, same.2.2⟩
  have called := same.2.1
  rw [show run EnqueueCall.direct (listed (.consecutive 2 (by decide)) .reference [[65]])
    (calls.map Prod.fst) = direct from rfl, trades] at called
  exact called

end StagedProcessor

end Titan
