import TitanEngine.Library.Fairness
import TitanEngine.Pipeline.StagedProcessor

/-!
# The staged processor always stops

Both threads of the staged processor spin: the producer while the queue is full, the consumer while
it is empty. A thread that spins waits for the other one, and the other one can go on: with
something in the queue or in its hands the consumer can, with nothing there the producer has an
event left to enqueue, the sentinel of `stop` being the last. So under every fair schedule of the
two threads `stop` returns, with every call applied.
-/

namespace Titan

open Library

/-- The two threads. -/
inductive StagedThread where
  | producer
  | consumer
  deriving DecidableEq, Repr

/-- Whose move it is. -/
def StagedMove.thread : StagedMove → StagedThread
  | .producer => .producer
  | .consumer _ => .consumer

namespace StagedProcessor

/-- The consumer has something to do. -/
def works (staged : StagedProcessor) : Bool := !staged.queue.queue.empty || staged.inHand.isSome

/-- The thread the other one may be waiting for. -/
def helper (staged : StagedProcessor) : StagedThread :=
  if staged.works then .consumer else .producer

/-- What is left of a call of `try_enqueue`. A thread that may be waiting makes no progress by
loading an index, so the load counts for the helper only. -/
def enqueueLeft (works : Bool) : Producer PipelineEvent kPipelineQueueCapacity → Nat
  | .idle => if works then 2 else 3
  | .loadedTail _ _ => 2
  | .hasRoom _ _ => 1
  | .written _ _ => 0

/-- What is left of a call of `try_dequeue`, or of the event that was dequeued. -/
def dequeueLeft (works : Bool) (inHand : Option PipelineEvent)
    (consumer : Consumer PipelineEvent kPipelineQueueCapacity) : Nat :=
  match inHand, consumer with
  | some _, _ => 4
  | none, .idle => if works then 3 else 2
  | none, .loadedHead _ => 2
  | none, .hasValue _ => 1
  | none, .read _ _ => 0

/-- What the two threads have still to do. -/
def workLeft (staged : StagedProcessor) : Nat :=
  10 * staged.pending.length + 6 * staged.queue.queue.size +
    enqueueLeft staged.works staged.queue.producer +
    dequeueLeft staged.works staged.inHand staged.queue.consumer

variable {program : List PipelineEvent} {registry : InstrumentRegistry}
  {staged : StagedProcessor} {fifo : Fifo PipelineEvent} {processed : List PipelineEvent}

/-- The consumer has something to do while an event waits or is in its hands. -/
theorem works_eq (holds : staged.queue.Holds fifo) :
    staged.works = (decide (0 < fifo.waiting.length) || staged.inHand.isSome) := by
  have empty := holds.counts.1
  unfold works
  congr 1
  rw [Bool.eq_iff_iff, Bool.not_eq_true', ← Bool.not_eq_true, empty, decide_eq_true_eq,
    List.length_pos_iff]

/-- A step of the producer leaves no more to do, and less when the consumer has nothing to do. -/
structure Approaches (staged next : StagedProcessor) : Prop where
  /-- A consumer with something to do is not disturbed. -/
  waits : staged.works = true → next.works = true ∧ next.workLeft ≤ staged.workLeft
  /-- A consumer without is brought something. -/
  helps : staged.works = false → next.workLeft < staged.workLeft

/-- A step within a call of `try_enqueue`, or out of it without an event. -/
theorem approaches_requeue {queue : SpscSystem PipelineEvent kPipelineQueueCapacity}
    {next : Fifo PipelineEvent} (holds : staged.queue.Holds fifo) (after : queue.Holds next)
    (consumer : queue.consumer = staged.queue.consumer)
    (same : next.waiting.length = fifo.waiting.length) {pending : List PipelineEvent}
    (rest : pending.length = staged.pending.length)
    (busy : enqueueLeft true queue.producer ≤ enqueueLeft true staged.queue.producer)
    (free : staged.works = false →
      enqueueLeft false queue.producer < enqueueLeft false staged.queue.producer) :
    Approaches staged { staged with queue := queue, pending := pending } := by
  let changed : StagedProcessor := { staged with queue := queue, pending := pending }
  have works : changed.works = staged.works := by
    rw [@works_eq changed _ after, works_eq holds, same]
  have size : changed.queue.queue.size = staged.queue.queue.size := by
    rw [holds.counts.2.2, show changed.queue.queue.size = _ from after.counts.2.2, same]
  have left : changed.workLeft + enqueueLeft staged.works staged.queue.producer =
      staged.workLeft + enqueueLeft staged.works queue.producer := by
    unfold workLeft
    rw [works, size, show changed.pending.length = _ from rest,
      show changed.queue.consumer = _ from consumer]
    show 10 * staged.pending.length + 6 * staged.queue.queue.size +
      enqueueLeft staged.works queue.producer +
      dequeueLeft staged.works staged.inHand staged.queue.consumer + _ = _
    omega
  constructor
  · intro active
    rw [active] at left
    exact ⟨works.trans active, by show changed.workLeft ≤ _; omega⟩
  · intro inactive
    have lower := free inactive
    rw [inactive] at left
    show changed.workLeft < _
    omega

/-- A published event costs more to enqueue than to apply. -/
theorem approaches_enqueued {queue : SpscSystem PipelineEvent kPipelineQueueCapacity}
    {item : PipelineEvent} {later : List PipelineEvent} (holds : staged.queue.Holds fifo)
    (after : queue.Holds { fifo with waiting := fifo.waiting ++ [item] })
    (consumer : queue.consumer = staged.queue.consumer) (idle : queue.producer = .idle)
    (rest : staged.pending = item :: later) :
    Approaches staged { staged with queue := queue, pending := later } := by
  let changed : StagedProcessor := { staged with queue := queue, pending := later }
  have grown : (fifo.waiting ++ [item]).length = fifo.waiting.length + 1 := by simp
  have works : changed.works = true := by
    rw [@works_eq changed _ after, grown]
    simp
  suffices lower : changed.workLeft < staged.workLeft from
    ⟨fun _ => ⟨works, Nat.le_of_lt lower⟩, fun _ => lower⟩
  have before := holds.counts.2.2
  have counted : changed.queue.queue.size = fifo.waiting.length + 1 :=
    after.counts.2.2.trans grown
  unfold workLeft
  rw [works, before, counted, rest, List.length_cons]
  show 10 * later.length + 6 * (fifo.waiting.length + 1) + enqueueLeft true queue.producer +
    dequeueLeft true staged.inHand queue.consumer < _
  rw [idle, consumer]
  -- an idle consumer that is woken up has one more load to make
  have woken : dequeueLeft true staged.inHand staged.queue.consumer ≤
      dequeueLeft staged.works staged.inHand staged.queue.consumer + 1 := by
    cases staged.inHand with
    | some event => exact Nat.le_succ _
    | none =>
      cases staged.queue.consumer with
      | idle => cases staged.works <;> simp [dequeueLeft]
      | _ => exact Nat.le_succ _
  simp only [enqueueLeft, ↓reduceIte]
  omega

/-- Every step of a producer that has something left to enqueue comes closer. -/
theorem Progress.approaches (moved : PipelineEvent → PipelineEvent)
    (progress : Progress program registry staged fifo processed)
    (some_ : staged.works = false → staged.pending ≠ []) :
    Approaches staged (staged.producerMove moved) := by
  have first : ∀ item, carried staged.queue.producer = some item →
      ∃ later, staged.pending = item :: later :=
    fun item carries => List.head?_eq_some_iff.mp (progress.trying item carries)
  have holds := progress.holds
  cases phase : staged.queue.producer with
  | idle =>
    cases rest : staged.pending with
    | nil =>
      simp only [StagedProcessor.producerMove, phase, rest]
      exact ⟨fun works => ⟨works, Nat.le_refl _⟩, fun idle => absurd rest (some_ idle)⟩
    | cons event later =>
      obtain ⟨next, answer, after⟩ := holds.step moved (.enqueue event)
      simp only [StagedProcessor.producerMove, phase, rest]
      simp only [SpscSystem.step, phase] at answer after ⊢
      cases answer
      exact approaches_requeue holds after rfl rfl (by rw [rest]) (by simp [phase, enqueueLeft])
        (by simp [phase, enqueueLeft])
  | loadedTail item tail =>
    obtain ⟨later, rest⟩ := first item (by rw [phase]; rfl)
    obtain ⟨next, answer, after⟩ := holds.step moved .producer
    simp only [StagedProcessor.producerMove, phase, rest]
    simp only [SpscSystem.step, SpscSystem.producerStep, phase] at answer after ⊢
    by_cases full : kPipelineQueueCapacity.advance tail = staged.queue.queue.head
    · simp only [if_pos full] at answer after ⊢
      cases answer with
      | refused all =>
        -- a queue that is full keeps the consumer busy
        refine approaches_requeue holds after rfl rfl (by rw [rest]; rfl)
          (by simp [phase, enqueueLeft]) ?_
        intro inactive
        rw [works_eq holds, all] at inactive
        simp [Capacity.usable, kPipelineQueueCapacity] at inactive
    · simp only [if_neg full] at answer after ⊢
      cases answer
      exact approaches_requeue holds after rfl rfl (by rw [rest]) (by simp [phase, enqueueLeft])
        (by simp [phase, enqueueLeft])
  | hasRoom item tail =>
    obtain ⟨later, rest⟩ := first item (by rw [phase]; rfl)
    obtain ⟨next, answer, after⟩ := holds.step moved .producer
    simp only [StagedProcessor.producerMove, phase, rest]
    simp only [SpscSystem.step, SpscSystem.producerStep, phase] at answer after ⊢
    cases answer
    exact approaches_requeue holds after rfl rfl (by rw [rest]) (by simp [phase, enqueueLeft])
      (by simp [phase, enqueueLeft])
  | written item tail =>
    obtain ⟨later, rest⟩ := first item (by rw [phase]; rfl)
    obtain ⟨next, answer, after⟩ := holds.step moved .producer
    simp only [StagedProcessor.producerMove, phase, rest]
    simp only [SpscSystem.step, SpscSystem.producerStep, phase] at answer after ⊢
    cases answer with
    | enqueued room => exact approaches_enqueued holds after rfl rfl rest

/-- A step of the consumer leaves its loop or less to do, and changes nothing of that when it has
nothing to do. -/
structure Consumes (staged next : StagedProcessor) : Prop where
  /-- A consumer with something to do gets on. -/
  helps : staged.works = true → next.exited = true ∨ next.workLeft < staged.workLeft
  /-- A consumer without spins. -/
  waits : staged.works = false → next.works = false ∧ next.workLeft = staged.workLeft

/-- A step within a call of `try_dequeue`, or out of it without an event. -/
theorem consumes_requeue {queue : SpscSystem PipelineEvent kPipelineQueueCapacity}
    {next : Fifo PipelineEvent} (holds : staged.queue.Holds fifo) (after : queue.Holds next)
    (producer : queue.producer = staged.queue.producer)
    (same : next.waiting.length = fifo.waiting.length)
    (busy : staged.works = true → dequeueLeft true staged.inHand queue.consumer <
      dequeueLeft true staged.inHand staged.queue.consumer)
    (free : staged.works = false → dequeueLeft false staged.inHand queue.consumer =
      dequeueLeft false staged.inHand staged.queue.consumer) :
    Consumes staged { staged with queue := queue } := by
  let changed : StagedProcessor := { staged with queue := queue }
  have works : changed.works = staged.works := by
    rw [@works_eq changed _ after, works_eq holds, same]
  have size : changed.queue.queue.size = staged.queue.queue.size := by
    rw [holds.counts.2.2, show changed.queue.queue.size = _ from after.counts.2.2, same]
  have left : changed.workLeft + dequeueLeft staged.works staged.inHand staged.queue.consumer =
      staged.workLeft + dequeueLeft staged.works staged.inHand queue.consumer := by
    unfold workLeft
    rw [works, size, show changed.queue.producer = _ from producer]
    show 10 * staged.pending.length + 6 * staged.queue.queue.size +
      enqueueLeft staged.works staged.queue.producer +
      dequeueLeft staged.works staged.inHand queue.consumer + _ = _
    omega
  constructor
  · intro active
    have lower := busy active
    rw [active] at left
    exact .inr (by show changed.workLeft < _; omega)
  · intro inactive
    have equal := free inactive
    rw [inactive] at left
    exact ⟨works.trans inactive, by show changed.workLeft = _; omega⟩

/-- Applying the event in hand leaves less to do. -/
theorem consumes_applied {event : PipelineEvent} (hand : staged.inHand = some event)
    (now : UInt64) :
    Consumes staged (staged.applyEvent event now) := by
  have works : staged.works = true := by simp [StagedProcessor.works, hand]
  refine ⟨fun _ => ?_, fun idle => absurd (works.symm.trans idle) (by simp)⟩
  by_cases sentinel : event.kind = .shutdown
  · exact .inl (by rw [applyEvent, if_pos sentinel])
  refine .inr ?_
  let next := staged.applyEvent event now
  have queue : next.queue = staged.queue := by simp [next, applyEvent, sentinel]
  have pending : next.pending = staged.pending := by simp [next, applyEvent, sentinel]
  have emptied : next.inHand = none := by simp [next, applyEvent, sentinel]
  show next.workLeft < _
  unfold workLeft
  rw [queue, pending, emptied, works, hand]
  -- the producer is the helper from here on when nothing is left in the queue
  cases after : next.works with
  | true =>
    have load : dequeueLeft true none staged.queue.consumer ≤ 3 := by
      cases staged.queue.consumer <;> simp [dequeueLeft]
    show _ + _ + _ + _ < _ + _ + _ + 4
    omega
  | false =>
    have load : dequeueLeft false none staged.queue.consumer ≤ 2 := by
      cases staged.queue.consumer <;> simp [dequeueLeft]
    have woken : enqueueLeft false staged.queue.producer ≤
        enqueueLeft true staged.queue.producer + 1 := by
      cases staged.queue.producer <;> simp [enqueueLeft]
    show _ + _ + _ + _ < _ + _ + _ + 4
    omega

/-- Every step of a consumer in its loop gets on or spins. -/
theorem Progress.consumes (moved : PipelineEvent → PipelineEvent)
    (progress : Progress program registry staged fifo processed) (running : staged.exited = false)
    (now : UInt64) : Consumes staged (staged.consumerMove moved now) := by
  have holds := progress.holds
  unfold StagedProcessor.consumerMove
  rw [running]
  simp only [Bool.false_eq_true, ↓reduceIte]
  cases hand : staged.inHand with
  | some event => exact consumes_applied hand now
  | none =>
    have works : staged.works = decide (0 < fifo.waiting.length) := by simp [works_eq holds, hand]
    have fits := holds.consumer
    obtain ⟨next, answer, after⟩ := holds.step moved .consumer
    simp only [StagedProcessor.poll]
    cases phase : staged.queue.consumer with
    | idle =>
      simp only [SpscSystem.step, SpscSystem.consumerStep, phase] at answer after ⊢
      cases answer
      exact consumes_requeue holds after rfl rfl (by simp [hand, phase, dequeueLeft])
        (by simp [hand, phase, dequeueLeft])
    | loadedHead head =>
      rw [phase] at fits
      obtain rfl : head = staged.queue.queue.head := fits
      simp only [SpscSystem.step, SpscSystem.consumerStep, phase] at answer after ⊢
      by_cases met : staged.queue.queue.head = staged.queue.queue.tail
      · simp only [if_pos met] at answer after ⊢
        cases answer
        have nothing := holds.empty_iff.mp met
        exact consumes_requeue holds after rfl rfl (by simp [works, nothing])
          (by simp [hand, phase, dequeueLeft])
      · simp only [if_neg met] at answer after ⊢
        cases answer
        have something : 0 < fifo.waiting.length :=
          List.length_pos_iff.mpr (fun nothing => met (holds.empty_iff.mpr nothing))
        exact consumes_requeue holds after rfl rfl (by simp [hand, phase, dequeueLeft])
          (by simp [works, something])
    | hasValue head =>
      rw [phase] at fits
      have something : 0 < fifo.waiting.length := List.length_pos_iff.mpr fits.2
      simp only [SpscSystem.step, SpscSystem.consumerStep, phase] at answer after ⊢
      cases answer
      exact consumes_requeue holds after rfl rfl (by simp [hand, phase, dequeueLeft])
        (by simp [works, something])
    | read head out =>
      simp only [SpscSystem.step, SpscSystem.consumerStep, phase] at answer after ⊢
      cases answer with
      | @dequeued _ rest front =>
        let next : StagedProcessor :=
          { staged with
            queue := { staged.queue with
              queue := { staged.queue.queue with head := kPipelineQueueCapacity.advance head }
              consumer := .idle }
            inHand := some out }
        have active : next.works = true := by simp [next, StagedProcessor.works]
        have before : staged.works = true := by simp [works, front]
        have counted : next.queue.queue.size = rest.length := after.counts.2.2
        refine ⟨fun _ => .inr ?_, fun idle => absurd (before.symm.trans idle) (by simp)⟩
        show next.workLeft < _
        unfold workLeft
        rw [active, before, counted, holds.counts.2.2, front, phase, hand, List.length_cons]
        show _ + _ + _ + 4 < _ + _ + _ + 0
        have same : enqueueLeft true next.queue.producer = enqueueLeft true staged.queue.producer :=
          rfl
        have pending : next.pending.length = staged.pending.length := rfl
        omega

/-- Until the sentinel was dequeued there is something to enqueue, to dequeue or to apply. -/
theorem Progress.pending_ne_nil {sentinel : PipelineEvent} {work : List PipelineEvent}
    (progress : Progress (work ++ [sentinel]) registry staged fifo processed)
    (stops : sentinel.kind = .shutdown) (idle : staged.works = false) : staged.pending ≠ [] := by
  intro nothing
  have free : fifo.waiting = [] ∧ staged.inHand = none := by
    rw [works_eq progress.holds] at idle
    simpa using idle
  have delivered := progress.delivered
  have whole := progress.whole
  rw [free.2, Option.toList_none, List.append_nil] at delivered
  rw [free.1, nothing, List.append_nil, List.append_nil, delivered] at whole
  exact progress.worked sentinel (by simp [whole]) stops

/-- The thread that is not waited for only spins, and the other one gets on. -/
theorem helps (moved : PipelineEvent → PipelineEvent) (registry : InstrumentRegistry)
    {sentinel : PipelineEvent} (work : List PipelineEvent) (stops : sentinel.kind = .shutdown) :
    Helps (StagedProcessor.step moved) StagedMove.thread
      (fun staged =>
        ∃ fifo processed, Progress (work ++ [sentinel]) registry staged fifo processed)
      (fun staged => staged.exited = true) workLeft helper where
  kept := by
    rintro staged move ⟨fifo, processed, progress⟩
    exact progress.step moved move
  closer := by
    rintro staged move ⟨fifo, processed, progress⟩ open_ mine
    cases move with
    | producer =>
      have idle : staged.works = false := by
        cases active : staged.works with
        | false => rfl
        | true => simp [helper, active, StagedMove.thread] at mine
      exact .inr ((progress.approaches moved (progress.pending_ne_nil stops)).helps idle)
    | consumer now =>
      have active : staged.works = true := by
        cases active : staged.works with
        | true => rfl
        | false => simp [helper, active, StagedMove.thread] at mine
      have running : staged.exited = false := Bool.not_eq_true _ ▸ open_
      exact (progress.consumes moved running now).helps active
  patient := by
    rintro staged move ⟨fifo, processed, progress⟩ open_ other
    cases move with
    | producer =>
      have active : staged.works = true := by
        cases active : staged.works with
        | true => rfl
        | false => simp [helper, active, StagedMove.thread] at other
      obtain ⟨still, less⟩ :=
        (progress.approaches moved (progress.pending_ne_nil stops)).waits active
      have waits : helper (staged.step moved .producer) = helper staged := by
        rw [helper, helper, active]
        exact if_pos still
      exact (Nat.lt_or_eq_of_le less).imp_right (fun same => ⟨same, waits⟩)
    | consumer now =>
      have idle : staged.works = false := by
        cases active : staged.works with
        | false => rfl
        | true => simp [helper, active, StagedMove.thread] at other
      have running : staged.exited = false := Bool.not_eq_true _ ▸ open_
      obtain ⟨still, same⟩ := (progress.consumes moved running now).waits idle
      refine .inr ⟨same, ?_⟩
      rw [helper, helper, idle]
      exact if_neg (by simp [StagedProcessor.step, still])

/-- A consumer that has left its loop has left nothing behind. -/
theorem Progress.emptied {sentinel : PipelineEvent} {work : List PipelineEvent}
    (progress : Progress (work ++ [sentinel]) registry staged fifo processed)
    (working : ∀ event ∈ work, event.kind ≠ .shutdown) (stops : sentinel.kind = .shutdown)
    (exited : staged.exited = true) : fifo.waiting = [] ∧ staged.pending = [] := by
  obtain ⟨last, hand, ended⟩ := progress.left exited
  have done := progress.finished working stops exited
  have whole := congrArg List.length progress.whole
  rw [progress.delivered, hand, done] at whole
  simp only [Option.toList_some, List.length_append, List.length_singleton] at whole
  exact ⟨List.length_eq_zero_iff.mp (by omega), List.length_eq_zero_iff.mp (by omega)⟩

/-- A consumer that has left its loop does not come back. -/
theorem exited_step (moved : PipelineEvent → PipelineEvent) (move : StagedMove)
    (exited : staged.exited = true) : (staged.step moved move).exited = true := by
  cases move with
  | producer =>
    have same : (staged.producerMove moved).exited = staged.exited := by
      simp only [StagedProcessor.producerMove]
      split
      · rfl
      · rfl
      · split <;> rfl
    exact same.trans exited
  | consumer now =>
    simp only [StagedProcessor.step, StagedProcessor.consumerMove, exited, ↓reduceIte]

/-- Under every schedule that leaves neither thread out for ever, `stop` returns: from some time on
the consumer has left its loop, nothing is left to enqueue or in the queue, and the registry is the
one on which the calls were made directly. -/
theorem staged_processor_stops (allocator : SlabAllocator) (backend : MatcherBackend)
    (symbols : List Symbol) (hasCallback : Bool) (moved : PipelineEvent → PipelineEvent)
    (slots : Vector PipelineEvent kPipelineQueueCapacity.size)
    (calls : List (EnqueueCall × UInt64)) (schedule : Nat → StagedMove)
    (fair : Fair StagedMove.thread schedule) :
    ∃ time, ∀ later, time ≤ later →
      let staged := ((List.range later).map schedule).foldl (StagedProcessor.step moved)
        (start allocator backend symbols hasCallback slots calls)
      staged.exited = true ∧ staged.pending = [] ∧ staged.queue.queue.empty = true ∧
        staged.appliedSequences = calls.map (fun call => call.1.sequence) ∧
        staged.registry = (run EnqueueCall.direct (listed allocator backend symbols)
          (calls.map Prod.fst)).2 := by
  have begun := progress_start allocator backend symbols hasCallback slots calls
  have stops : ({ kind := .shutdown } : PipelineEvent).kind = .shutdown := rfl
  have helping := helps moved (listed allocator backend symbols) (events calls) stops
  obtain ⟨time, exits⟩ := helping.done fair ⟨_, _, begun⟩
  refine ⟨time, ?_⟩
  intro later after
  rw [← stateAt_eq_foldl]
  intro staged
  have exited : staged.exited = true := by
    exact stateAt_lasts (fun staged : StagedProcessor => staged.exited = true)
      (fun _ move => exited_step moved move) schedule _ exits after
  obtain ⟨fifo, processed, progress⟩ :=
    stateAt_invariant _ helping.kept schedule ⟨_, _, begun⟩ later
  have done := progress.finished (kind_event calls) stops exited
  obtain ⟨drained, rest⟩ := progress.emptied (kind_event calls) stops exited
  refine ⟨exited, rest, progress.holds.counts.1.mpr drained, ?_, ?_⟩
  · rw [progress.sequences, done, sequence_event]
  · rw [progress.applied, done, run_events]

/-- Two threads in turns. -/
theorem staged_processor_stops_turns :
    let schedule : Nat → StagedMove :=
      fun turn => if turn % 2 = 0 then .producer else .consumer 0
    let calls : List (EnqueueCall × UInt64) :=
      [(.enqueueMatch [65] { id := 1, side := .buy, price := 5, quantity := 2 } 7, 0)]
    ∃ time, ∀ later, time ≤ later →
      (((List.range later).map schedule).foldl (StagedProcessor.step id)
        (start (.consecutive 2 (by decide)) .reference [[65]] true (Vector.replicate _ default)
          calls)).appliedSequences = [7] := by
  intro schedule calls
  have fair : Fair StagedMove.thread schedule := by
    intro who time
    cases who with
    | producer => exact ⟨2 * time, by omega, by simp [schedule, StagedMove.thread]⟩
    | consumer =>
      have odd : (2 * time + 1) % 2 ≠ 0 := by omega
      exact ⟨2 * time + 1, by omega, by simp only [schedule, if_neg odd, StagedMove.thread]⟩
  obtain ⟨time, reached⟩ := staged_processor_stops (.consecutive 2 (by decide)) .reference [[65]]
    true id (Vector.replicate _ default) calls schedule fair
  exact ⟨time, fun later after => (reached later after).2.2.2.1⟩

end StagedProcessor

end Titan
