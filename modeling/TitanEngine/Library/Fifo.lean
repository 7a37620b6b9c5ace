import TitanEngine.Library.Machine

/-!
# Bounded first-in first-out queues

What a queue with a bound may answer: it takes an item only while there is room and refuses one
only when there is none, it hands out the oldest item, and it is empty only when it holds
nothing. Along a trace of such answers, silent steps included, the items handed out followed by
those still held are the items put in.
-/

namespace Library

variable {α : Type*}

/-- The answer of one call on a queue. -/
inductive QueueOutcome (α : Type*) where
  | enqueued (item : α)
  | refused (item : α)
  | dequeued (item : α)
  | empty
  deriving DecidableEq, Repr

namespace QueueOutcome

/-- The item a call put in. -/
@[simp] def entered : QueueOutcome α → Option α
  | enqueued item => some item
  | _ => none

/-- The item a call took out. -/
@[simp] def left : QueueOutcome α → Option α
  | dequeued item => some item
  | _ => none

/-- What a call that takes out got, if anything. -/
@[simp] def take : QueueOutcome α → Option (Option α)
  | dequeued item => some (some item)
  | empty => some none
  | _ => none

/-- Whether a call that puts in was accepted. -/
@[simp] def put : QueueOutcome α → Option Bool
  | enqueued _ => some true
  | refused _ => some false
  | _ => none

end QueueOutcome

/-- The items put in along a list of answers; silent steps have none. -/
def enteredBy (outcomes : List (Option (QueueOutcome α))) : List α :=
  outcomes.filterMap (fun outcome => outcome.bind QueueOutcome.entered)

/-- The items taken out along a list of answers. -/
def leftBy (outcomes : List (Option (QueueOutcome α))) : List α :=
  outcomes.filterMap (fun outcome => outcome.bind QueueOutcome.left)

/-- What the calls that take out got along a list of answers. -/
def takesOf (outcomes : List (Option (QueueOutcome α))) : List (Option α) :=
  outcomes.filterMap (fun outcome => outcome.bind QueueOutcome.take)

/-- Which of the calls that put in were accepted along a list of answers. -/
def putsOf (outcomes : List (Option (QueueOutcome α))) : List Bool :=
  outcomes.filterMap (fun outcome => outcome.bind QueueOutcome.put)

@[simp] theorem enteredBy_nil : enteredBy ([] : List (Option (QueueOutcome α))) = [] := rfl

@[simp] theorem leftBy_nil : leftBy ([] : List (Option (QueueOutcome α))) = [] := rfl

@[simp] theorem enteredBy_cons (outcome : Option (QueueOutcome α))
    (outcomes : List (Option (QueueOutcome α))) :
    enteredBy (outcome :: outcomes) =
      (outcome.bind QueueOutcome.entered).toList ++ enteredBy outcomes := by
  cases entering : outcome.bind QueueOutcome.entered <;>
    simp [enteredBy, entering]

@[simp] theorem leftBy_cons (outcome : Option (QueueOutcome α))
    (outcomes : List (Option (QueueOutcome α))) :
    leftBy (outcome :: outcomes) =
      (outcome.bind QueueOutcome.left).toList ++ leftBy outcomes := by
  cases leaving : outcome.bind QueueOutcome.left <;>
    simp [leftBy, leaving]

/-- A queue with its history. -/
structure Fifo (α : Type*) where
  /-- What was handed out, in order. -/
  delivered : List α
  /-- What is still held, oldest first. -/
  waiting : List α

/-- Nothing was ever put in. -/
def Fifo.empty : Fifo α := { delivered := [], waiting := [] }

/-- The answers of a queue that holds at most `bound` items. -/
inductive FifoStep (bound : Nat) : Fifo α → Option (QueueOutcome α) → Fifo α → Prop
  | silent {fifo : Fifo α} : FifoStep bound fifo none fifo
  | enqueued {fifo : Fifo α} {item : α} (room : fifo.waiting.length < bound) :
      FifoStep bound fifo (some (.enqueued item)) { fifo with waiting := fifo.waiting ++ [item] }
  | refused {fifo : Fifo α} {item : α} (full : fifo.waiting.length = bound) :
      FifoStep bound fifo (some (.refused item)) fifo
  | dequeued {fifo : Fifo α} {item : α} {rest : List α} (front : fifo.waiting = item :: rest) :
      FifoStep bound fifo (some (.dequeued item))
        { delivered := fifo.delivered ++ [item], waiting := rest }
  | empty {fifo : Fifo α} (nothing : fifo.waiting = []) : FifoStep bound fifo (some .empty) fifo

/-- One answer accounts for what it puts in and takes out. -/
theorem FifoStep.account {bound : Nat} {fifo next : Fifo α} {outcome : Option (QueueOutcome α)}
    (step : FifoStep bound fifo outcome next) :
    next.delivered = fifo.delivered ++ (outcome.bind QueueOutcome.left).toList ∧
      next.delivered ++ next.waiting =
        fifo.delivered ++ fifo.waiting ++ (outcome.bind QueueOutcome.entered).toList := by
  cases step with
  | dequeued front => simp [front]
  | _ => simp

/-- Along a trace the queue hands out in order what was put in. -/
theorem Trace.account {bound : Nat} {fifo final : Fifo α}
    {outcomes : List (Option (QueueOutcome α))}
    (trace : Trace (FifoStep bound) fifo outcomes final) :
    final.delivered = fifo.delivered ++ leftBy outcomes ∧
      final.delivered ++ final.waiting =
        fifo.delivered ++ fifo.waiting ++ enteredBy outcomes := by
  induction trace with
  | nil => simp
  | cons first _ ih =>
    obtain ⟨left, entered⟩ := first.account
    constructor
    · rw [ih.1, left, leftBy_cons, List.append_assoc]
    · rw [ih.2, entered, enteredBy_cons]
      simp only [List.append_assoc]

/-- What waits is what the next takes get, whatever is put in meanwhile. -/
theorem Trace.takes {bound : Nat} {fifo final : Fifo α}
    {outcomes : List (Option (QueueOutcome α))}
    (trace : Trace (FifoStep bound) fifo outcomes final) {front : List α}
    (waits : front <+: fifo.waiting) :
    (takesOf outcomes).take front.length <+: front.map some := by
  induction trace generalizing front with
  | nil => simp [takesOf]
  | @cons fifo next final outcome outcomes first later ih =>
    cases first with
    | silent => exact ih waits
    | enqueued room => exact ih (waits.trans (List.prefix_append _ _))
    | refused full => exact ih waits
    | empty nothing =>
      rw [nothing] at waits
      obtain rfl := List.prefix_nil.mp waits
      simp
    | @dequeued item rest shape =>
      rw [shape] at waits
      cases front with
      | nil => simp
      | cons head front =>
        obtain ⟨rfl, within⟩ := List.cons_prefix_cons.mp waits
        exact List.cons_prefix_cons.mpr ⟨rfl, ih within⟩

/-- The room that is left is what the next puts find, whatever is taken out meanwhile. -/
theorem Trace.puts {bound : Nat} {fifo final : Fifo α}
    {outcomes : List (Option (QueueOutcome α))}
    (trace : Trace (FifoStep bound) fifo outcomes final) {room : Nat}
    (left : fifo.waiting.length + room ≤ bound) :
    ∀ accepted ∈ (putsOf outcomes).take room, accepted = true := by
  induction trace generalizing room with
  | nil => simp [putsOf]
  | @cons fifo next final outcome outcomes first later ih =>
    cases first with
    | silent => exact ih left
    | empty nothing => exact ih left
    | @dequeued item rest shape =>
      rw [shape, List.length_cons] at left
      exact ih (by omega : rest.length + room ≤ bound)
    | refused full =>
      obtain rfl : room = 0 := by omega
      simp
    | @enqueued item free =>
      cases room with
      | zero => simp
      | succ room =>
        intro accepted member
        rcases List.mem_cons.mp member with rfl | rest
        · rfl
        · refine ih ?_ accepted rest
          rw [List.length_append, List.length_singleton]
          omega

end Library
