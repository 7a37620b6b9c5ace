import Mathlib.Order.Basic

/-!
# Loops with a break

A loop body maps a state to the next state or to the state it breaks with. `Ends` is the
meaning of such a loop, without any bound on its passes, and `Reaches` says where it passes
through; `loop` runs it on fuel. A variant
that drops at every pass connects the two: with more fuel than the variant the run ends at
a break, so what it returns is what the unbounded loop returns. Postconditions follow from
an invariant of the passes.
-/

namespace Library

variable {σ : Type*}

/-- Run a loop body until it breaks or the fuel is spent. -/
def loop (body : σ → ForInStep σ) : Nat → σ → σ
  | 0, state => state
  | fuel + 1, state =>
    match body state with
    | .done final => final
    | .yield next => loop body fuel next

/-- The loop started in the first state breaks with the second, after any number of passes. -/
inductive Ends (body : σ → ForInStep σ) : σ → σ → Prop
  | done {state final : σ} (broke : body state = .done final) : Ends body state final
  | yield {state next final : σ} (passed : body state = .yield next)
      (rest : Ends body next final) : Ends body state final

/-- The loop started in the first state comes to a pass in the second. -/
inductive Reaches (body : σ → ForInStep σ) : σ → σ → Prop
  | start {state : σ} : Reaches body state state
  | pass {state middle next : σ} (reached : Reaches body state middle)
      (passed : body middle = .yield next) : Reaches body state next

/-- An invariant kept by every pass holds wherever the loop comes to a pass. -/
theorem Reaches.invariant {body : σ → ForInStep σ} (Inv : σ → Prop)
    (kept : ∀ state next, Inv state → body state = .yield next → Inv next)
    {state reached : σ} (reaches : Reaches body state reached) (start : Inv state) :
    Inv reached := by
  induction reaches with
  | start => exact start
  | pass _ passed ih => exact kept _ _ ih passed

/-- An invariant kept by every pass, and giving the postcondition at every break, gives the
postcondition of the loop. -/
theorem Ends.post {body : σ → ForInStep σ} {Inv Post : σ → Prop}
    (kept : ∀ state next, Inv state → body state = .yield next → Inv next)
    (broken : ∀ state final, Inv state → body state = .done final → Post final)
    {state final : σ} (ends : Ends body state final) (start : Inv state) : Post final := by
  induction ends with
  | done broke => exact broken _ _ start broke
  | yield passed _ ih => exact ih (kept _ _ start passed)

/-- With more fuel than a variant that every pass lowers, the fueled run ends at a break. -/
theorem loop_ends {body : σ → ForInStep σ} (Inv : σ → Prop) (variant : σ → Nat)
    (kept : ∀ state next, Inv state → body state = .yield next →
      Inv next ∧ variant next < variant state)
    (fuel : Nat) (state : σ) (start : Inv state) (enough : variant state < fuel) :
    Ends body state (loop body fuel state) := by
  induction fuel generalizing state with
  | zero => omega
  | succ fuel ih =>
    cases step : body state with
    | done final =>
      have run : loop body (fuel + 1) state = final := by simp [loop, step]
      rw [run]
      exact .done step
    | yield next =>
      have run : loop body (fuel + 1) state = loop body fuel next := by simp [loop, step]
      rw [run]
      obtain ⟨keeps, lower⟩ := kept state next start step
      exact .yield step (ih next keeps (by omega))

/-- An invariant kept by passes and by breaks holds of what the fueled run returns. -/
theorem loop_invariant {body : σ → ForInStep σ} (Inv : σ → Prop)
    (kept : ∀ state next, Inv state → body state = .yield next → Inv next)
    (broken : ∀ state final, Inv state → body state = .done final → Inv final)
    (fuel : Nat) {state : σ} (start : Inv state) : Inv (loop body fuel state) := by
  induction fuel generalizing state with
  | zero => exact start
  | succ fuel ih =>
    unfold loop
    cases step : body state with
    | done final => exact broken state final start step
    | yield next => exact ih (kept state next start step)

/-- The total-correctness rule: an invariant with a variant, and a postcondition at breaks. -/
theorem loop_total {body : σ → ForInStep σ} (Inv Post : σ → Prop) (variant : σ → Nat)
    (kept : ∀ state next, Inv state → body state = .yield next →
      Inv next ∧ variant next < variant state)
    (broken : ∀ state final, Inv state → body state = .done final → Post final)
    (fuel : Nat) (state : σ) (start : Inv state) (enough : variant state < fuel) :
    Post (loop body fuel state) :=
  (loop_ends Inv variant kept fuel state start enough).post
    (fun state next inv step => (kept state next inv step).1) broken start

/-- What is noted at the states a fueled run passes through, in their order. -/
def notes {α : Type*} (body : σ → ForInStep σ) (note : σ → List α) : Nat → σ → List α
  | 0, _ => []
  | fuel + 1, state =>
    note state ++
      match body state with
      | .done _ => []
      | .yield next => notes body note fuel next

/-- What an invariant of the passes says of every note holds of all of them. -/
theorem forall_notes {α : Type*} {body : σ → ForInStep σ} {note : σ → List α} {P : α → Prop}
    (Inv : σ → Prop) (kept : ∀ state next, Inv state → body state = .yield next → Inv next)
    (noted : ∀ state, Inv state → ∀ entry ∈ note state, P entry) (fuel : Nat) {state : σ}
    (start : Inv state) : ∀ entry ∈ notes body note fuel state, P entry := by
  induction fuel generalizing state with
  | zero => simp [notes]
  | succ fuel ih =>
    intro entry member
    rcases List.mem_append.mp member with here | later
    · exact noted state start entry here
    · cases step : body state with
      | done final => simp [step] at later
      | yield next =>
        rw [step] at later
        exact ih (kept state next start step) entry later

end Library
