import Mathlib.Data.List.GetD
import Mathlib.Data.List.Range
import Mathlib.Order.WellFounded
import TitanEngine.Library.Machine

/-!
# Fair schedules

Several parties take steps on one state, and an endless schedule says which move comes next. A
schedule is fair when no party is left out for ever. Some party may help in every state that is
not done: its moves lower a rank, and the moves of the others either lower the rank or leave it
and the helper as they are. Then every fair schedule gets the state done, however long the others
spin in between. What comes again and again in a schedule comes more often than any bound, and a
schedule that repeats its last move for ever is admissible when its first moves are.
-/

namespace Library

variable {σ ι π ρ : Type*}

/-- The state before the move with a number. -/
def stateAt (step : σ → ι → σ) (schedule : ℕ → ι) (start : σ) : ℕ → σ
  | 0 => start
  | time + 1 => step (stateAt step schedule start time) (schedule time)

/-- The state before a move is what the moves before it lead to. -/
theorem stateAt_eq_foldl (step : σ → ι → σ) (schedule : ℕ → ι) (start : σ) (time : ℕ) :
    stateAt step schedule start time = ((List.range time).map schedule).foldl step start := by
  induction time with
  | zero => rfl
  | succ time ih => simp only [stateAt, ih, List.range_succ, List.map_append, List.foldl_append,
      List.map_cons, List.map_nil, List.foldl_cons, List.foldl_nil]

/-- An invariant of the steps holds at every time. -/
theorem stateAt_invariant {step : σ → ι → σ} (Inv : σ → Prop)
    (kept : ∀ state move, Inv state → Inv (step state move)) (schedule : ℕ → ι) {start : σ}
    (begun : Inv start) (time : ℕ) : Inv (stateAt step schedule start time) := by
  induction time with
  | zero => exact begun
  | succ time ih => exact kept _ _ ih

/-- What no step undoes lasts. -/
theorem stateAt_lasts {step : σ → ι → σ} (Goal : σ → Prop)
    (lasts : ∀ state move, Goal state → Goal (step state move)) (schedule : ℕ → ι) (start : σ)
    {time : ℕ} (reached : Goal (stateAt step schedule start time)) {later : ℕ}
    (after : time ≤ later) : Goal (stateAt step schedule start later) := by
  induction later, after using Nat.le_induction with
  | base => exact reached
  | succ later _ ih => exact lasts _ _ ih

/-- Every party has its turn again and again. -/
def Fair (party : ι → π) (schedule : ℕ → ι) : Prop :=
  ∀ who time, ∃ turn, time ≤ turn ∧ party (schedule turn) = who

/-- In every state that is not done, some party gets closer by its next move, and no other party
gets in its way. -/
structure Helps [LT ρ] (step : σ → ι → σ) (party : ι → π) (Inv Done : σ → Prop)
    (rank : σ → ρ) (helper : σ → π) : Prop where
  /-- The invariant is kept. -/
  kept : ∀ state move, Inv state → Inv (step state move)
  /-- The helper gets closer. -/
  closer : ∀ state move, Inv state → ¬ Done state → party move = helper state →
    Done (step state move) ∨ rank (step state move) < rank state
  /-- The others do not get in its way. -/
  patient : ∀ state move, Inv state → ¬ Done state → party move ≠ helper state →
    rank (step state move) < rank state ∨
      rank (step state move) = rank state ∧ helper (step state move) = helper state

section Fairness

variable [LT ρ] {step : σ → ι → σ} {party : ι → π} {Inv Done : σ → Prop} {rank : σ → ρ}
  {helper : σ → π}

/-- Until the helper has its turn, the state waits for it or gets closer in another way. -/
theorem Helps.until_turn (helps : Helps step party Inv Done rank helper) {schedule : ℕ → ι}
    {start : σ} {time : ℕ} (begun : Inv (stateAt step schedule start time))
    (open_ : ¬ Done (stateAt step schedule start time)) {turn : ℕ} (after : time ≤ turn)
    (own : party (schedule turn) = helper (stateAt step schedule start time)) :
    ∃ later, time ≤ later ∧ (Done (stateAt step schedule start later) ∨
      rank (stateAt step schedule start later) < rank (stateAt step schedule start time)) := by
  -- induction on how many moves the turn is away
  obtain ⟨distance, rfl⟩ := Nat.exists_eq_add_of_le after
  induction distance generalizing time with
  | zero =>
    rcases helps.closer _ _ begun open_ own with done | lower
    · exact ⟨time + 1, Nat.le_succ _, .inl done⟩
    · exact ⟨time + 1, Nat.le_succ _, .inr lower⟩
  | succ distance ih =>
    by_cases mine : party (schedule time) = helper (stateAt step schedule start time)
    · rcases helps.closer _ _ begun open_ mine with done | lower
      · exact ⟨time + 1, Nat.le_succ _, .inl done⟩
      · exact ⟨time + 1, Nat.le_succ _, .inr lower⟩
    · rcases helps.patient _ _ begun open_ mine with lower | ⟨same, waits⟩
      · exact ⟨time + 1, Nat.le_succ _, .inr lower⟩
      · by_cases done : Done (stateAt step schedule start (time + 1))
        · exact ⟨time + 1, Nat.le_succ _, .inl done⟩
        · have next : Inv (stateAt step schedule start (time + 1)) := helps.kept _ _ begun
          have turn_ : party (schedule (time + 1 + distance)) =
              helper (stateAt step schedule start (time + 1)) := by
            rw [show time + 1 + distance = time + (distance + 1) by omega, own]
            exact waits.symm
          obtain ⟨later, bound, reached⟩ := ih next done (Nat.le_add_right _ _) turn_
          refine ⟨later, Nat.le_of_succ_le bound, reached.imp_right ?_⟩
          intro lower
          exact same ▸ lower

/-- Every fair schedule gets the state done. -/
theorem Helps.done [WellFoundedLT ρ] (helps : Helps step party Inv Done rank helper)
    {schedule : ℕ → ι} (fair : Fair party schedule) {start : σ} (begun : Inv start) :
    ∃ time, Done (stateAt step schedule start time) := by
  have reaches : ∀ bound time, rank (stateAt step schedule start time) = bound →
      ∃ later, Done (stateAt step schedule start later) := by
    intro bound
    induction bound using WellFoundedLT.induction with
    | ind bound ih =>
      intro time here
      by_cases done : Done (stateAt step schedule start time)
      · exact ⟨time, done⟩
      · have held := stateAt_invariant Inv helps.kept schedule begun time
        obtain ⟨turn, after, own⟩ := fair (helper (stateAt step schedule start time)) time
        obtain ⟨later, _, reached⟩ := helps.until_turn held done after own
        rcases reached with final | lower
        · exact ⟨later, final⟩
        · exact ih _ (here ▸ lower) later rfl
  exact reaches _ 0 rfl

end Fairness

/-- What comes again and again comes any number of times. -/
theorem exists_countP {schedule : ℕ → ι} {wanted : ι → Bool}
    (again : ∀ time, ∃ turn, time ≤ turn ∧ wanted (schedule turn) = true) (bound : ℕ) :
    ∃ time, ∀ later, time ≤ later →
      bound ≤ ((List.range later).map schedule).countP wanted := by
  induction bound with
  | zero => exact ⟨0, fun _ _ => Nat.zero_le _⟩
  | succ bound ih =>
    obtain ⟨time, counted⟩ := ih
    obtain ⟨turn, after, here⟩ := again time
    refine ⟨turn + 1, ?_⟩
    intro later behind
    have first : bound ≤ ((List.range turn).map schedule).countP wanted := counted turn after
    have more : ((List.range (turn + 1)).map schedule).countP wanted =
        ((List.range turn).map schedule).countP wanted + 1 := by
      rw [List.range_succ, List.map_append, List.countP_append, List.map_singleton,
        List.countP_singleton, if_pos here]
    have within : ((List.range (turn + 1)).map schedule).countP wanted ≤
        ((List.range later).map schedule).countP wanted :=
      ((List.range_sublist.mpr behind).map schedule).countP_le
    omega

/-- Every first part of the schedule is admissible. -/
def AlwaysAdmissible {ω : Type*} (admits : σ → ι → Prop) (step : σ → ι → ω × σ) (start : σ)
    (schedule : ℕ → ι) : Prop :=
  ∀ time, Admissible admits step start ((List.range time).map schedule)

/-- Some moves and then one move for ever. -/
def followedBy (moves : List ι) (last : ι) (time : ℕ) : ι := moves.getD time last

/-- After the first moves only the last one comes. -/
theorem followedBy_of_le {moves : List ι} {time : ℕ} (after : moves.length ≤ time) (last : ι) :
    followedBy moves last time = last := by
  rw [followedBy, List.getD_eq_default _ _ after]

/-- The first moves of such a schedule. -/
theorem map_followedBy (moves : List ι) (last : ι) (time : ℕ) :
    (List.range time).map (followedBy moves last) =
      (moves ++ List.replicate time last).take time := by
  apply List.ext_getElem
  · simp
  · intro turn inside _
    rw [List.length_map, List.length_range] at inside
    rw [List.getElem_map, List.getElem_range, List.getElem_take]
    by_cases early : turn < moves.length
    · rw [List.getElem_append_left early, followedBy, List.getD_eq_getElem _ _ early]
    · rw [List.getElem_append_right (Nat.le_of_not_lt early), List.getElem_replicate,
        followedBy_of_le (Nat.le_of_not_lt early)]

/-- Such a schedule is admissible when its first moves are and the last one may be repeated. -/
theorem alwaysAdmissible_followedBy {ω : Type*} {admits : σ → ι → Prop} {step : σ → ι → ω × σ}
    {start : σ} {moves : List ι} {last : ι} (admitted : Admissible admits step start moves)
    (repeats : admits (run step start moves).2 last)
    (back : (step (run step start moves).2 last).2 = (run step start moves).2) :
    AlwaysAdmissible admits step start (followedBy moves last) := by
  intro time
  rw [map_followedBy]
  exact (admissible_append.mpr
    ⟨admitted, admissible_replicate repeats back time⟩).take time

end Library
