import Mathlib.Data.List.Basic

/-!
# Deterministic machines

A machine takes an input in a state, gives an output and moves on. A run collects the outputs
of a list of inputs. Inputs may be admitted only in some states; a run is admissible when each
of its inputs is admitted in the state that receives it. An invariant of the admitted steps is
an invariant of the admissible runs, and a relation between two machines that every admitted
step keeps with equal outputs makes their admissible runs indistinguishable. A machine may also
refine a specification that only says which outputs are possible: then the outputs of a run are
a trace of the specification.
-/

namespace Library

variable {σ τ ι ω : Type*}

/-- The outputs of a run and the state it ends in. -/
def run (step : σ → ι → ω × σ) : σ → List ι → List ω × σ
  | state, [] => ([], state)
  | state, input :: rest =>
    let first := step state input
    let later := run step first.2 rest
    (first.1 :: later.1, later.2)

/-- A run gives one output for each input. -/
theorem length_run (step : σ → ι → ω × σ) (state : σ) (inputs : List ι) :
    (run step state inputs).1.length = inputs.length := by
  induction inputs generalizing state with
  | nil => rfl
  | cons input rest ih => simp only [run, List.length_cons, ih]

/-- A run on two lists is a run on the first and one from where it ends. -/
theorem run_append (step : σ → ι → ω × σ) (state : σ) (first second : List ι) :
    run step state (first ++ second) =
      ((run step state first).1 ++ (run step (run step state first).2 second).1,
        (run step (run step state first).2 second).2) := by
  induction first generalizing state with
  | nil => rfl
  | cons input rest ih => simp only [List.cons_append, run, ih]

/-- Each input is admitted in the state that receives it. -/
def Admissible (admits : σ → ι → Prop) (step : σ → ι → ω × σ) : σ → List ι → Prop
  | _, [] => True
  | state, input :: rest => admits state input ∧ Admissible admits step (step state input).2 rest

instance decidableAdmissible (admits : σ → ι → Prop) [∀ state input, Decidable (admits state input)]
    (step : σ → ι → ω × σ) :
    (state : σ) → (inputs : List ι) → Decidable (Admissible admits step state inputs)
  | _, [] => .isTrue trivial
  | state, input :: rest =>
    have := decidableAdmissible admits step (step state input).2 rest
    inferInstanceAs
      (Decidable (admits state input ∧ Admissible admits step (step state input).2 rest))

/-- Every input is admitted when nothing is refused. -/
theorem admissible_true (step : σ → ι → ω × σ) (state : σ) (inputs : List ι) :
    Admissible (fun _ _ => True) step state inputs := by
  induction inputs generalizing state with
  | nil => trivial
  | cons input rest ih => exact ⟨trivial, ih _⟩

/-- The first inputs of an admissible run are an admissible run. -/
theorem Admissible.take {admits : σ → ι → Prop} {step : σ → ι → ω × σ} {state : σ}
    {inputs : List ι} (admitted : Admissible admits step state inputs) (count : Nat) :
    Admissible admits step state (inputs.take count) := by
  induction inputs generalizing state count with
  | nil =>
    rw [List.take_nil]
    trivial
  | cons input rest ih =>
    cases count with
    | zero => trivial
    | succ count => exact ⟨admitted.1, ih admitted.2 count⟩

/-- A run on two lists is admissible when both of its parts are. -/
theorem admissible_append {admits : σ → ι → Prop} {step : σ → ι → ω × σ} {state : σ}
    {first second : List ι} :
    Admissible admits step state (first ++ second) ↔
      Admissible admits step state first ∧
        Admissible admits step (run step state first).2 second := by
  induction first generalizing state with
  | nil => simp [Admissible, run]
  | cons input rest ih => simp only [List.cons_append, Admissible, ih, run, and_assoc]

/-- An input that leads back to the state that admits it may be repeated. -/
theorem admissible_replicate {admits : σ → ι → Prop} {step : σ → ι → ω × σ} {state : σ}
    {input : ι} (admitted : admits state input) (back : (step state input).2 = state)
    (count : ℕ) : Admissible admits step state (List.replicate count input) := by
  induction count with
  | zero => trivial
  | succ count ih =>
    rw [List.replicate_succ]
    refine ⟨admitted, ?_⟩
    rw [back]
    exact ih

/-- Two conditions are met along a run when each of them is. -/
theorem admissible_and {left right : σ → ι → Prop} {step : σ → ι → ω × σ} {state : σ}
    {inputs : List ι} :
    Admissible (fun state input => left state input ∧ right state input) step state inputs ↔
      Admissible left step state inputs ∧ Admissible right step state inputs := by
  induction inputs generalizing state with
  | nil => simp [Admissible]
  | cons input rest ih =>
    simp only [Admissible, ih]
    exact and_and_and_comm

/-- An invariant of the admitted steps holds after every admissible run. -/
theorem run_invariant {admits : σ → ι → Prop} {step : σ → ι → ω × σ} (Inv : σ → Prop)
    (kept : ∀ state input, Inv state → admits state input → Inv (step state input).2)
    {state : σ} (start : Inv state) {inputs : List ι}
    (admitted : Admissible admits step state inputs) : Inv (run step state inputs).2 := by
  induction inputs generalizing state with
  | nil => exact start
  | cons input rest ih => exact ih (kept state input start admitted.1) admitted.2

/-- Along a run that keeps an invariant, what is the same of every step is the same of the run. -/
theorem admissible_congr {admits left right : σ → ι → Prop} {step : σ → ι → ω × σ}
    (Inv : σ → Prop)
    (kept : ∀ state input, Inv state → admits state input → Inv (step state input).2)
    (same : ∀ state input, Inv state → admits state input → (left state input ↔ right state input))
    {state : σ} (start : Inv state) {inputs : List ι}
    (admitted : Admissible admits step state inputs) :
    Admissible left step state inputs ↔ Admissible right step state inputs := by
  induction inputs generalizing state with
  | nil => exact Iff.rfl
  | cons input rest ih =>
    exact and_congr (same state input start admitted.1)
      (ih (kept state input start admitted.1) admitted.2)

/-- What every admitted step from an invariant says of its output holds of all outputs of an
admissible run. -/
theorem run_outputs {admits : σ → ι → Prop} {step : σ → ι → ω × σ} {P : ω → Prop}
    (Inv : σ → Prop)
    (kept : ∀ state input, Inv state → admits state input →
      Inv (step state input).2 ∧ P (step state input).1)
    {state : σ} (start : Inv state) {inputs : List ι}
    (admitted : Admissible admits step state inputs) :
    ∀ output ∈ (run step state inputs).1, P output := by
  induction inputs generalizing state with
  | nil => simp [run]
  | cons input rest ih =>
    obtain ⟨next, here⟩ := kept state input start admitted.1
    intro output member
    rcases List.mem_cons.mp member with rfl | later
    · exact here
    · exact ih next admitted.2 output later

/-- Machines related by a simulation give the same outputs on every admissible run and end
related. -/
theorem run_simulation {admits : σ → ι → Prop} {step : σ → ι → ω × σ} {other : τ → ι → ω × τ}
    (Rel : σ → τ → Prop)
    (kept : ∀ left right input, Rel left right → admits left input →
      (step left input).1 = (other right input).1 ∧
        Rel (step left input).2 (other right input).2)
    {left : σ} {right : τ} (start : Rel left right) {inputs : List ι}
    (admitted : Admissible admits step left inputs) :
    (run step left inputs).1 = (run other right inputs).1 ∧
      Rel (run step left inputs).2 (run other right inputs).2 := by
  induction inputs generalizing left right with
  | nil => exact ⟨rfl, start⟩
  | cons input rest ih =>
    obtain ⟨same, related⟩ := kept left right input start admitted.1
    obtain ⟨later, final⟩ := ih related admitted.2
    exact ⟨by simp only [run, same, later], final⟩

/-- The outputs of those inputs that an observer asked for. -/
def outputsOf (mine : ι → Bool) (inputs : List ι) (outputs : List ω) : List ω :=
  ((inputs.zip outputs).filter (fun pair => mine pair.1)).map Prod.snd

/-- A relation that an observer's own inputs keep on both sides, with equal outputs, and that the
other inputs keep on the left alone makes the left run look, to the observer, like the right run
on its own inputs. -/
theorem run_filter {admits : σ → ι → Prop} {step : σ → ι → ω × σ} {other : τ → ι → ω × τ}
    (mine : ι → Bool) (Rel : σ → τ → Prop)
    (seen : ∀ left right input, Rel left right → admits left input → mine input = true →
      (step left input).1 = (other right input).1 ∧
        Rel (step left input).2 (other right input).2)
    (unseen : ∀ left right input, Rel left right → admits left input → mine input = false →
      Rel (step left input).2 right)
    {left : σ} {right : τ} (start : Rel left right) {inputs : List ι}
    (admitted : Admissible admits step left inputs) :
    outputsOf mine inputs (run step left inputs).1 =
        (run other right (inputs.filter mine)).1 ∧
      Rel (run step left inputs).2 (run other right (inputs.filter mine)).2 := by
  induction inputs generalizing left right with
  | nil => exact ⟨rfl, start⟩
  | cons input rest ih =>
    cases asked : mine input with
    | true =>
      obtain ⟨same, related⟩ := seen left right input start admitted.1 asked
      obtain ⟨later, final⟩ := ih related admitted.2
      simp only [outputsOf] at later
      rw [List.filter_cons_of_pos asked]
      refine ⟨?_, final⟩
      simp only [outputsOf, run, List.zip_cons_cons, List.filter_cons, asked, ↓reduceIte,
        List.map_cons, same, later]
    | false =>
      obtain ⟨later, final⟩ := ih (unseen left right input start admitted.1 asked) admitted.2
      simp only [outputsOf] at later
      rw [List.filter_cons_of_neg (by simp [asked])]
      refine ⟨?_, final⟩
      simp only [outputsOf, run, List.zip_cons_cons, List.filter_cons, asked, ↓reduceIte,
        Bool.false_eq_true, later]

/-- The inputs that are kept in the state that receives them, with their outputs. -/
def keptOf (keeps : σ → ι → Bool) (step : σ → ι → ω × σ) : σ → List ι → List (ι × ω)
  | _, [] => []
  | state, input :: rest =>
    let later := keptOf keeps step (step state input).2 rest
    if keeps state input then (input, (step state input).1) :: later else later

/-- A relation that the kept inputs keep on both sides, with equal outputs, and that the others keep
on the left alone makes the left run look like the right run on the inputs kept. -/
theorem run_keptOf {step : σ → ι → ω × σ} {other : τ → ι → ω × τ} (keeps : σ → ι → Bool)
    (Rel : σ → τ → Prop)
    (seen : ∀ left right input, Rel left right → keeps left input = true →
      (step left input).1 = (other right input).1 ∧
        Rel (step left input).2 (other right input).2)
    (unseen : ∀ left right input, Rel left right → keeps left input = false →
      Rel (step left input).2 right)
    {left : σ} {right : τ} (start : Rel left right) (inputs : List ι) :
    (run other right ((keptOf keeps step left inputs).map Prod.fst)).1 =
        (keptOf keeps step left inputs).map Prod.snd ∧
      Rel (run step left inputs).2
        (run other right ((keptOf keeps step left inputs).map Prod.fst)).2 := by
  induction inputs generalizing left right with
  | nil => exact ⟨rfl, start⟩
  | cons input rest ih =>
    cases kept : keeps left input with
    | true =>
      obtain ⟨same, related⟩ := seen left right input start kept
      obtain ⟨later, final⟩ := ih related
      simp only [keptOf, kept, ↓reduceIte, List.map_cons, run]
      exact ⟨congrArg₂ List.cons same.symm later, final⟩
    | false =>
      have related := unseen left right input start kept
      simp only [keptOf, kept, Bool.false_eq_true, ↓reduceIte]
      exact ih related

/-- The greatest value of a measure in the states of a run, the first one included. -/
def peakOf (measure : σ → ℕ) (step : σ → ι → ω × σ) : σ → List ι → ℕ
  | state, [] => measure state
  | state, input :: rest => max (measure state) (peakOf measure step (step state input).2 rest)

/-- An invariant that also knows the greatest value so far ends with that of the whole run. -/
theorem run_peak {admits : σ → ι → Prop} {step : σ → ι → ω × σ} (measure : σ → ℕ)
    (Inv : ℕ → σ → Prop)
    (kept : ∀ peak state input, Inv peak state → admits state input →
      Inv (max peak (measure (step state input).2)) (step state input).2)
    {state : σ} {peak : ℕ} (start : Inv (max peak (measure state)) state) {inputs : List ι}
    (admitted : Admissible admits step state inputs) :
    Inv (max peak (peakOf measure step state inputs)) (run step state inputs).2 := by
  induction inputs generalizing state peak with
  | nil => exact start
  | cons input rest ih =>
    have next := kept _ state input start admitted.1
    have final := ih next admitted.2
    rw [Nat.max_assoc] at final
    exact final

/-- Something happens at one of the inputs of a run. -/
def Occurs (happens : σ → ι → Prop) (step : σ → ι → ω × σ) : σ → List ι → Prop
  | _, [] => False
  | state, input :: rest => happens state input ∨ Occurs happens step (step state input).2 rest

instance decidableOccurs (happens : σ → ι → Prop)
    [∀ state input, Decidable (happens state input)] (step : σ → ι → ω × σ) :
    (state : σ) → (inputs : List ι) → Decidable (Occurs happens step state inputs)
  | _, [] => .isFalse id
  | state, input :: rest =>
    have := decidableOccurs happens step (step state input).2 rest
    inferInstanceAs
      (Decidable (happens state input ∨ Occurs happens step (step state input).2 rest))

/-- What happens nowhere along a run is refused everywhere. -/
theorem not_occurs_iff {happens : σ → ι → Prop} {step : σ → ι → ω × σ} {state : σ}
    {inputs : List ι} :
    ¬ Occurs happens step state inputs ↔
      Admissible (fun state input => ¬ happens state input) step state inputs := by
  induction inputs generalizing state with
  | nil => simp [Occurs, Admissible]
  | cons input rest ih => simp only [Occurs, Admissible, not_or, ih]

/-- What happens along an admissible run brings about something that the later steps keep. -/
theorem run_occurs {admits happens : σ → ι → Prop} {step : σ → ι → ω × σ}
    (Inv Goal : σ → Prop)
    (kept : ∀ state input, Inv state → admits state input → Inv (step state input).2)
    (brought : ∀ state input, Inv state → admits state input → happens state input →
      Goal (step state input).2)
    (lasts : ∀ state input, Inv state → admits state input → Goal state →
      Goal (step state input).2)
    {state : σ} (start : Inv state) {inputs : List ι}
    (admitted : Admissible admits step state inputs)
    (occurs : Occurs happens step state inputs) : Goal (run step state inputs).2 := by
  induction inputs generalizing state with
  | nil => exact occurs.elim
  | cons input rest ih =>
    have next := kept state input start admitted.1
    rcases occurs with here | later
    · have both := run_invariant (fun state => Inv state ∧ Goal state)
        (fun state input held admits_ =>
          ⟨kept state input held.1 admits_, lasts state input held.1 admits_ held.2⟩)
        ⟨next, brought state input start admitted.1 here⟩ admitted.2
      exact both.2
    · exact ih next admitted.2 later

/-- Every entry of a list is admitted after those before it. -/
def Grows {α : Type*} (admits : List α → α → Prop) (entries : List α) : Prop :=
  Admissible admits (fun earlier entry => ((), earlier ++ [entry])) [] entries

instance {α : Type*} (admits : List α → α → Prop)
    [∀ earlier entry, Decidable (admits earlier entry)] (entries : List α) :
    Decidable (Grows admits entries) :=
  decidableAdmissible admits _ [] entries

/-- Nothing is in the way of an empty list. -/
theorem grows_nil {α : Type*} (admits : List α → α → Prop) : Grows admits [] := trivial

/-- A list grows by an entry that is admitted after it. -/
theorem grows_concat {α : Type*} {admits : List α → α → Prop} {entries : List α} {entry : α} :
    Grows admits (entries ++ [entry]) ↔ Grows admits entries ∧ admits entries entry := by
  have reached (earlier : List α) (later : List α) :
      (run (fun earlier entry => ((), earlier ++ [entry])) earlier later).2 = earlier ++ later := by
    induction later generalizing earlier with
    | nil => simp [run]
    | cons entry rest ih => simp [run, ih]
  unfold Grows
  rw [admissible_append, reached]
  simp [Admissible]

/-- The outputs that lead a specification from one state to another. -/
inductive Trace (spec : τ → ω → τ → Prop) : τ → List ω → τ → Prop
  | nil {state : τ} : Trace spec state [] state
  | cons {state next final : τ} {output : ω} {outputs : List ω} (first : spec state output next)
      (later : Trace spec next outputs final) : Trace spec state (output :: outputs) final

/-- The outputs of a run are a trace of whatever its steps refine. -/
theorem run_refines {spec : τ → ω → τ → Prop} {step : σ → ι → ω × σ} (Rel : σ → τ → Prop)
    (kept : ∀ state abstract input, Rel state abstract →
      ∃ next, spec abstract (step state input).1 next ∧ Rel (step state input).2 next)
    {state : σ} {abstract : τ} (start : Rel state abstract) (inputs : List ι) :
    ∃ final, Trace spec abstract (run step state inputs).1 final ∧
      Rel (run step state inputs).2 final := by
  induction inputs generalizing state abstract with
  | nil => exact ⟨abstract, .nil, start⟩
  | cons input rest ih =>
    obtain ⟨next, first, related⟩ := kept state abstract input start
    obtain ⟨final, later, ended⟩ := ih related
    exact ⟨final, .cons first later, ended⟩

end Library
