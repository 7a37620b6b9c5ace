import TitanEngine.Library.Machine

/-!
# Logs read in pieces

A machine keeps a log that it only appends to. Somebody reads the log now and then and clears it.
When no step looks at what is in the log, the pieces one after the other are the log of the run that
nobody cleared, and every step answers as it does there.
-/

namespace Library

variable {σ ι ω ε : Type*}

/-- A log that is part of a state. -/
structure Journal (σ ε : Type*) where
  /-- What is in the log. -/
  read : σ → List ε
  /-- The state with its log cleared. -/
  clear : σ → σ
  /-- The state with earlier entries put before its log. -/
  restore : List ε → σ → σ
  /-- No entry is nothing put back. -/
  restore_nil : ∀ state, restore [] state = state
  /-- Entries are put back latest first. -/
  restore_restore : ∀ earlier later state,
    restore earlier (restore later state) = restore (earlier ++ later) state
  /-- Putting back what was read undoes the clearing. -/
  restore_read_clear : ∀ state, restore (read state) (clear state) = state

namespace Journal

variable {journal : Journal σ ε} {step : σ → ι → ω × σ}

/-- No step looks at what is in the log. -/
def Unread (journal : Journal σ ε) (step : σ → ι → ω × σ) : Prop :=
  ∀ earlier state input, step (journal.restore earlier state) input =
    ((step state input).1, journal.restore earlier (step state input).2)

/-- A batch of inputs, after which the log is read and cleared. -/
def harvest (journal : Journal σ ε) (step : σ → ι → ω × σ) (state : σ) (batch : List ι) :
    (List ω × List ε) × σ :=
  let (answers, next) := run step state batch
  ((answers, journal.read next), journal.clear next)

/-- Neither does a run of steps. -/
theorem Unread.run (unread : journal.Unread step) (earlier : List ε) (state : σ)
    (inputs : List ι) :
    run step (journal.restore earlier state) inputs =
      ((run step state inputs).1, journal.restore earlier (run step state inputs).2) := by
  induction inputs generalizing state with
  | nil => rfl
  | cons input rest ih => simp only [Library.run, unread earlier state input, ih]

/-- The pieces put back make the run that nobody cleared. -/
theorem Unread.run_harvest (unread : journal.Unread step) (state : σ) (batches : List (List ι)) :
    let pieces := Library.run (journal.harvest step) state batches
    Library.run step state batches.flatten =
      ((pieces.1.map (fun piece => piece.1)).flatten,
        journal.restore (pieces.1.map (fun piece => piece.2)).flatten pieces.2) := by
  induction batches generalizing state with
  | nil =>
    show ([], state) = ([], journal.restore [] state)
    rw [journal.restore_nil]
  | cons batch rest ih =>
    have later := ih (journal.clear (Library.run step state batch).2)
    have resumed := unread.run (journal.read (Library.run step state batch).2)
      (journal.clear (Library.run step state batch).2) rest.flatten
    rw [journal.restore_read_clear, later, journal.restore_restore] at resumed
    rw [List.flatten_cons, run_append, resumed]
    rfl

end Journal

end Library
