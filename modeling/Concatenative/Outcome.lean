import Concatenative.Error.Failure

/-!
# Outcomes

An operation on a state leaves a state behind however it ends, because what was done
before a failure stays done.  So an outcome is a state together with either a result
or the reason for which the operation stopped.
-/

namespace Concatenative

/-- Why an operation stopped before its end. -/
inductive Stop where
  /-- An error of the program. -/
  | failure (failure : Error.Failure)
  /-- A numeral over the limit was to be read or written. -/
  | overlong (excess : Numeral.Overlong)
  /-- A path with a NUL character was to be opened, which no system call takes. -/
  | embeddedNul
  /-- The program ended the session. -/
  | leave
  /-- The steps allowed for a run were used up. -/
  | exhausted

namespace Stop

/-- What is said about a path with a NUL character. -/
def embeddedNulMessage : String :=
  "embedded null byte"

/-- The stop for a cause, which is over the limit on numerals if its explanation is. -/
def ofCause (cause : Error.Cause) : Stop :=
  if cause.isWritable then failure { cause } else overlong .write

/-- Names the source of a failure that has none. -/
def within (source : String) : Stop → Stop
  | failure error => failure (error.within source)
  | stop => stop

/-- No error of a program is the end of the steps allowed. -/
theorem ofCause_ne_exhausted (cause : Error.Cause) : ofCause cause ≠ exhausted := by
  unfold ofCause
  split <;> simp

/-- A failure for a cause has that cause. -/
theorem cause_of_ofCause_eq
    {cause : Error.Cause}
    {failure : Error.Failure}
    (stop_eq : ofCause cause = .failure failure) :
    failure.cause = cause := by
  unfold ofCause at stop_eq
  split at stop_eq
  · rw [← Stop.failure.inj stop_eq]
  · simp at stop_eq

end Stop

/-- The state that an operation leaves, and its result or the reason it stopped. -/
structure Outcome (σ α : Type) where
  state : σ
  result : Except Stop α

namespace Outcome

variable {σ τ α β : Type}

/-- The operation ended with a result. -/
@[inline] def done (state : σ) (result : α) : Outcome σ α :=
  ⟨state, .ok result⟩

/-- The operation stopped. -/
@[inline] def stopped (state : σ) (stop : Stop) : Outcome σ α :=
  ⟨state, .error stop⟩

/-- The operation stopped for a cause. -/
@[inline] def failed (state : σ) (cause : Error.Cause) : Outcome σ α :=
  stopped state (.ofCause cause)

/-- Goes on from the state that an operation leaves, if it ended with a result. -/
@[inline] def andThen (outcome : Outcome σ α) (next : σ → α → Outcome σ β) : Outcome σ β :=
  match outcome with
  | ⟨state, .ok result⟩ => next state result
  | ⟨state, .error stop⟩ => stopped state stop

/-- The same outcome on a state that holds the one operated on. -/
@[inline] def mapState (outcome : Outcome σ α) (change : σ → τ) : Outcome τ α :=
  ⟨change outcome.state, outcome.result⟩

/-- The same state with another reason for having stopped. -/
@[inline] def mapStop (outcome : Outcome σ α) (change : Stop → Stop) : Outcome σ α :=
  ⟨outcome.state, outcome.result.mapError change⟩

@[simp] theorem andThen_done (state : σ) (result : α) (next : σ → α → Outcome σ β) :
    (done state result).andThen next = next state result := rfl

@[simp] theorem andThen_stopped (state : σ) (stop : Stop) (next : σ → α → Outcome σ β) :
    (stopped state stop).andThen next = stopped state stop := rfl

end Outcome
end Concatenative
