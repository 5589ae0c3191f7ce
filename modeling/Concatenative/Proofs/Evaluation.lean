import Concatenative.Proofs.Run

/-!
# The recursive meaning of programs

The machine runs bodies without recursion.  What it computes is the plain recursive
meaning of the language: a body is executed value by value, and executing a value that
calls a body executes that body in turn.  The recursive meaning has no frames; it only
counts how many there would be, because the limit on their number is part of what a
program means.  All values of a body but the last are executed with one frame more than
the body itself found, and the last one is not, for the machine has dropped the frame
by then.

The meaning is given by rules, one for each way in which a task comes to an end.  By them
a task comes to one outcome at most, and to none if it never ends.  A run of the machine
ends exactly when its body comes to an outcome by the rules, and with that outcome.
-/

namespace Concatenative

/-- What may be left to be executed. -/
inductive Task where
  | value (value : Value)
  | body (body : Body)
  /-- The values of a body that is below the limit, of which there is at least one. -/
  | values (first : Value) (later : List Value)

namespace Workspace

/-- What a task comes to where a number of frames would be present. -/
inductive Evaluates (limit : DepthLimit) :
    (present : Nat) → Workspace → Task → Outcome Workspace Unit → Prop
  /-- Everything but a reference to a word is pushed. -/
  | pushed {present : Nat} {workspace : Workspace} {value : Value} :
      (∀ reference, value ≠ .wordRef reference) →
      Evaluates limit present workspace (.value value) (.done (workspace.push value) ())
  | unknown {present : Nat} {workspace : Workspace} {reference : WordRef} :
      workspace.dictionary.entry? reference.id = none →
      Evaluates limit present workspace (.value (.wordRef reference))
        (.failed workspace (.unknownWord reference.name))
  | pending {present : Nat} {workspace : Workspace} {reference : WordRef} {id : Nat}
      {word : Word} :
      workspace.dictionary.entry? reference.id = some (.compiled id word) →
      word.body? reference.layer = none →
      Evaluates limit present workspace (.value (.wordRef reference))
        (.failed workspace (.neverDefined reference.name))
  /-- A compiled word is its body. -/
  | invoked {present : Nat} {workspace : Workspace} {reference : WordRef} {id : Nat}
      {word : Word} {body : Body} {outcome : Outcome Workspace Unit} :
      workspace.dictionary.entry? reference.id = some (.compiled id word) →
      word.body? reference.layer = some body →
      Evaluates limit present workspace (.body body) outcome →
      Evaluates limit present workspace (.value (.wordRef reference)) outcome
  /-- A primitive that calls takes its operands, and then is the content of a quotation. -/
  | called {present : Nat} {workspace : Workspace} {reference : WordRef}
      {primitive : Primitive} {content : Body} {rest : List Value}
      {outcome : Outcome Workspace Unit} :
      workspace.dictionary.entry? reference.id = some (.primitive primitive) →
      primitive.called? workspace.stack = some (content, rest) →
      Evaluates limit present { workspace with stack := rest } (.body content) outcome →
      Evaluates limit present workspace (.value (.wordRef reference)) outcome
  /-- Every other primitive is its own effect. -/
  | effected {present : Nat} {workspace : Workspace} {reference : WordRef}
      {primitive : Primitive} :
      workspace.dictionary.entry? reference.id = some (.primitive primitive) →
      primitive.called? workspace.stack = none →
      Evaluates limit present workspace (.value (.wordRef reference))
        (primitive.effect workspace).void
  | empty {present : Nat} {workspace : Workspace} :
      Evaluates limit present workspace (.body []) (.done workspace ())
  /-- A body that is not empty takes a frame. -/
  | exceeded {present : Nat} {workspace : Workspace} {first : Value} {later : List Value} :
      limit.value ≤ present →
      Evaluates limit present workspace (.body (first :: later))
        (.failed workspace (.depthExceeded limit.value))
  | entered {present : Nat} {workspace : Workspace} {first : Value} {later : List Value}
      {outcome : Outcome Workspace Unit} :
      present < limit.value →
      Evaluates limit present workspace (.values first later) outcome →
      Evaluates limit present workspace (.body (first :: later)) outcome
  /-- The last value does without the frame of the body. -/
  | last {present : Nat} {workspace : Workspace} {value : Value}
      {outcome : Outcome Workspace Unit} :
      Evaluates limit present workspace (.value value) outcome →
      Evaluates limit present workspace (.values value []) outcome
  /-- A value before the last is executed with the frame of the body present. -/
  | next {present : Nat} {workspace middle : Workspace} {first second : Value}
      {later : List Value} {outcome : Outcome Workspace Unit} :
      Evaluates limit (present + 1) workspace (.value first) (.done middle ()) →
      Evaluates limit present middle (.values second later) outcome →
      Evaluates limit present workspace (.values first (second :: later)) outcome
  | stopped {present : Nat} {workspace after : Workspace} {first second : Value}
      {later : List Value} {stop : Stop} :
      Evaluates limit (present + 1) workspace (.value first) (.stopped after stop) →
      Evaluates limit present workspace (.values first (second :: later)) (.stopped after stop)

section Evaluation

variable {limit : DepthLimit} {present : Nat} {workspace after : Workspace} {value : Value}

/-- What a value comes to hangs on how the workspace reacts to it. -/
theorem evaluates_of_react
    {outcome : Outcome Workspace Unit}
    (handed : ∀ after body, workspace.react value = .done after body →
      Evaluates limit present after (.body body) outcome)
    (stopped : ∀ after stop, workspace.react value = .stopped after stop →
      outcome = .stopped after stop) :
    Evaluates limit present workspace (.value value) outcome := by
  by_cases referred : ∃ reference, value = .wordRef reference
  · obtain ⟨reference, rfl⟩ := referred
    cases entry_eq : workspace.dictionary.entry? reference.id with
    | none =>
        rw [stopped _ _ (react_of_unknown entry_eq)]
        exact .unknown entry_eq
    | some entry =>
        cases entry with
        | compiled id word =>
            cases body_eq : word.body? reference.layer with
            | none =>
                rw [stopped _ _ (react_of_pending entry_eq body_eq)]
                exact .pending entry_eq body_eq
            | some body =>
                exact .invoked entry_eq body_eq (handed _ _ (react_of_body entry_eq body_eq))
        | primitive primitive =>
            have react_eq := react_of_primitive entry_eq
            cases called_eq : primitive.called? workspace.stack with
            | some called =>
                obtain ⟨content, rest⟩ := called
                rw [Primitive.effect_of_called called_eq] at react_eq
                exact .called entry_eq called_eq (handed _ _ react_eq)
            | none =>
                have effected :
                    Evaluates limit present workspace (.value (.wordRef reference))
                      (primitive.effect workspace).void :=
                  .effected entry_eq called_eq
                rcases (primitive.effect workspace).done_or_stopped with
                  ⟨after, body, effect_eq⟩ | ⟨after, stop, effect_eq⟩
                · -- Nothing is handed over, so the body is empty.
                  obtain rfl := Primitive.effect_of_not_called called_eq effect_eq
                  rw [effect_eq] at react_eq effected
                  have evaluates := handed _ _ react_eq
                  cases evaluates
                  exact effected
                · rw [effect_eq] at react_eq effected
                  rw [stopped _ _ react_eq]
                  exact effected
  · have datum : ∀ reference, value ≠ .wordRef reference :=
      fun reference value_eq => referred ⟨reference, value_eq⟩
    have evaluates := handed _ _ (react_of_datum datum)
    cases evaluates
    exact .pushed datum

/-- A value that hands a body over comes to what the body comes to. -/
theorem evaluates_of_done
    {body : Body}
    {outcome : Outcome Workspace Unit}
    (react_eq : workspace.react value = .done after body)
    (evaluates : Evaluates limit present after (.body body) outcome) :
    Evaluates limit present workspace (.value value) outcome := by
  refine evaluates_of_react (fun other otherBody done_eq => ?_) fun other stop stopped_eq => ?_
  · rw [react_eq, Outcome.done_inj] at done_eq
    obtain ⟨rfl, rfl⟩ := done_eq
    exact evaluates
  · simp [react_eq] at stopped_eq

/-- A value that stops comes to that stop. -/
theorem evaluates_of_stopped
    {stop : Stop}
    (react_eq : workspace.react value = .stopped after stop) :
    Evaluates limit present workspace (.value value) (.stopped after stop) := by
  refine evaluates_of_react (fun other body done_eq => ?_) fun other otherStop stopped_eq => ?_
  · simp [react_eq] at done_eq
  · rw [react_eq, Outcome.stopped_inj] at stopped_eq
    obtain ⟨rfl, rfl⟩ := stopped_eq
    rfl

end Evaluation

/-- No task is cut short: what it comes to is an end of the program. -/
theorem Evaluates.ended
    {limit : DepthLimit}
    {present : Nat}
    {workspace : Workspace}
    {task : Task}
    {outcome : Outcome Workspace Unit}
    (evaluates : Evaluates limit present workspace task outcome) :
    outcome.Ended := by
  induction evaluates with
  | pushed | empty => simp
  | unknown | pending | exceeded => simp
  | @effected present workspace reference primitive =>
      exact (primitive.ended_effect workspace).void
  | invoked _ _ _ inductionHypothesis => exact inductionHypothesis
  | called _ _ _ inductionHypothesis => exact inductionHypothesis
  | entered _ _ inductionHypothesis => exact inductionHypothesis
  | last _ inductionHypothesis => exact inductionHypothesis
  | next _ _ _ inductionHypothesis => exact inductionHypothesis
  | stopped _ inductionHypothesis => exact inductionHypothesis

/-- A task comes to one outcome at most. -/
theorem Evaluates.unique
    {limit : DepthLimit}
    {present : Nat}
    {workspace : Workspace}
    {task : Task}
    {outcome other : Outcome Workspace Unit}
    (evaluates : Evaluates limit present workspace task outcome)
    (evaluatesOther : Evaluates limit present workspace task other) :
    outcome = other := by
  induction evaluates generalizing other with
  | pushed datum =>
      cases evaluatesOther with
      | pushed => rfl
      | _ => exact absurd rfl (datum _)
  | unknown entry_eq => cases evaluatesOther <;> simp_all
  | pending entry_eq body_eq => cases evaluatesOther <;> simp_all
  | invoked entry_eq body_eq _ inductionHypothesis =>
      cases evaluatesOther with
      | invoked otherEntry_eq otherBody_eq later =>
          cases entry_eq.symm.trans otherEntry_eq
          cases body_eq.symm.trans otherBody_eq
          exact inductionHypothesis later
      | _ => simp_all
  | called entry_eq called_eq _ inductionHypothesis =>
      cases evaluatesOther with
      | called otherEntry_eq otherCalled_eq later =>
          cases entry_eq.symm.trans otherEntry_eq
          cases called_eq.symm.trans otherCalled_eq
          exact inductionHypothesis later
      | _ => simp_all
  | effected entry_eq called_eq => cases evaluatesOther <;> simp_all
  | empty =>
      cases evaluatesOther
      rfl
  | exceeded reached =>
      cases evaluatesOther with
      | exceeded => rfl
      | entered below => exact absurd below (Nat.not_lt_of_le reached)
  | entered below _ inductionHypothesis =>
      cases evaluatesOther with
      | exceeded reached => exact absurd below (Nat.not_lt_of_le reached)
      | entered _ later => exact inductionHypothesis later
  | last _ inductionHypothesis =>
      cases evaluatesOther with
      | last later => exact inductionHypothesis later
  | next _ _ headHypothesis tailHypothesis =>
      cases evaluatesOther with
      | next head tail =>
          obtain ⟨rfl, -⟩ := Outcome.done_inj.mp (headHypothesis head)
          exact tailHypothesis tail
      | stopped head => exact absurd (headHypothesis head) (by simp)
  | stopped _ headHypothesis =>
      cases evaluatesOther with
      | next head tail => exact absurd (headHypothesis head) (by simp)
      | stopped head => exact headHypothesis head

end Workspace

namespace Machine

/-! ## The machine follows the rules -/

/--
From some number of steps on, the machine leaves behind what an outcome does and then goes
on above the base.  The frames that a stop leaves above the base are not compared,
since the run that opened them drops them.
-/
def Simulates
    (base : Nat)
    (machine : Machine)
    (outcome : Outcome Workspace Unit)
    (running : Nat → Outcome Machine Unit) : Prop :=
  ∃ used, ∀ fuel,
    (running (fuel + used)).mapState (·.unwind base) =
      ((outcome.mapState machine.withWorkspace).andThen fun after _ =>
        after.runAbove base fuel).mapState (·.unwind base)

/-- The run that goes on above the base after executing a value. -/
def runAfterValue (machine : Machine) (base : Nat) (value : Value) (fuel : Nat) :
    Outcome Machine Unit :=
  (machine.execute value).andThen fun after _ => after.runAbove base fuel

/-- The run that goes on above the base after entering a body. -/
def runAfterBody (machine : Machine) (base : Nat) (body : Body) (fuel : Nat) :
    Outcome Machine Unit :=
  (machine.enter body).andThen fun after _ => after.runAbove base fuel

/-- The run above the base of a machine with one more frame. -/
def runAfterFrame (machine : Machine) (base : Nat) (frame : Frame) (fuel : Nat) :
    Outcome Machine Unit :=
  (machine.pushFrame frame).runAbove base fuel

section Simulation

variable {machine : Machine} {base : Nat}

/-- The run of a frame with one value left drops the frame and executes the value. -/
theorem runAfterFrame_last
    (above : base ≤ machine.calls.depth)
    (cursor : Nat)
    (value : Value)
    (fuel : Nat) :
    machine.runAfterFrame base ⟨cursor, [value]⟩ (fuel + 1) =
      machine.runAfterValue base value fuel := by
  have deeper : base < (machine.pushFrame ⟨cursor, [value]⟩).calls.depth :=
    Nat.lt_succ_of_le above
  rw [runAfterFrame, runAbove_succ deeper, step_pushFrame]
  rfl

/-- The run of a frame with more values left executes the next one above the others. -/
theorem runAfterFrame_first
    (above : base ≤ machine.calls.depth)
    (cursor : Nat)
    (first second : Value)
    (later : List Value)
    (fuel : Nat) :
    machine.runAfterFrame base ⟨cursor, first :: second :: later⟩ (fuel + 1) =
      (machine.pushFrame ⟨cursor + 1, second :: later⟩).runAfterValue base first fuel := by
  have deeper : base < (machine.pushFrame ⟨cursor, first :: second :: later⟩).calls.depth :=
    Nat.lt_succ_of_le above
  rw [runAfterFrame, runAbove_succ deeper, step_pushFrame]
  rfl

/-- A value that hands a body over is simulated by running the body. -/
theorem simulates_value_of_done
    {value : Value}
    {workspace : Workspace}
    {body : Body}
    {outcome : Outcome Workspace Unit}
    (react_eq : machine.toWorkspace.react value = .done workspace body)
    (simulated : Simulates base (machine.withWorkspace workspace) outcome
      ((machine.withWorkspace workspace).runAfterBody base body)) :
    Simulates base machine outcome (machine.runAfterValue base value) := by
  obtain ⟨used, agree⟩ := simulated
  refine ⟨used, fun fuel => ?_⟩
  unfold runAfterValue
  rw [execute_of_done react_eq]
  exact agree fuel

/-- A value that settles is simulated at once. -/
theorem simulates_value_of_settled
    {value : Value}
    {workspace : Workspace}
    (react_eq : machine.toWorkspace.react value = .done workspace []) :
    Simulates base machine (.done workspace ()) (machine.runAfterValue base value) :=
  simulates_value_of_done react_eq ⟨0, fun _ => rfl⟩

/-- A value that stops is simulated at once. -/
theorem simulates_value_of_stopped
    {value : Value}
    {workspace : Workspace}
    {stop : Stop}
    (react_eq : machine.toWorkspace.react value = .stopped workspace stop) :
    Simulates base machine (.stopped workspace stop) (machine.runAfterValue base value) := by
  refine ⟨0, fun fuel => ?_⟩
  unfold runAfterValue
  rw [execute_of_stopped react_eq]
  rfl

/-- The last value of a body is executed without the frame of the body. -/
theorem simulates_values_last
    (above : base ≤ machine.calls.depth)
    {cursor : Nat}
    {value : Value}
    {outcome : Outcome Workspace Unit}
    (simulated : Simulates base machine outcome (machine.runAfterValue base value)) :
    Simulates base machine outcome (machine.runAfterFrame base ⟨cursor, [value]⟩) := by
  obtain ⟨used, agree⟩ := simulated
  refine ⟨used + 1, fun fuel => ?_⟩
  rw [← Nat.add_assoc, runAfterFrame_last above]
  exact agree fuel

/-- A value before the last is executed below the frame of the body, which then goes on. -/
theorem simulates_values_first
    (above : base ≤ machine.calls.depth)
    {cursor : Nat}
    {first second : Value}
    {later : List Value}
    {workspace : Workspace}
    {outcome : Outcome Workspace Unit}
    (head : Simulates base (machine.pushFrame ⟨cursor + 1, second :: later⟩)
      (.done workspace ())
      ((machine.pushFrame ⟨cursor + 1, second :: later⟩).runAfterValue base first))
    (tail : Simulates base (machine.withWorkspace workspace) outcome
      ((machine.withWorkspace workspace).runAfterFrame base ⟨cursor + 1, second :: later⟩)) :
    Simulates base machine outcome
      (machine.runAfterFrame base ⟨cursor, first :: second :: later⟩) := by
  obtain ⟨usedByHead, agreeHead⟩ := head
  obtain ⟨usedByTail, agreeTail⟩ := tail
  refine ⟨usedByTail + usedByHead + 1, fun fuel => ?_⟩
  rw [← Nat.add_assoc, runAfterFrame_first above, ← Nat.add_assoc]
  exact (agreeHead (fuel + usedByTail)).trans (agreeTail fuel)

/-- A value before the last that stops stops the body. -/
theorem simulates_values_stopped
    (above : base ≤ machine.calls.depth)
    {cursor : Nat}
    {first second : Value}
    {later : List Value}
    {workspace : Workspace}
    {stop : Stop}
    (head : Simulates base (machine.pushFrame ⟨cursor + 1, second :: later⟩)
      (.stopped workspace stop)
      ((machine.pushFrame ⟨cursor + 1, second :: later⟩).runAfterValue base first)) :
    Simulates base machine (.stopped workspace stop)
      (machine.runAfterFrame base ⟨cursor, first :: second :: later⟩) := by
  obtain ⟨used, agree⟩ := head
  refine ⟨used + 1, fun fuel => ?_⟩
  rw [← Nat.add_assoc, runAfterFrame_first above]
  refine (agree fuel).trans ?_
  simp only [Outcome.mapState_stopped, Outcome.andThen_stopped, withWorkspace_pushFrame]
  rw [unwind_pushFrame]
  exact above

end Simulation

/-- The machine is where the rules are. -/
structure StandsAt
    (machine : Machine)
    (limit : DepthLimit)
    (present : Nat)
    (workspace : Workspace) : Prop where
  limit_eq : machine.limit = limit
  depth_eq : machine.calls.depth = present
  workspace_eq : machine.toWorkspace = workspace

/-- The machine comes to what a task comes to, whatever the cursor of a frame is. -/
def Follows (machine : Machine) (base : Nat) (outcome : Outcome Workspace Unit) : Task → Prop
  | .value value => Simulates base machine outcome (machine.runAfterValue base value)
  | .body body => Simulates base machine outcome (machine.runAfterBody base body)
  | .values first later =>
      ∀ cursor, Simulates base machine outcome
        (machine.runAfterFrame base ⟨cursor, first :: later⟩)

/-- Whatever a task comes to by the rules, the machine comes to. -/
theorem follows_of_evaluates
    {limit : DepthLimit}
    {present : Nat}
    {workspace : Workspace}
    {task : Task}
    {outcome : Outcome Workspace Unit}
    (evaluates : Workspace.Evaluates limit present workspace task outcome) :
    ∀ machine base, StandsAt machine limit present workspace → base ≤ present →
      machine.Follows base outcome task := by
  induction evaluates with
  | pushed datum =>
      rintro machine base ⟨rfl, rfl, rfl⟩ above
      exact simulates_value_of_settled (Workspace.react_of_datum datum)
  | unknown entry_eq =>
      rintro machine base ⟨rfl, rfl, rfl⟩ above
      exact simulates_value_of_stopped (Workspace.react_of_unknown entry_eq)
  | pending entry_eq body_eq =>
      rintro machine base ⟨rfl, rfl, rfl⟩ above
      exact simulates_value_of_stopped (Workspace.react_of_pending entry_eq body_eq)
  | invoked entry_eq body_eq _ inductionHypothesis =>
      rintro machine base ⟨rfl, rfl, rfl⟩ above
      exact simulates_value_of_done (Workspace.react_of_body entry_eq body_eq)
        (inductionHypothesis machine base ⟨rfl, rfl, rfl⟩ above)
  | called entry_eq called_eq _ inductionHypothesis =>
      rintro machine base ⟨rfl, rfl, rfl⟩ above
      have react_eq := Workspace.react_of_primitive entry_eq
      rw [Primitive.effect_of_called called_eq] at react_eq
      exact simulates_value_of_done react_eq
        (inductionHypothesis _ base ⟨rfl, rfl, rfl⟩ above)
  | @effected present workspace reference primitive entry_eq called_eq =>
      rintro machine base ⟨rfl, rfl, rfl⟩ above
      have react_eq := Workspace.react_of_primitive entry_eq
      rcases (primitive.effect machine.toWorkspace).done_or_stopped with
        ⟨after, body, effect_eq⟩ | ⟨after, stop, effect_eq⟩
      · obtain rfl := Primitive.effect_of_not_called called_eq effect_eq
        rw [effect_eq] at react_eq ⊢
        exact simulates_value_of_settled react_eq
      · rw [effect_eq] at react_eq ⊢
        exact simulates_value_of_stopped react_eq
  | empty =>
      rintro machine base ⟨rfl, rfl, rfl⟩ above
      exact ⟨0, fun _ => rfl⟩
  | exceeded reached =>
      rintro machine base ⟨rfl, rfl, rfl⟩ above
      refine ⟨0, fun fuel => ?_⟩
      rw [runAfterBody, enter_of_limit_le reached]
      rfl
  | entered below _ inductionHypothesis =>
      rintro machine base ⟨rfl, rfl, rfl⟩ above
      obtain ⟨used, agree⟩ := inductionHypothesis machine base ⟨rfl, rfl, rfl⟩ above 0
      refine ⟨used, fun fuel => ?_⟩
      rw [runAfterBody, enter_of_depth_lt below]
      exact agree fuel
  | last _ inductionHypothesis =>
      rintro machine base ⟨rfl, rfl, rfl⟩ above cursor
      exact simulates_values_last above
        (inductionHypothesis machine base ⟨rfl, rfl, rfl⟩ above)
  | @next present workspace middle first second later outcome _ _ headHypothesis tailHypothesis =>
      rintro machine base ⟨rfl, rfl, rfl⟩ above cursor
      have head := headHypothesis (machine.pushFrame ⟨cursor + 1, second :: later⟩) base
        ⟨rfl, rfl, rfl⟩ (Nat.le_succ_of_le above)
      have tail := tailHypothesis (machine.withWorkspace middle) base ⟨rfl, rfl, rfl⟩ above
        (cursor + 1)
      exact simulates_values_first above head tail
  | @stopped present workspace after first second later stop _ headHypothesis =>
      rintro machine base ⟨rfl, rfl, rfl⟩ above cursor
      have head := headHypothesis (machine.pushFrame ⟨cursor + 1, second :: later⟩) base
        ⟨rfl, rfl, rfl⟩ (Nat.le_succ_of_le above)
      exact simulates_values_stopped above head

/-! ## The rules cover what the machine does -/

/--
A task comes to an outcome, and if that is a normal end then the machine goes on above the
base and ends within the steps that are left.
-/
def ComesTo
    (machine : Machine)
    (base fuel present : Nat)
    (workspace : Workspace)
    (task : Task) : Prop :=
  ∃ outcome, Workspace.Evaluates machine.limit present workspace task outcome ∧
    ∀ after, outcome = .done after () →
      ∃ remaining ≤ fuel, ((machine.withWorkspace after).runAbove base remaining).Ended

/-- A body comes to an outcome if the values of its frame do. -/
theorem comesTo_body
    {machine : Machine}
    {base fuel : Nat}
    {body : Body}
    (ended : (machine.runAfterBody base body fuel).Ended)
    (onFrame : ∀ first later,
      (machine.runAfterFrame base ⟨0, first :: later⟩ fuel).Ended →
      ComesTo machine base fuel machine.calls.depth machine.toWorkspace
        (.values first later)) :
    ComesTo machine base fuel machine.calls.depth machine.toWorkspace (.body body) := by
  cases body with
  | nil =>
      refine ⟨_, .empty, fun after outcome_eq => ⟨fuel, Nat.le_refl fuel, ?_⟩⟩
      rw [Outcome.done_inj] at outcome_eq
      rw [← outcome_eq.1]
      exact ended
  | cons first later =>
      rcases Nat.lt_or_ge machine.calls.depth machine.limit.value with below | reached
      · rw [runAfterBody, enter_of_depth_lt below] at ended
        obtain ⟨outcome, evaluates, goesOn⟩ := onFrame first later ended
        exact ⟨outcome, .entered below evaluates, goesOn⟩
      · exact ⟨_, .exceeded reached, fun after outcome_eq => by simp at outcome_eq⟩

/-- A value comes to an outcome if the frames that it opens do. -/
theorem comesTo_value
    {machine : Machine}
    {base fuel : Nat}
    {value : Value}
    (ended : (machine.runAfterValue base value fuel).Ended)
    (onFrame : ∀ workspace first later,
      ((machine.withWorkspace workspace).runAfterFrame base ⟨0, first :: later⟩ fuel).Ended →
      ComesTo machine base fuel machine.calls.depth workspace (.values first later)) :
    ComesTo machine base fuel machine.calls.depth machine.toWorkspace (.value value) := by
  rcases (machine.toWorkspace.react value).done_or_stopped with
    ⟨after, body, react_eq⟩ | ⟨after, stop, react_eq⟩
  · rw [runAfterValue, execute_of_done react_eq] at ended
    obtain ⟨outcome, evaluates, goesOn⟩ :=
      @comesTo_body (machine.withWorkspace after) base fuel body ended (onFrame after)
    exact ⟨outcome, Workspace.evaluates_of_done react_eq evaluates, goesOn⟩
  · exact ⟨_, Workspace.evaluates_of_stopped react_eq,
      fun after outcome_eq => by simp at outcome_eq⟩

/-- Fewer steps allowed leave fewer. -/
theorem ComesTo.mono
    {machine : Machine}
    {base fuel more present : Nat}
    {workspace : Workspace}
    {task : Task}
    (comes : ComesTo machine base fuel present workspace task)
    (le : fuel ≤ more) :
    ComesTo machine base more present workspace task := by
  obtain ⟨outcome, evaluates, goesOn⟩ := comes
  refine ⟨outcome, evaluates, fun after outcome_eq => ?_⟩
  obtain ⟨remaining, bound, ended⟩ := goesOn after outcome_eq
  exact ⟨remaining, Nat.le_trans bound le, ended⟩

/-- Where the run of a frame ends, its values come to an outcome. -/
theorem comesTo_values
    {machine : Machine}
    {base fuel cursor : Nat}
    {first : Value}
    {later : List Value}
    (above : base ≤ machine.calls.depth)
    (ended : (machine.runAfterFrame base ⟨cursor, first :: later⟩ fuel).Ended) :
    ComesTo machine base fuel machine.calls.depth machine.toWorkspace (.values first later) := by
  induction fuel using Nat.strongRecOn generalizing machine cursor first later with
  | ind fuel inductionHypothesis =>
      cases fuel with
      | zero =>
          have deeper : base < (machine.pushFrame ⟨cursor, first :: later⟩).calls.depth :=
            Nat.lt_succ_of_le above
          simp [runAfterFrame, runAbove_zero deeper] at ended
      | succ fuel =>
          cases later with
          | nil =>
              rw [runAfterFrame_last above] at ended
              have onFrame : ∀ workspace inner rest,
                  ((machine.withWorkspace workspace).runAfterFrame base ⟨0, inner :: rest⟩
                    fuel).Ended →
                  ComesTo machine base fuel machine.calls.depth workspace
                    (.values inner rest) :=
                fun workspace inner rest opened =>
                  @inductionHypothesis fuel (Nat.lt_succ_self fuel)
                    (machine.withWorkspace workspace) 0 inner rest above opened
              obtain ⟨outcome, evaluates, goesOn⟩ :=
                (comesTo_value ended onFrame).mono (Nat.le_succ fuel)
              exact ⟨outcome, .last evaluates, goesOn⟩
          | cons second later =>
              -- The first value runs with the frame of the others below what it opens.
              rw [runAfterFrame_first above] at ended
              have onFrame : ∀ workspace inner rest,
                  (((machine.pushFrame ⟨cursor + 1, second :: later⟩).withWorkspace
                    workspace).runAfterFrame base ⟨0, inner :: rest⟩ fuel).Ended →
                  ComesTo (machine.pushFrame ⟨cursor + 1, second :: later⟩) base fuel
                    (machine.calls.depth + 1) workspace (.values inner rest) :=
                fun workspace inner rest opened =>
                  @inductionHypothesis fuel (Nat.lt_succ_self fuel)
                    ((machine.pushFrame ⟨cursor + 1, second :: later⟩).withWorkspace workspace)
                    0 inner rest (Nat.le_succ_of_le above) opened
              obtain ⟨outcome, evaluates, goesOn⟩ := comesTo_value ended onFrame
              rcases outcome.done_or_stopped with
                ⟨middle, ⟨⟩, rfl⟩ | ⟨after, stop, rfl⟩
              · obtain ⟨remaining, bound, endedLater⟩ := goesOn middle rfl
                have fewer : remaining < fuel + 1 := Nat.lt_succ_of_le bound
                obtain ⟨outcome, evaluatesLater, goesOnLater⟩ :=
                  (@inductionHypothesis remaining fewer (machine.withWorkspace middle)
                    (cursor + 1) second later above endedLater).mono (Nat.le_of_lt fewer)
                exact ⟨outcome, .next evaluates evaluatesLater, goesOnLater⟩
              · exact ⟨_, .stopped evaluates, fun after outcome_eq => by simp at outcome_eq⟩

/-- Where a run ends, its body comes to an outcome. -/
theorem exists_evaluates_of_ended
    {machine : Machine}
    {fuel : Nat}
    {body : Body}
    (ended : (machine.run fuel body).Ended) :
    ∃ outcome, Workspace.Evaluates machine.limit machine.calls.depth machine.toWorkspace
      (.body body) outcome := by
  have within : (machine.runAfterBody machine.calls.depth body fuel).Ended := ended
  obtain ⟨outcome, evaluates, -⟩ := comesTo_body within fun first later opened =>
    comesTo_values (Nat.le_refl _) opened
  exact ⟨outcome, evaluates⟩

/-- Where a body comes to an outcome, so does a run, with the frames that were there. -/
theorem exists_run_eq_of_evaluates
    {machine : Machine}
    {body : Body}
    {outcome : Outcome Workspace Unit}
    (evaluates : Workspace.Evaluates machine.limit machine.calls.depth machine.toWorkspace
      (.body body) outcome) :
    ∃ fuel, machine.run fuel body = outcome.mapState machine.withWorkspace := by
  obtain ⟨used, agree⟩ := follows_of_evaluates evaluates machine machine.calls.depth
    ⟨rfl, rfl, rfl⟩ (Nat.le_refl _)
  refine ⟨0 + used, (agree 0).trans ?_⟩
  rcases outcome.done_or_stopped with ⟨workspace, ⟨⟩, rfl⟩ | ⟨workspace, stop, rfl⟩
  · have finished : (machine.withWorkspace workspace).calls.depth ≤ machine.calls.depth :=
      Nat.le_refl _
    rw [Outcome.mapState_done, Outcome.andThen_done, runAbove_of_depth_le finished]
    exact congrArg (Outcome.done · ()) (machine.withWorkspace workspace).unwind_depth
  · exact congrArg (Outcome.stopped · stop) (machine.withWorkspace workspace).unwind_depth

/-- A run comes to that outcome with every number of steps that is large enough. -/
theorem exists_run_eq_of_le_of_evaluates
    {machine : Machine}
    {body : Body}
    {outcome : Outcome Workspace Unit}
    (evaluates : Workspace.Evaluates machine.limit machine.calls.depth machine.toWorkspace
      (.body body) outcome) :
    ∃ steps, ∀ fuel, steps ≤ fuel →
      machine.run fuel body = outcome.mapState machine.withWorkspace := by
  obtain ⟨steps, run_eq⟩ := exists_run_eq_of_evaluates evaluates
  refine ⟨steps, fun fuel enough => ?_⟩
  obtain ⟨extra, rfl⟩ := Nat.exists_eq_add_of_le enough
  have ended : (machine.run steps body).Ended := by
    rw [run_eq, Outcome.ended_mapState]
    exact evaluates.ended
  rw [run_add_of_ended ended, run_eq]

/--
The machine computes the recursive meaning of the language, the limit on frames
included.  Whatever the stack, the dictionary, the frames that are there and the limit
are, a run of a body ends exactly when the body comes to an outcome by the rules, and then
it ends the same way, with the same workspace, and with the frames that were there.
-/
theorem run_ends_iff_evaluates
    (machine : Machine)
    (body : Body)
    (outcome : Outcome Machine Unit) :
    (∃ fuel, machine.run fuel body = outcome ∧ outcome.Ended) ↔
      ∃ meaning,
        Workspace.Evaluates machine.limit machine.calls.depth machine.toWorkspace
          (.body body) meaning ∧
        outcome = meaning.mapState machine.withWorkspace := by
  constructor
  · rintro ⟨fuel, rfl, ended⟩
    obtain ⟨meaning, evaluates⟩ := exists_evaluates_of_ended ended
    obtain ⟨enough, run_eq⟩ := exists_run_eq_of_evaluates evaluates
    have enoughEnded : (machine.run enough body).Ended := by
      rw [run_eq, Outcome.ended_mapState]
      exact evaluates.ended
    refine ⟨meaning, evaluates, ?_⟩
    calc
      machine.run fuel body = machine.run (fuel + enough) body :=
        (run_add_of_ended ended enough).symm
      _ = machine.run (enough + fuel) body := by rw [Nat.add_comm]
      _ = machine.run enough body := run_add_of_ended enoughEnded fuel
      _ = meaning.mapState machine.withWorkspace := run_eq
  · rintro ⟨meaning, evaluates, rfl⟩
    obtain ⟨enough, run_eq⟩ := exists_run_eq_of_evaluates evaluates
    exact ⟨enough, run_eq, evaluates.ended⟩

end Machine
end Concatenative
