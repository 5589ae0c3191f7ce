import Concatenative.Proofs.Run

/-!
# Values below the stack

All primitives but three look no further down the stack than their operands, and stop if
these are not there: what counts the stack, what clears it and what lists it are the three.
So values put below the stack ride through a run that executes none of them.  The run ends
as it would without, on the same variables and with the same text printed, and the values
are below what it leaves.

Only a run that stops for want of operands may go on if there are more.  Such a stop is not
always told from others by its kind, as the number of operands wanted may be a numeral over
the limit.
-/

namespace Concatenative

namespace Outcome

variable {σ τ α β : Type} {shift : σ → σ}

/-- The operation stopped for want of operands. -/
def Underflows (outcome : Outcome σ α) : Prop :=
  ∃ needed held, outcome.result = .error (.ofCause (.underflow needed held))

/--
The operation stopped neither with an error for want of operands nor at a numeral over the
limit.
-/
def isSupplied (outcome : Outcome σ α) : Bool :=
  match outcome.result with
  | .ok _ | .error .embeddedNul | .error .leave | .error .exhausted => true
  | .error (.failure failure) => failure.cause.kind != .stackUnderflow
  | .error (.overlong _) => false

/-- An operation that is supplied did not stop for want of operands. -/
theorem not_underflows_of_isSupplied
    {outcome : Outcome σ α}
    (supplied : outcome.isSupplied = true) :
    ¬outcome.Underflows := by
  rintro ⟨needed, held, result_eq⟩
  unfold Stop.ofCause at result_eq
  split at result_eq
  · simp [isSupplied, result_eq, Error.Cause.kind] at supplied
  · simp [isSupplied, result_eq] at supplied

/-- An operation ends on a shifted state as it does without, unless it wants operands. -/
def Lifts (shift : σ → σ) (alone shifted : Outcome σ α) : Prop :=
  alone.Underflows ∨ shifted = alone.mapState shift

theorem lifts_failed_underflow
    (state : σ)
    (needed held : Nat)
    (shifted : Outcome σ α) :
    Lifts shift (failed state (.underflow needed held)) shifted :=
  .inl ⟨needed, held, rfl⟩

theorem lifts_mapState (outcome : Outcome σ α) : Lifts shift outcome (outcome.mapState shift) :=
  .inr rfl

theorem lifts_iff_tracks {alone shifted : Outcome σ α} :
    Lifts shift alone shifted ↔
      Tracks (fun stop => ∃ needed held, stop = .ofCause (.underflow needed held)) shift
        alone shifted := by
  refine or_congr_left ⟨?_, ?_⟩
  · rintro ⟨needed, held, result_eq⟩
    exact ⟨.ofCause (.underflow needed held), ⟨needed, held, rfl⟩, result_eq⟩
  · rintro ⟨stop, ⟨needed, held, stop_eq⟩, result_eq⟩
    exact ⟨needed, held, result_eq.trans (congrArg Except.error stop_eq)⟩

/-- What goes on in the same way from shifted states ends in the same way. -/
theorem Lifts.andThen
    {alone shifted : Outcome σ α}
    {next : σ → α → Outcome σ β}
    (lifts : Lifts shift alone shifted)
    (goesOn : ∀ state result, alone = done state result →
      Lifts shift (next state result) (next (shift state) result)) :
    Lifts shift (alone.andThen next) (shifted.andThen next) :=
  lifts_iff_tracks.2 <| (lifts_iff_tracks.1 lifts).andThen fun state result alone_eq =>
    lifts_iff_tracks.1 (goesOn state result alone_eq)

/-- A change of the state that commutes with the shift does not matter. -/
theorem Lifts.mapState
    {mapped : τ → τ}
    {alone shifted : Outcome σ α}
    (lifts : Lifts shift alone shifted)
    {change : σ → τ}
    (commutes : ∀ state, change (shift state) = mapped (change state)) :
    Lifts mapped (alone.mapState change) (shifted.mapState change) :=
  lifts_iff_tracks.2 ((lifts_iff_tracks.1 lifts).mapState commutes)

end Outcome

open Outcome (Lifts)

/-! ## Operands -/

namespace Operands

/-- Too few values are an underflow. -/
theorem pop_of_length_lt
    {specs : List Value.Spec}
    {stack : List Value}
    (short : stack.length < specs.length)
    (uniform : Bool) :
    pop specs uniform stack = .error (.underflow specs.length stack.length) := by
  have taken : (stack.take specs.length).length < specs.length := by
    rw [List.length_take]
    omega
  simp only [pop, if_pos taken]

/-- Where there are enough values, those below them do not matter. -/
theorem pop_append
    {specs : List Value.Spec}
    {stack : List Value}
    (enough : specs.length ≤ stack.length)
    (uniform : Bool)
    (below : List Value) :
    pop specs uniform (stack ++ below) =
      (pop specs uniform stack).map fun (operands, rest) => (operands, rest ++ below) := by
  have taken : ¬(stack.take specs.length).length < specs.length := by
    rw [List.length_take]
    omega
  simp only [pop, List.take_append_of_le_length enough, List.drop_append_of_le_length enough,
    if_neg taken]
  split
  · rfl
  · split <;> rfl

end Operands

namespace Workspace

variable (workspace : Workspace) (below : List Value)

/-- The workspace with more values below the stack. -/
def stackedOn : Workspace :=
  { workspace with stack := workspace.stack ++ below }

@[simp] theorem stack_stackedOn :
    (workspace.stackedOn below).stack = workspace.stack ++ below := rfl

@[simp] theorem dictionary_stackedOn :
    (workspace.stackedOn below).dictionary = workspace.dictionary := rfl

@[simp] theorem printLine_stackedOn (line : String) :
    (workspace.stackedOn below).printLine line = (workspace.printLine line).stackedOn below := rfl

/-- A listing of anything but the stack does not depend on the stack. -/
theorem printEach_stackedOn
    {α : Type}
    (isWritable : α → Bool)
    (line : α → String)
    (items : List α) :
    printEach isWritable line items (workspace.stackedOn below) =
      (printEach isWritable line items workspace).mapState (·.stackedOn below) := by
  induction items generalizing workspace with
  | nil => rfl
  | cons item items inductionHypothesis =>
      simp only [printEach, printLine_stackedOn]
      split
      · exact inductionHypothesis _
      · rfl

variable {workspace below}

/-- Operands are taken from the stack without looking below it. -/
theorem lifts_withOperands
    {specs : List Value.Spec}
    {uniform : Bool}
    {next : Workspace → List Value → Reaction}
    (goesOn : ∀ operands (rest : Workspace),
      Lifts (·.stackedOn below) (next rest operands) (next (rest.stackedOn below) operands)) :
    Lifts (·.stackedOn below) (workspace.withOperands specs uniform next)
      ((workspace.stackedOn below).withOperands specs uniform next) := by
  unfold withOperands
  rw [stack_stackedOn]
  by_cases enough : specs.length ≤ workspace.stack.length
  · rw [Operands.pop_append enough]
    cases Operands.pop specs uniform workspace.stack with
    | error cause => exact Outcome.lifts_mapState (.failed workspace cause)
    | ok taken => exact goesOn taken.1 { workspace with stack := taken.2 }
  · -- Nothing is said of what happens with more values, which may be operands now.
    rw [Operands.pop_of_length_lt (Nat.not_le.mp enough)]
    exact Outcome.lifts_failed_underflow _ _ _ _

end Workspace

/-! ## Primitives -/

namespace Primitive

/-- The primitives that depend on the whole stack. -/
def sweeping : List Primitive :=
  [depth, clear, printStack]

variable (workspace : Workspace) (below : List Value)

theorem lifts_onIntegers
    {next : Workspace → (bottom top : Int) → Reaction}
    (goesOn : ∀ bottom top (rest : Workspace),
      Lifts (·.stackedOn below) (next rest bottom top) (next (rest.stackedOn below) bottom top)) :
    Lifts (·.stackedOn below) (onIntegers workspace next)
      (onIntegers (workspace.stackedOn below) next) := by
  apply Workspace.lifts_withOperands
  intro operands rest
  split
  · exact goesOn _ _ rest
  · exact Outcome.lifts_mapState rest.settled

theorem lifts_ofIntegers (operation : (bottom top : Int) → Value) :
    Lifts (·.stackedOn below) (ofIntegers workspace operation)
      (ofIntegers (workspace.stackedOn below) operation) :=
  lifts_onIntegers workspace below fun bottom top rest =>
    Outcome.lifts_mapState (rest.push (operation bottom top)).settled

theorem lifts_ofDivision (part : Division → Int) :
    Lifts (·.stackedOn below) (ofDivision workspace part)
      (ofDivision (workspace.stackedOn below) part) := by
  apply lifts_onIntegers
  intro bottom top rest
  cases Division.ofIntegers bottom top with
  | error cause => exact Outcome.lifts_mapState (.failed rest cause)
  | ok division => exact Outcome.lifts_mapState (rest.push (.int (part division))).settled

theorem lifts_ofComparison (verdict : (same : Bool) → Bool) :
    Lifts (·.stackedOn below) (ofComparison workspace verdict)
      (ofComparison (workspace.stackedOn below) verdict) := by
  apply Workspace.lifts_withOperands
  intro operands rest
  split <;> exact Outcome.lifts_mapState _

theorem lifts_ofTruths (operation : (bottom top : Bool) → Bool) :
    Lifts (·.stackedOn below) (ofTruths workspace operation)
      (ofTruths (workspace.stackedOn below) operation) := by
  apply Workspace.lifts_withOperands
  intro operands rest
  split <;> exact Outcome.lifts_mapState _

/-- The index of a value that is there leads no further down. -/
theorem lifts_pickValue :
    Lifts (·.stackedOn below) (pickValue workspace) (pickValue (workspace.stackedOn below)) := by
  unfold pickValue
  split
  · exact Outcome.lifts_failed_underflow _ _ _ _
  · rename_i index rest stack_eq
    simp only [Workspace.stack_stackedOn, stack_eq, List.cons_append]
    split
    · rename_i value picked
      obtain ⟨inside, -⟩ := List.getElem?_eq_some_iff.mp picked
      rw [List.getElem?_append_left inside, picked]
      exact Outcome.lifts_mapState { workspace with stack := value :: rest }.settled
    · exact Outcome.lifts_failed_underflow _ _ _ _
  · rename_i index rest stack_eq
    simp only [Workspace.stack_stackedOn, stack_eq, List.cons_append]
    exact Outcome.lifts_mapState (.failed workspace (.negativeIndex (.negSucc index)))
  · rename_i top rest notNatural notNegative stack_eq
    simp only [Workspace.stack_stackedOn, stack_eq, List.cons_append]
    exact Outcome.lifts_mapState (.failed workspace (.mismatch (.only .number) top))

theorem lifts_storeVariable :
    Lifts (·.stackedOn below) (storeVariable workspace)
      (storeVariable (workspace.stackedOn below)) := by
  unfold storeVariable
  split
  · rename_i name value rest stack_eq
    simp only [Workspace.stack_stackedOn, stack_eq, List.cons_append]
    split
    · rename_i declared
      have same : (workspace.stackedOn below).dictionary.store.contains name = true := declared
      rw [if_pos same]
      exact Outcome.lifts_mapState (Workspace.settled _)
    · rename_i undeclared
      have same : ¬(workspace.stackedOn below).dictionary.store.contains name = true := undeclared
      rw [if_neg same]
      exact Outcome.lifts_mapState (.failed workspace (.undefinedVariable name))
  · rename_i top next rest notReference stack_eq
    simp only [Workspace.stack_stackedOn, stack_eq, List.cons_append]
    exact Outcome.lifts_mapState (.failed workspace (.mismatch (.only .variableRef) top))
  · exact Outcome.lifts_failed_underflow _ _ _ _

theorem lifts_fetchVariable :
    Lifts (·.stackedOn below) (fetchVariable workspace)
      (fetchVariable (workspace.stackedOn below)) := by
  unfold fetchVariable
  split
  · rename_i name rest stack_eq
    simp only [Workspace.stack_stackedOn, stack_eq, List.cons_append,
      Workspace.dictionary_stackedOn]
    cases workspace.dictionary.store.get? name with
    | some content =>
        exact Outcome.lifts_mapState { workspace with stack := content :: rest }.settled
    | none => exact Outcome.lifts_mapState (.failed workspace (.undefinedVariable name))
  · rename_i top rest notReference stack_eq
    simp only [Workspace.stack_stackedOn, stack_eq, List.cons_append]
    exact Outcome.lifts_mapState (.failed workspace (.mismatch (.only .variableRef) top))
  · exact Outcome.lifts_failed_underflow _ _ _ _

/-- No primitive but those that depend on the whole stack looks below its operands. -/
theorem lifts_effect
    {primitive : Primitive}
    (narrow : primitive ∉ sweeping) :
    Lifts (·.stackedOn below) (primitive.effect workspace)
      (primitive.effect (workspace.stackedOn below)) := by
  unfold effect
  cases primitive with
  | depth | clear | printStack => simp [sweeping] at narrow
  | printWords => exact .inr ((workspace.printLine _).printEach_stackedOn below _ _ _)
  | printVariables => exact .inr ((workspace.printLine _).printEach_stackedOn below _ _ _)
  | print =>
      apply Workspace.lifts_withOperands
      intro operands rest
      exact .inr (rest.printEach_stackedOn below _ _ operands)
  | drop =>
      apply Workspace.lifts_withOperands
      intro operands rest
      exact Outcome.lifts_mapState rest.settled
  | not | branch | call =>
      apply Workspace.lifts_withOperands
      intro operands rest
      split <;> exact Outcome.lifts_mapState _
  | swap | twoSwap | rotate | rotateBack =>
      simp only [swapTop, swapPairs, rotateUp, rotateDown]
      split
      · rename_i stack_eq
        simp only [Workspace.stack_stackedOn, stack_eq, List.cons_append]
        exact Outcome.lifts_mapState (Workspace.settled _)
      · exact Outcome.lifts_failed_underflow _ _ _ _
  | pick => exact lifts_pickValue workspace below
  | store => exact lifts_storeVariable workspace below
  | fetch => exact lifts_fetchVariable workspace below
  | add | subtract | multiply | lowerThan | greaterThan | lowerOrEqual | greaterOrEqual =>
      exact lifts_ofIntegers workspace below _
  | divide | modulo => exact lifts_ofDivision workspace below _
  | equals | notEquals => exact lifts_ofComparison workspace below _
  | and | or | xor => exact lifts_ofTruths workspace below _
  | bye => exact Outcome.lifts_mapState (.stopped workspace .leave)

end Primitive

/-- Executing a value looks no further down than a primitive does. -/
theorem Workspace.lifts_react
    (workspace : Workspace)
    (below : List Value)
    {value : Value}
    (narrow : ∀ reference primitive, value = .wordRef reference →
      workspace.dictionary.entry? reference.id = some (.primitive primitive) →
      primitive ∉ Primitive.sweeping) :
    Lifts (·.stackedOn below) (workspace.react value)
      ((workspace.stackedOn below).react value) := by
  unfold react
  split
  · rename_i reference
    unfold invoke
    rw [dictionary_stackedOn]
    split
    · exact Outcome.lifts_mapState (.failed workspace (.unknownWord reference.name))
    · rename_i primitive entry_eq
      exact Primitive.lifts_effect workspace below (narrow reference primitive rfl entry_eq)
    · split
      · exact Outcome.lifts_mapState (.failed workspace (.neverDefined reference.name))
      · exact Outcome.lifts_mapState (.done workspace _)
  · exact Outcome.lifts_mapState (workspace.push value).settled

namespace Machine

/-! ## Runs -/

variable (machine : Machine) (below : List Value)

/-- The machine with more values below the stack. -/
def stackedOn : Machine :=
  machine.withWorkspace (machine.toWorkspace.stackedOn below)

@[simp] theorem calls_stackedOn : (machine.stackedOn below).calls = machine.calls := rfl

/-- Frames are opened whatever is on the stack. -/
theorem enter_stackedOn (body : Body) :
    (machine.stackedOn below).enter body = (machine.enter body).mapState (·.stackedOn below) := by
  cases body with
  | nil => rfl
  | cons first later =>
      rcases Nat.lt_or_ge machine.calls.depth machine.limit.value with inside | reached
      · rw [enter_of_depth_lt inside]
        exact @enter_of_depth_lt (machine.stackedOn below) inside first later
      · rw [enter_of_limit_le reached]
        exact @enter_of_limit_le (machine.stackedOn below) reached first later

/-- Executing a value looks no further down than a primitive does. -/
theorem lifts_execute
    {value : Value}
    (narrow : ∀ reference primitive, value = .wordRef reference →
      machine.dictionary.entry? reference.id = some (.primitive primitive) →
      primitive ∉ Primitive.sweeping) :
    Lifts (·.stackedOn below) (machine.execute value)
      ((machine.stackedOn below).execute value) := by
  have reacts : Lifts (·.stackedOn below)
      ((machine.toWorkspace.react value).mapState machine.withWorkspace)
      (((machine.toWorkspace.stackedOn below).react value).mapState machine.withWorkspace) :=
    (machine.toWorkspace.lifts_react below narrow).mapState fun workspace => rfl
  exact reacts.andThen fun inside body _ => .inr (inside.enter_stackedOn below body)

/-- A step looks no further down than a primitive does. -/
theorem lifts_step
    (narrow : ∀ primitive, machine.primitive? = some primitive →
      primitive ∉ Primitive.sweeping) :
    Lifts (·.stackedOn below) machine.step (machine.stackedOn below).step := by
  unfold step
  rw [calls_stackedOn]
  split
  · exact Outcome.lifts_mapState (.done machine ())
  · rename_i value calls take_eq
    refine lifts_execute { machine with calls } below fun reference primitive value_eq entry_eq =>
      narrow primitive ?_
    subst value_eq
    have found : machine.dictionary.entry? reference.id = some (.primitive primitive) := entry_eq
    simp only [primitive?, take_eq, found]

/-- Values below the stack ride through, step by step. -/
theorem lifts_runAbove
    {base fuel : Nat}
    (narrow : ∀ primitive ∈ machine.executedAbove base fuel, primitive ∉ Primitive.sweeping) :
    Lifts (·.stackedOn below) (machine.runAbove base fuel)
      ((machine.stackedOn below).runAbove base fuel) := by
  induction fuel generalizing machine with
  | zero =>
      unfold runAbove
      rw [calls_stackedOn]
      split
      · exact Outcome.lifts_mapState (.done machine ())
      · exact Outcome.lifts_mapState (.stopped machine .exhausted)
  | succ fuel inductionHypothesis =>
      unfold runAbove
      rw [calls_stackedOn]
      split
      · exact Outcome.lifts_mapState (.done machine ())
      · rename_i above
        simp only [executedAbove, if_neg above, List.mem_append] at narrow
        have steps := machine.lifts_step below fun primitive primitive_eq =>
          narrow primitive (.inl (by simp [primitive_eq]))
        refine steps.andThen fun next _ step_eq => ?_
        refine inductionHypothesis next fun primitive listed => narrow primitive (.inr ?_)
        rw [step_eq]
        exact listed

/-- Values below the stack ride through the run of a body. -/
theorem lifts_run
    {fuel : Nat}
    {body : Body}
    (narrow : ∀ primitive ∈ machine.executed fuel body, primitive ∉ Primitive.sweeping) :
    Lifts (·.stackedOn below) (machine.run fuel body)
      ((machine.stackedOn below).run fuel body) := by
  rw [run_eq, run_eq, enter_stackedOn, calls_stackedOn]
  have within : Lifts (·.stackedOn below)
      ((machine.enter body).andThen fun inside _ => inside.runAbove machine.calls.depth fuel)
      (((machine.enter body).mapState (·.stackedOn below)).andThen fun inside _ =>
        inside.runAbove machine.calls.depth fuel) := by
    refine (Outcome.lifts_mapState (machine.enter body)).andThen fun inside _ enter_eq => ?_
    refine inside.lifts_runAbove below fun primitive listed => narrow primitive ?_
    rw [executed, enter_eq]
    exact listed
  exact within.mapState fun after => rfl

/--
A run that executes no primitive on the whole stack and does not stop for want of operands
ends in the same way with more values below the stack, which are then below what it leaves.
-/
theorem run_stackedOn_of_isSupplied
    {machine : Machine}
    {fuel : Nat}
    {body : Body}
    (narrow : ∀ primitive ∈ machine.executed fuel body, primitive ∉ Primitive.sweeping)
    (supplied : (machine.run fuel body).isSupplied = true)
    (below : List Value) :
    (machine.stackedOn below).run fuel body =
      (machine.run fuel body).mapState (·.stackedOn below) := by
  rcases machine.lifts_run below narrow with underflows | run_eq
  · exact absurd underflows (Outcome.not_underflows_of_isSupplied supplied)
  · exact run_eq

/-- A value is picked by a computed index, and a quotation that is called ends the session. -/
theorem run_stackedOn_of_isSupplied_picked :
    ∃ (machine : Machine) (body : Body),
      machine.executed 9 body = [.add, .pick, .call, .bye] ∧
      (machine.run 9 body).isSupplied = true ∧
      machine.stack = [.int 10, .int 20] ∧
      (((machine.stackedOn [.nil]).run 9 body).result matches .error .leave) = true ∧
      (((machine.stackedOn [.nil]).run 9 body).state.stack matches
        [.text "last", .int 20, .int 10, .int 20, .nil]) = true := by
  let word (primitive : Primitive) : Value := .wordRef ⟨primitive.id, primitive.name, 0⟩
  let machine := { initial .standard with stack := [.int 10, .int 20] }
  let body : Body :=
    [.int 0, .int 1, word .add, word .pick, .quotation [.text "last", word .bye], word .call]
  have executed_eq : machine.executed 9 body = [.add, .pick, .call, .bye] := by
    decide +kernel
  have narrow : ∀ primitive ∈ machine.executed 9 body, primitive ∉ Primitive.sweeping := by
    rw [executed_eq]
    decide
  have supplied : (machine.run 9 body).isSupplied = true := by decide +kernel
  refine ⟨machine, body, executed_eq, supplied, rfl, ?_, ?_⟩
  · rw [run_stackedOn_of_isSupplied narrow supplied]
    decide +kernel
  · rw [run_stackedOn_of_isSupplied narrow supplied]
    decide +kernel

end Machine
end Concatenative
