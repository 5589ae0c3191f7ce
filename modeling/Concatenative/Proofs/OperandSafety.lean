import Concatenative.Proofs.Run

/-!
# Primitives that stop

A primitive checks its operands before it takes them, so one that stops leaves the stack as
it was, and the dictionary and the frames as well.  There are four exceptions, all of them
stops that come after the operands are taken: a division by zero, the two primitives that
call at the limit on frames, and the print of a value with a numeral over the limit.
-/

namespace Concatenative

namespace Primitive

/-! ## Where the workspace is left as it was -/

/-- The kinds of the errors that come before anything is taken. -/
def checks : List Error.Kind :=
  [.stackUnderflow, .typeMismatch, .invalidArgument, .undefinedVariable]

/-- What the effect of a primitive that stops may be; of one that does not, nothing is said. -/
inductive Setback (primitive : Primitive) (workspace : Workspace) : Reaction → Prop
  | spared (after : Workspace) (body : Body) :
      Setback primitive workspace (.done after body)
  /-- A check fails before anything is taken. -/
  | checked (cause : Error.Cause) :
      cause.kind ∈ checks →
      Setback primitive workspace (.failed workspace cause)
  /-- Both operands of a division are taken when the divisor turns out to be zero. -/
  | undivided (dividend : Int) (rest : List Value) :
      primitive = .divide ∨ primitive = .modulo →
      workspace.stack = .int 0 :: .int dividend :: rest →
      Setback primitive workspace
        (.failed { workspace with stack := rest } (.zeroDivisor dividend))
  /-- A listing stops at a numeral over the limit. -/
  | unlisted (output : String) :
      Setback primitive workspace (.stopped { workspace with output } (.overlong .write))
  /-- The value to be printed is taken when it turns out to hold a numeral over the limit. -/
  | unprinted (value : Value) (rest : List Value) :
      primitive = .print →
      workspace.stack = value :: rest →
      value.isDisplayable = false →
      Setback primitive workspace
        (.stopped { workspace with stack := rest } (.overlong .write))
  | left : Setback primitive workspace (.stopped workspace .leave)

section Families

variable {primitive : Primitive} {workspace : Workspace}

/-- A primitive on operands fails before they are taken, or goes on without them. -/
theorem setback_withOperands
    {specs : List Value.Spec}
    {uniform : Bool}
    {next : Workspace → List Value → Reaction}
    (goesOn : ∀ operands rest,
      workspace.stack = operands ++ rest →
      operands.length = specs.length →
      Setback primitive workspace (next { workspace with stack := rest } operands)) :
    Setback primitive workspace (workspace.withOperands specs uniform next) := by
  unfold Workspace.withOperands
  split
  · rename_i cause pop_eq
    apply Setback.checked
    rcases Operands.kind_of_pop_eq_error pop_eq with kind_eq | kind_eq <;>
      simp [checks, kind_eq]
  · rename_i operands rest pop_eq
    obtain ⟨stack_eq, length_eq, -⟩ := Operands.pop_eq_ok pop_eq
    exact goesOn operands rest stack_eq length_eq

theorem setback_ofIntegers (operation : (bottom top : Int) → Value) :
    Setback primitive workspace (ofIntegers workspace operation) := by
  unfold ofIntegers onIntegers
  apply setback_withOperands
  intro operands rest _ _
  split <;> exact .spared _ _

theorem setback_ofComparison (verdict : (same : Bool) → Bool) :
    Setback primitive workspace (ofComparison workspace verdict) := by
  apply setback_withOperands
  intro operands rest _ _
  split <;> exact .spared _ _

theorem setback_ofTruths (operation : (bottom top : Bool) → Bool) :
    Setback primitive workspace (ofTruths workspace operation) := by
  apply setback_withOperands
  intro operands rest _ _
  split <;> exact .spared _ _

/-- A division stops after its operands are taken if the divisor is zero. -/
theorem setback_ofDivision
    (divides : primitive = .divide ∨ primitive = .modulo)
    (part : Division → Int) :
    Setback primitive workspace (ofDivision workspace part) := by
  unfold ofDivision onIntegers
  apply setback_withOperands
  intro operands rest stack_eq _
  split
  · rename_i top bottom _
    by_cases zero : top = 0
    · subst zero
      exact .undivided bottom rest divides stack_eq
    · simp only [Division.ofIntegers, if_neg zero]
      exact .spared _ _
  · exact .spared _ _

/-- A listing stops with all as it was, except for what is printed. -/
theorem setback_printEach
    {α : Type}
    (isWritable : α → Bool)
    (line : α → String)
    (items : List α)
    (output : String) :
    Setback primitive workspace
      (Workspace.printEach isWritable line items { workspace with output }) := by
  obtain ⟨output, result, ended, print_eq⟩ :=
    printEach_eq isWritable line items { workspace with output }
  rw [print_eq]
  rcases ended with rfl | rfl
  · exact .spared _ _
  · exact .unlisted output

end Families

section Single

variable (workspace : Workspace)

theorem setback_printTop : Setback print workspace (printTop workspace) := by
  unfold printTop
  apply setback_withOperands
  intro operands rest stack_eq length_eq
  obtain ⟨value, rfl⟩ := List.length_eq_one_iff.mp length_eq
  simp only [Workspace.printEach]
  split
  · exact .spared _ _
  · rename_i unwritable
    exact .unprinted value rest rfl stack_eq (by simpa using unwritable)

theorem setback_pickValue {primitive : Primitive} :
    Setback primitive workspace (pickValue workspace) := by
  unfold pickValue
  split
  · exact .checked _ (by simp [checks, Error.Cause.kind])
  · split
    · exact .spared _ _
    · exact .checked _ (by simp [checks, Error.Cause.kind])
  · exact .checked _ (by simp [checks, Error.Cause.kind])
  · exact .checked _ (by simp [checks, Error.Cause.kind])

theorem setback_storeVariable {primitive : Primitive} :
    Setback primitive workspace (storeVariable workspace) := by
  unfold storeVariable
  split
  · simp only
    split
    · exact .spared _ _
    · exact .checked _ (by simp [checks, Error.Cause.kind])
  · exact .checked _ (by simp [checks, Error.Cause.kind])
  · exact .checked _ (by simp [checks, Error.Cause.kind])

theorem setback_fetchVariable {primitive : Primitive} :
    Setback primitive workspace (fetchVariable workspace) := by
  unfold fetchVariable
  split
  · split
    · exact .spared _ _
    · exact .checked _ (by simp [checks, Error.Cause.kind])
  · exact .checked _ (by simp [checks, Error.Cause.kind])
  · exact .checked _ (by simp [checks, Error.Cause.kind])

end Single

/-- A primitive that stops has one of the setbacks listed. -/
theorem setback_effect (primitive : Primitive) (workspace : Workspace) :
    Setback primitive workspace (primitive.effect workspace) := by
  unfold effect
  cases primitive with
  | printStack | printWords | printVariables => exact setback_printEach _ _ _ _
  | print => exact setback_printTop workspace
  | clear | depth => exact .spared _ _
  | bye => exact .left
  | drop =>
      apply setback_withOperands
      intro operands rest _ _
      exact .spared _ _
  | not | branch | call =>
      apply setback_withOperands
      intro operands rest _ _
      split <;> exact .spared _ _
  | swap | twoSwap | rotate | rotateBack =>
      simp only [swapTop, swapPairs, rotateUp, rotateDown]
      split
      · exact .spared _ _
      · exact .checked _ (by simp [checks, Error.Cause.kind])
  | pick => exact setback_pickValue workspace
  | store => exact setback_storeVariable workspace
  | fetch => exact setback_fetchVariable workspace
  | add | subtract | multiply | lowerThan | greaterThan | lowerOrEqual | greaterOrEqual =>
      exact setback_ofIntegers _
  | divide => exact setback_ofDivision (.inl rfl) _
  | modulo => exact setback_ofDivision (.inr rfl) _
  | equals | notEquals => exact setback_ofComparison _
  | and | or | xor => exact setback_ofTruths _

/-- Primitives on two integers find them on the stack. -/
theorem onIntegers_of_stack_eq
    {workspace : Workspace}
    {bottom top : Int}
    {rest : List Value}
    (stack_eq : workspace.stack = .int top :: .int bottom :: rest)
    (next : Workspace → (bottom top : Int) → Reaction) :
    onIntegers workspace next = next { workspace with stack := rest } bottom top := by
  simp [onIntegers, Workspace.withOperands, stack_eq, Operands.pop, Operands.checkEach,
    Value.Spec.admits, Value.isOf, Value.kind]

/-- A division by zero takes both operands. -/
theorem effect_of_zeroDivisor
    {primitive : Primitive}
    (divides : primitive = .divide ∨ primitive = .modulo)
    {workspace : Workspace}
    {dividend : Int}
    {rest : List Value}
    (stack_eq : workspace.stack = .int 0 :: .int dividend :: rest) :
    primitive.effect workspace =
      .failed { workspace with stack := rest } (.zeroDivisor dividend) := by
  rcases divides with rfl | rfl <;>
    rw [effect, ofDivision, onIntegers_of_stack_eq stack_eq] <;>
    rfl

/-- A value that holds a numeral over the limit is taken and not printed. -/
theorem effect_of_not_isDisplayable
    {workspace : Workspace}
    {value : Value}
    {rest : List Value}
    (stack_eq : workspace.stack = value :: rest)
    (undisplayable : value.isDisplayable = false) :
    print.effect workspace = .stopped { workspace with stack := rest } (.overlong .write) := by
  simp [effect, printTop, Workspace.withOperands, stack_eq, Operands.pop, Operands.checkEach,
    Value.Spec.admits, Value.isOf, Workspace.printEach, undisplayable]

end Primitive

namespace Machine

/-! ## What a machine loses -/

/-- What a primitive that stops leaves of the stack if it does not leave all of it. -/
inductive Loses (machine : Machine) : Primitive → Stop → (rest : List Value) → Prop
  | divided {primitive : Primitive} {dividend : Int} {rest : List Value} :
      primitive = .divide ∨ primitive = .modulo →
      machine.stack = .int 0 :: .int dividend :: rest →
      Loses machine primitive (.ofCause (.zeroDivisor dividend)) rest
  | branched {otherwise consequence : Body} {condition : Bool} {rest : List Value} :
      machine.stack = .quotation otherwise :: .quotation consequence :: .bool condition :: rest →
      (if condition then consequence else otherwise) ≠ [] →
      machine.limit.value ≤ machine.calls.depth →
      Loses machine .branch (.ofCause (.depthExceeded machine.limit.value)) rest
  | called {content : Body} {rest : List Value} :
      machine.stack = .quotation content :: rest →
      content ≠ [] →
      machine.limit.value ≤ machine.calls.depth →
      Loses machine .call (.ofCause (.depthExceeded machine.limit.value)) rest
  | printed {value : Value} {rest : List Value} :
      machine.stack = value :: rest →
      value.isDisplayable = false →
      Loses machine .print (.overlong .write) rest

/-- How a machine may be left by a primitive that stops. -/
inductive Halts (machine : Machine) (primitive : Primitive) : Stop → Machine → Prop
  | untouched {stop : Stop} : Halts machine primitive stop machine
  /-- Something is printed, up to a numeral over the limit. -/
  | printed (output : String) :
      Halts machine primitive (.overlong .write) { machine with output }
  | lost {stop : Stop} {rest : List Value} :
      Loses machine primitive stop rest →
      Halts machine primitive stop { machine with stack := rest }

section Primitives

variable {machine : Machine} {primitive : Primitive} {reference : WordRef}

/-- Some of the stack is lost. -/
theorem Loses.rest_ne
    {stop : Stop}
    {rest : List Value}
    (loses : machine.Loses primitive stop rest) :
    rest ≠ machine.stack := by
  have shorter : rest.length < machine.stack.length := by
    cases loses with
    | divided _ stack_eq =>
        simp only [stack_eq, List.length_cons]
        omega
    | branched stack_eq =>
        simp only [stack_eq, List.length_cons]
        omega
    | called stack_eq => simp [stack_eq]
    | printed stack_eq => simp [stack_eq]
  intro same
  rw [same] at shorter
  exact Nat.lt_irrefl _ shorter

/-- No check comes after operands are taken. -/
theorem Loses.kind_notMem_checks
    {failure : Error.Failure}
    {rest : List Value}
    (loses : machine.Loses primitive (.failure failure) rest) :
    failure.cause.kind ∉ Primitive.checks := by
  generalize stop_eq : Stop.failure failure = stop at loses
  cases loses with
  | divided =>
      rw [Stop.cause_of_ofCause_eq stop_eq.symm]
      simp [Primitive.checks, Error.Cause.kind]
  | branched | called =>
      rw [Stop.cause_of_ofCause_eq stop_eq.symm]
      simp [Primitive.checks, Error.Cause.kind]
  | printed => simp at stop_eq

/-- A primitive that calls takes its operands and enters the content. -/
theorem execute_of_called
    (entry_eq : machine.dictionary.entry? reference.id = some (.primitive primitive))
    {content : Body}
    {rest : List Value}
    (called_eq : primitive.called? machine.stack = some (content, rest)) :
    machine.execute (.wordRef reference) = { machine with stack := rest }.enter content := by
  have react_eq := Workspace.react_of_primitive entry_eq
  rw [Primitive.effect_of_called called_eq] at react_eq
  exact execute_of_done react_eq

/-- At the limit a primitive that calls takes its operands and stops. -/
theorem execute_of_called_at_limit
    (entry_eq : machine.dictionary.entry? reference.id = some (.primitive primitive))
    {content : Body}
    {rest : List Value}
    (called_eq : primitive.called? machine.stack = some (content, rest))
    (filled : content ≠ [])
    (reached : machine.limit.value ≤ machine.calls.depth) :
    machine.execute (.wordRef reference) =
      .failed { machine with stack := rest } (.depthExceeded machine.limit.value) := by
  obtain ⟨first, later, rfl⟩ := List.exists_cons_of_ne_nil filled
  rw [execute_of_called entry_eq called_eq]
  exact @enter_of_limit_le { machine with stack := rest } reached first later

/-- Where something is lost, the primitive stops so. -/
theorem Loses.execute_eq
    (entry_eq : machine.dictionary.entry? reference.id = some (.primitive primitive))
    {stop : Stop}
    {rest : List Value}
    (loses : machine.Loses primitive stop rest) :
    machine.execute (.wordRef reference) = .stopped { machine with stack := rest } stop := by
  have react_eq := Workspace.react_of_primitive entry_eq
  cases loses with
  | divided divides stack_eq =>
      rw [Primitive.effect_of_zeroDivisor divides stack_eq] at react_eq
      exact execute_of_stopped react_eq
  | branched stack_eq filled reached =>
      exact execute_of_called_at_limit entry_eq (by simp [Primitive.called?, stack_eq]) filled
        reached
  | called stack_eq filled reached =>
      exact execute_of_called_at_limit entry_eq (by simp [Primitive.called?, stack_eq]) filled
        reached
  | printed stack_eq undisplayable =>
      rw [Primitive.effect_of_not_isDisplayable stack_eq undisplayable] at react_eq
      exact execute_of_stopped react_eq

/-- A primitive that calls stops at the limit only, and then its operands are lost. -/
theorem loses_of_called
    {content : Body}
    {rest : List Value}
    (called_eq : primitive.called? machine.stack = some (content, rest))
    (filled : content ≠ [])
    (reached : machine.limit.value ≤ machine.calls.depth) :
    machine.Loses primitive (.ofCause (.depthExceeded machine.limit.value)) rest := by
  unfold Primitive.called? at called_eq
  split at called_eq
  · rename_i stack_eq
    simp only [Option.some.injEq, Prod.mk.injEq] at called_eq
    obtain ⟨rfl, rfl⟩ := called_eq
    exact .branched stack_eq filled reached
  · rename_i stack_eq
    simp only [Option.some.injEq, Prod.mk.injEq] at called_eq
    obtain ⟨rfl, rfl⟩ := called_eq
    exact .called stack_eq filled reached
  · simp at called_eq

/-- A primitive that calls leaves the machine without its operands if it stops. -/
theorem halts_of_called
    (entry_eq : machine.dictionary.entry? reference.id = some (.primitive primitive))
    {content : Body}
    {rest : List Value}
    (called_eq : primitive.called? machine.stack = some (content, rest))
    {stop : Stop}
    (stopped : (machine.execute (.wordRef reference)).result = .error stop) :
    machine.Halts primitive stop (machine.execute (.wordRef reference)).state := by
  by_cases reached : machine.limit.value ≤ machine.calls.depth
  · by_cases filled : content = []
    · rw [execute_of_called entry_eq called_eq, filled] at stopped
      simp [Outcome.done] at stopped
    · rw [execute_of_called_at_limit entry_eq called_eq filled reached] at stopped ⊢
      obtain rfl := Except.error.inj stopped
      exact .lost (loses_of_called called_eq filled reached)
  · rw [execute_of_called entry_eq called_eq] at stopped
    cases content with
    | nil => simp [Outcome.done] at stopped
    | cons first later =>
        have below : machine.calls.depth < machine.limit.value := Nat.not_le.mp reached
        rw [@enter_of_depth_lt { machine with stack := rest } below] at stopped
        simp [Outcome.done] at stopped

/-- A primitive that stops leaves the machine in one of the ways listed. -/
theorem halts_of_execute
    (entry_eq : machine.dictionary.entry? reference.id = some (.primitive primitive))
    {stop : Stop}
    (stopped : (machine.execute (.wordRef reference)).result = .error stop) :
    machine.Halts primitive stop (machine.execute (.wordRef reference)).state := by
  have react_eq := Workspace.react_of_primitive entry_eq
  have setback := primitive.setback_effect machine.toWorkspace
  generalize effect_eq : primitive.effect machine.toWorkspace = reaction at react_eq setback
  cases setback with
  | spared after body =>
      -- The effect ends, and only the frame for what it calls can still be refused.
      cases called_eq : primitive.called? machine.stack with
      | some called => exact halts_of_called entry_eq called_eq stopped
      | none =>
          obtain rfl := Primitive.effect_of_not_called called_eq effect_eq
          rw [execute_of_done react_eq] at stopped
          simp [Outcome.done] at stopped
  | checked cause _ =>
      rw [execute_of_stopped react_eq]
      exact .untouched
  | undivided dividend rest divides stack_eq =>
      rw [execute_of_stopped react_eq] at stopped ⊢
      obtain rfl := Except.error.inj stopped
      exact .lost (.divided divides stack_eq)
  | unlisted output =>
      rw [execute_of_stopped react_eq] at stopped ⊢
      obtain rfl := Except.error.inj stopped
      exact .printed output
  | unprinted value rest isPrint stack_eq undisplayable =>
      rw [execute_of_stopped react_eq] at stopped ⊢
      obtain rfl := Except.error.inj stopped
      subst isPrint
      exact .lost (.printed stack_eq undisplayable)
  | left =>
      rw [execute_of_stopped react_eq]
      exact .untouched

/--
A primitive that stops leaves the dictionary with its variables and the frames as they
were.  Of the stack it leaves something else exactly where operands are listed as lost,
and then it leaves what is below them.  A primitive that fails for the number or the kinds
of its operands, for a negative index or for a variable that is not defined leaves the
whole machine as it was.
-/
theorem primitive_stops_safely
    (entry_eq : machine.dictionary.entry? reference.id = some (.primitive primitive)) :
    (∀ stop, (machine.execute (.wordRef reference)).result = .error stop →
      (machine.execute (.wordRef reference)).state.dictionary = machine.dictionary ∧
        (machine.execute (.wordRef reference)).state.calls = machine.calls) ∧
    (∀ stop rest,
      (machine.execute (.wordRef reference)).result = .error stop ∧
          (machine.execute (.wordRef reference)).state.stack = rest ∧ rest ≠ machine.stack ↔
        machine.Loses primitive stop rest) ∧
    ∀ failure, (machine.execute (.wordRef reference)).result = .error (.failure failure) →
      failure.cause.kind ∈
        [.stackUnderflow, .typeMismatch, .invalidArgument, .undefinedVariable] →
      (machine.execute (.wordRef reference)).state = machine := by
  refine ⟨fun stop stopped => ?_, fun stop rest => ⟨?_, fun loses => ?_⟩,
    fun failure failed checked => ?_⟩
  · have halts := halts_of_execute entry_eq stopped
    generalize (machine.execute (.wordRef reference)).state = after at halts ⊢
    cases halts <;> exact ⟨rfl, rfl⟩
  · rintro ⟨stopped, left_eq, changed⟩
    have halts := halts_of_execute entry_eq stopped
    generalize (machine.execute (.wordRef reference)).state = after at halts left_eq
    cases halts with
    | untouched => exact absurd left_eq.symm changed
    | printed => exact absurd left_eq.symm changed
    | lost loses => exact left_eq ▸ loses
  · rw [loses.execute_eq entry_eq]
    exact ⟨rfl, rfl, loses.rest_ne⟩
  · have halts := halts_of_execute entry_eq failed
    generalize (machine.execute (.wordRef reference)).state = after at halts ⊢
    generalize stop_eq : Stop.failure failure = stop at halts
    cases halts with
    | untouched => rfl
    | printed => simp at stop_eq
    | lost loses => exact absurd checked (stop_eq ▸ loses).kind_notMem_checks

/--
A division by zero loses its operands and nothing below them, and a sum that meets a truth
value below a number fails with all as it was.
-/
theorem primitive_stops_safely_arithmetic :
    ∃ (machine : Machine) (divide add : WordRef),
      machine.dictionary.entry? divide.id = some (.primitive .divide) ∧
      machine.dictionary.entry? add.id = some (.primitive .add) ∧
      (machine.execute (.wordRef divide)).result =
        .error (.failure { cause := .zeroDivisor 7 }) ∧
      (machine.execute (.wordRef divide)).state.stack = [.bool true] ∧
      ({ machine with stack := [.int 7, .bool true] }.execute (.wordRef add)).result =
        .error (.failure { cause := .mismatch (.only .number) (.bool true) }) ∧
      ({ machine with stack := [.int 7, .bool true] }.execute (.wordRef add)).state =
        { machine with stack := [.int 7, .bool true] } := by
  let machine := { initial .standard with stack := [.int 0, .int 7, .bool true] }
  let short := { machine with stack := [.int 7, .bool true] }
  let divide : WordRef := ⟨Primitive.divide.id, "/", 0⟩
  let add : WordRef := ⟨Primitive.add.id, "+", 0⟩
  have lost : machine.Loses .divide (.ofCause (.zeroDivisor 7)) [.bool true] :=
    .divided (.inl rfl) rfl
  obtain ⟨stopped, left_eq, -⟩ :=
    ((@primitive_stops_safely machine .divide divide rfl).2.1 _ _).mpr lost
  have stop_eq : Stop.ofCause (.zeroDivisor 7) = .failure { cause := .zeroDivisor 7 } :=
    if_pos (by decide +kernel)
  have refused : (short.execute (.wordRef add)).result =
      .error (.failure { cause := .mismatch (.only .number) (.bool true) }) := rfl
  have kept := (@primitive_stops_safely short .add add rfl).2.2 _ refused (by decide)
  exact ⟨machine, divide, add, rfl, rfl, stop_eq ▸ stopped, left_eq, refused, kept⟩

end Primitives

end Machine
end Concatenative
