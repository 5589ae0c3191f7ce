import Concatenative.Machine.Effect

/-!
# What primitives can do

The effect of every primitive is one of a few: it refuses its operands and leaves all as
it was, it rearranges the stack, it reads or writes a variable, it prints, it hands the
content of a quotation over to be run, or it ends the session.  What runs preserve is
proved from this list, without looking at the primitives again.
-/

namespace Concatenative

namespace Operands

/-- Operands that are taken are the top of the stack, and all of them are checked. -/
theorem pop_eq_ok
    {specs : List Value.Spec}
    {uniform : Bool}
    {stack operands rest : List Value}
    (pop_eq : pop specs uniform stack = .ok (operands, rest)) :
    stack = operands ++ rest ∧ operands.length = specs.length ∧
      checkEach specs operands = .ok () := by
  unfold pop at pop_eq
  simp only at pop_eq
  split at pop_eq
  · simp at pop_eq
  · rename_i enough
    split at pop_eq
    · simp at pop_eq
    · rename_i checked
      split at pop_eq
      · simp at pop_eq
      · simp only [Except.ok.injEq, Prod.mk.injEq] at pop_eq
        obtain ⟨rfl, rfl⟩ := pop_eq
        refine ⟨(List.take_append_drop _ _).symm, ?_, checked⟩
        have atMost := List.length_take_le specs.length stack
        omega

/-- A failed check is about the kind of a value. -/
theorem kind_of_checkEach_eq_error
    {specs : List Value.Spec}
    {values : List Value}
    {cause : Error.Cause}
    (check_eq : checkEach specs values = .error cause) :
    cause.kind = .typeMismatch := by
  induction specs generalizing values with
  | nil => simp [checkEach] at check_eq
  | cons expected specs inductionHypothesis =>
      cases values with
      | nil => simp [checkEach] at check_eq
      | cons value values =>
          simp only [checkEach] at check_eq
          split at check_eq
          · exact inductionHypothesis check_eq
          · simp only [Except.error.injEq] at check_eq
            rw [← check_eq]
            rfl

/-- Operands are refused for their number or for their kinds. -/
theorem kind_of_pop_eq_error
    {specs : List Value.Spec}
    {uniform : Bool}
    {stack : List Value}
    {cause : Error.Cause}
    (pop_eq : pop specs uniform stack = .error cause) :
    cause.kind = .stackUnderflow ∨ cause.kind = .typeMismatch := by
  unfold pop at pop_eq
  simp only at pop_eq
  split at pop_eq
  · simp only [Except.error.injEq] at pop_eq
    rw [← pop_eq]
    exact .inl rfl
  · split at pop_eq
    · rename_i failed_eq
      simp only [Except.error.injEq] at pop_eq
      rw [← pop_eq]
      exact .inr (kind_of_checkEach_eq_error failed_eq)
    · split at pop_eq
      · simp only [Except.error.injEq] at pop_eq
        rw [← pop_eq]
        exact .inr rfl
      · simp at pop_eq

end Operands

namespace Primitive

/-! ## The list of consequences -/

/-- The kinds of the errors that leave the workspace as it was. -/
def refusals : List Error.Kind :=
  [.stackUnderflow, .typeMismatch, .invalidArgument]

/-- The values that primitives make themselves. -/
def IsMade (value : Value) : Prop :=
  (∃ truth, value = .bool truth) ∨ ∃ number, value = .int number

/--
The content that a primitive calls and the stack below its operands, for the two
primitives that call and the stacks on which they do.
-/
def called? : Primitive → List Value → Option (Body × List Value)
  | branch, .quotation otherwise :: .quotation consequence :: .bool condition :: rest =>
      some (if condition then consequence else otherwise, rest)
  | call, .quotation content :: rest => some (content, rest)
  | _, _ => none

/-- What the effect of a primitive on a workspace may be. -/
inductive Consequence (primitive : Primitive) (workspace : Workspace) : Reaction → Prop
  /-- The operands are refused. -/
  | refused (cause : Error.Cause) :
      cause.kind ∈ refusals →
      Consequence primitive workspace (.failed workspace cause)
  /-- The variable on top of the stack is not declared. -/
  | undeclared (name : String) :
      .variableRef name ∈ workspace.stack →
      workspace.dictionary.store.get? name = none →
      Consequence primitive workspace (.failed workspace (.undefinedVariable name))
  /-- The divisor, which is taken with the dividend, is zero. -/
  | undivided (dividend : Int) (rest : List Value) :
      rest ⊆ workspace.stack →
      Consequence primitive workspace
        (.failed { workspace with stack := rest } (.zeroDivisor dividend))
  /-- The stack holds values that it held before or that are made. -/
  | rearranged (stack : List Value) :
      (∀ value ∈ stack, value ∈ workspace.stack ∨ IsMade value) →
      Consequence primitive workspace { workspace with stack }.settled
  /-- The content of a variable takes the place of the reference to it. -/
  | fetched (name : String) (content : Value) (rest : List Value) :
      workspace.stack = .variableRef name :: rest →
      workspace.dictionary.store.get? name = some content →
      Consequence primitive workspace { workspace with stack := content :: rest }.settled
  /-- The value below a reference to a variable becomes the content of the variable. -/
  | stored (name : String) (content : Value) (rest : List Value) :
      primitive = .store →
      workspace.stack = .variableRef name :: content :: rest →
      workspace.dictionary.store.contains name = true →
      Consequence primitive workspace
        { workspace with
          stack := rest
          dictionary :=
            { workspace.dictionary with
              store := workspace.dictionary.store.set name content } }.settled
  /-- A quotation is taken and its content is run next. -/
  | called (content : Body) (rest : List Value) :
      primitive.called? workspace.stack = some (content, rest) →
      Consequence primitive workspace (.done { workspace with stack := rest } content)
  /-- Something is printed, up to the first numeral over the limit. -/
  | printed (rest : List Value) (output : String) (result : Except Stop Body) :
      rest ⊆ workspace.stack →
      result = .ok [] ∨ result = .error (.overlong .write) →
      Consequence primitive workspace ⟨{ workspace with stack := rest, output }, result⟩
  /-- The session ends. -/
  | left : primitive = .bye → Consequence primitive workspace (.stopped workspace .leave)

section Families

variable {primitive : Primitive} {workspace : Workspace}

/-- A primitive on operands either refuses them or goes on without them. -/
theorem consequence_withOperands
    {specs : List Value.Spec}
    {uniform : Bool}
    {next : Workspace → List Value → Reaction}
    (goesOn : ∀ operands rest,
      workspace.stack = operands ++ rest →
      Consequence primitive workspace (next { workspace with stack := rest } operands)) :
    Consequence primitive workspace (workspace.withOperands specs uniform next) := by
  unfold Workspace.withOperands
  split
  · rename_i cause pop_eq
    apply Consequence.refused
    rcases Operands.kind_of_pop_eq_error pop_eq with kind_eq | kind_eq <;>
      simp [refusals, kind_eq]
  · rename_i operands rest pop_eq
    exact goesOn operands rest (Operands.pop_eq_ok pop_eq).1

/-- Dropping operands rearranges the stack. -/
theorem consequence_dropped
    {operands rest : List Value}
    (stack_eq : workspace.stack = operands ++ rest) :
    Consequence primitive workspace { workspace with stack := rest }.settled :=
  .rearranged rest fun value present => .inl (by simp [stack_eq, present])

/-- Replacing operands by a value that is made rearranges the stack. -/
theorem consequence_replaced
    {operands rest : List Value}
    (stack_eq : workspace.stack = operands ++ rest)
    {value : Value}
    (made : IsMade value) :
    Consequence primitive workspace
      (Workspace.push { workspace with stack := rest } value).settled := by
  apply Consequence.rearranged (value :: rest)
  intro member present
  rcases List.mem_cons.mp present with equal | inRest
  · exact .inr (equal ▸ made)
  · exact .inl (by simp [stack_eq, inRest])

theorem consequence_ofIntegers
    {operation : (bottom top : Int) → Value}
    (made : ∀ bottom top, IsMade (operation bottom top)) :
    Consequence primitive workspace (ofIntegers workspace operation) := by
  unfold ofIntegers onIntegers
  apply consequence_withOperands
  intro operands rest stack_eq
  split
  · exact consequence_replaced stack_eq (made _ _)
  · exact consequence_dropped stack_eq

theorem consequence_ofDivision
    (part : Division → Int) :
    Consequence primitive workspace (ofDivision workspace part) := by
  unfold ofDivision onIntegers
  apply consequence_withOperands
  intro operands rest stack_eq
  split
  · rename_i top bottom
    simp only
    split
    · rename_i cause failed_eq
      unfold Division.ofIntegers at failed_eq
      split at failed_eq
      · simp only [Except.error.injEq] at failed_eq
        rw [← failed_eq]
        exact .undivided bottom rest fun value present => by simp [stack_eq, present]
      · simp at failed_eq
    · exact consequence_replaced stack_eq (.inr ⟨_, rfl⟩)
  · exact consequence_dropped stack_eq

theorem consequence_ofComparison
    (verdict : (same : Bool) → Bool) :
    Consequence primitive workspace (ofComparison workspace verdict) := by
  apply consequence_withOperands
  intro operands rest stack_eq
  split
  · exact consequence_replaced stack_eq (.inl ⟨_, rfl⟩)
  · exact consequence_dropped stack_eq

theorem consequence_ofTruths
    (operation : (bottom top : Bool) → Bool) :
    Consequence primitive workspace (ofTruths workspace operation) := by
  apply consequence_withOperands
  intro operands rest stack_eq
  split
  · exact consequence_replaced stack_eq (.inl ⟨_, rfl⟩)
  · exact consequence_dropped stack_eq

/-- A listing changes nothing but what is printed. -/
theorem printEach_eq
    {α : Type}
    (isWritable : α → Bool)
    (line : α → String)
    (items : List α)
    (workspace : Workspace) :
    ∃ output result,
      (result = .ok [] ∨ result = .error (.overlong .write)) ∧
        Workspace.printEach isWritable line items workspace =
          ⟨{ workspace with output }, result⟩ := by
  induction items generalizing workspace with
  | nil => exact ⟨workspace.output, .ok [], .inl rfl, rfl⟩
  | cons item items inductionHypothesis =>
      simp only [Workspace.printEach]
      split
      · exact inductionHypothesis (workspace.printLine (line item))
      · exact ⟨workspace.output, _, .inr rfl, rfl⟩

theorem consequence_printEach
    {α : Type}
    (isWritable : α → Bool)
    (line : α → String)
    (items : List α)
    (output : String)
    {rest : List Value}
    (kept : rest ⊆ workspace.stack) :
    Consequence primitive workspace
      (Workspace.printEach isWritable line items { workspace with stack := rest, output }) := by
  obtain ⟨output, result, ended, print_eq⟩ :=
    printEach_eq isWritable line items { workspace with stack := rest, output }
  rw [print_eq]
  exact .printed rest output result kept ended

end Families

section Single

variable {primitive : Primitive} (workspace : Workspace)

theorem consequence_pickValue : Consequence primitive workspace (pickValue workspace) := by
  unfold pickValue
  split
  · exact .refused _ (by simp [refusals, Error.Cause.kind])
  · rename_i index rest stack_eq
    split
    · rename_i value picked
      have present : value ∈ rest := List.mem_of_getElem? picked
      exact .rearranged _ fun member found => .inl (by grind)
    · exact .refused _ (by simp [refusals, Error.Cause.kind])
  · exact .refused _ (by simp [refusals, Error.Cause.kind])
  · exact .refused _ (by simp [refusals, Error.Cause.kind])

theorem consequence_storeVariable : Consequence store workspace (storeVariable workspace) := by
  unfold storeVariable
  split
  · rename_i name content rest stack_eq
    simp only
    split
    · rename_i declared
      exact .stored name content rest rfl stack_eq declared
    · rename_i undeclared
      refine .undeclared name (by simp [stack_eq]) ?_
      simpa [Table.contains] using undeclared
  · exact .refused _ (by simp [refusals, Error.Cause.kind])
  · exact .refused _ (by simp [refusals, Error.Cause.kind])

theorem consequence_fetchVariable : Consequence primitive workspace (fetchVariable workspace) := by
  unfold fetchVariable
  split
  · rename_i name rest stack_eq
    split
    · rename_i content get_eq
      exact .fetched name content rest stack_eq get_eq
    · rename_i get_eq
      exact .undeclared name (by simp [stack_eq]) get_eq
  · exact .refused _ (by simp [refusals, Error.Cause.kind])
  · exact .refused _ (by simp [refusals, Error.Cause.kind])

theorem consequence_callBranch : Consequence branch workspace (callBranch workspace) := by
  unfold callBranch
  apply consequence_withOperands
  intro operands rest stack_eq
  split
  · exact .called _ rest (by simp [called?, stack_eq])
  · exact consequence_dropped stack_eq

theorem consequence_callQuotation : Consequence call workspace (callQuotation workspace) := by
  unfold callQuotation
  apply consequence_withOperands
  intro operands rest stack_eq
  split
  · exact .called _ rest (by simp [called?, stack_eq])
  · exact consequence_dropped stack_eq

theorem consequence_printTop : Consequence primitive workspace (printTop workspace) := by
  unfold printTop
  apply consequence_withOperands
  intro operands rest stack_eq
  exact consequence_printEach _ _ _ _ fun value present => by simp [stack_eq, present]

end Single

/-- The effect of a primitive is one of those listed. -/
theorem consequence_effect
    (primitive : Primitive)
    (workspace : Workspace) :
    Consequence primitive workspace (primitive.effect workspace) := by
  unfold effect
  cases primitive with
  | printStack | printWords | printVariables =>
      exact consequence_printEach _ _ _ _ (List.Subset.refl workspace.stack)
  | print => exact consequence_printTop workspace
  | clear => exact .rearranged [] (by simp)
  | branch => exact consequence_callBranch workspace
  | call => exact consequence_callQuotation workspace
  | drop =>
      apply consequence_withOperands
      intro operands rest stack_eq
      exact consequence_dropped stack_eq
  | swap | twoSwap | rotate | rotateBack =>
      simp only [swapTop, swapPairs, rotateUp, rotateDown]
      split
      · exact .rearranged _ fun value present => .inl (by grind)
      · exact .refused _ (by simp [refusals, Error.Cause.kind])
  | pick => exact consequence_pickValue workspace
  | store => exact consequence_storeVariable workspace
  | fetch => exact consequence_fetchVariable workspace
  | add | subtract | multiply => exact consequence_ofIntegers fun _ _ => .inr ⟨_, rfl⟩
  | lowerThan | greaterThan | lowerOrEqual | greaterOrEqual =>
      exact consequence_ofIntegers fun _ _ => .inl ⟨_, rfl⟩
  | divide | modulo => exact consequence_ofDivision _
  | equals | notEquals => exact consequence_ofComparison _
  | not =>
      apply consequence_withOperands
      intro operands rest stack_eq
      split
      · exact consequence_replaced stack_eq (.inl ⟨_, rfl⟩)
      · exact consequence_dropped stack_eq
  | and | or | xor => exact consequence_ofTruths _
  | depth =>
      have stack_eq : workspace.stack = [] ++ workspace.stack := rfl
      exact consequence_replaced stack_eq (.inr ⟨_, rfl⟩)
  | bye => exact .left rfl

/-! ## The primitives that call -/

/-- The content that a primitive calls is that of a quotation on the stack. -/
theorem mem_stack_of_called
    {primitive : Primitive}
    {stack rest : List Value}
    {content : Body}
    (called_eq : primitive.called? stack = some (content, rest)) :
    .quotation content ∈ stack ∧ rest ⊆ stack := by
  unfold called? at called_eq
  split at called_eq
  · rename_i otherwise consequence condition below
    simp only [Option.some.injEq, Prod.mk.injEq] at called_eq
    obtain ⟨rfl, rfl⟩ := called_eq
    refine ⟨?_, fun value present => by simp [present]⟩
    cases condition <;> simp
  · simp only [Option.some.injEq, Prod.mk.injEq] at called_eq
    obtain ⟨rfl, rfl⟩ := called_eq
    exact ⟨by simp, fun value present => by simp [present]⟩
  · simp at called_eq

/-- Two primitives call. -/
theorem mem_callers_of_called
    {primitive : Primitive}
    {stack : List Value}
    {called : Body × List Value}
    (called_eq : primitive.called? stack = some called) :
    primitive ∈ [branch, call] := by
  unfold called? at called_eq
  split at called_eq
  · simp
  · simp
  · simp at called_eq

/-- A primitive that calls takes its operands and hands the content over. -/
theorem effect_of_called
    {primitive : Primitive}
    {workspace : Workspace}
    {content : Body}
    {rest : List Value}
    (called_eq : primitive.called? workspace.stack = some (content, rest)) :
    primitive.effect workspace = .done { workspace with stack := rest } content := by
  unfold called? at called_eq
  split at called_eq
  · rename_i otherwise consequence condition below stack_eq
    simp only [Option.some.injEq, Prod.mk.injEq] at called_eq
    obtain ⟨rfl, rfl⟩ := called_eq
    simp [effect, callBranch, Workspace.withOperands, stack_eq, Operands.pop,
      Operands.checkEach, Value.Spec.admits, Value.isOf, Value.kind]
  · rename_i stack_eq
    simp only [Option.some.injEq, Prod.mk.injEq] at called_eq
    obtain ⟨rfl, rfl⟩ := called_eq
    simp [effect, callQuotation, Workspace.withOperands, stack_eq, Operands.pop,
      Operands.checkEach, Value.Spec.admits, Value.isOf, Value.kind]
  · simp at called_eq

/-- A primitive that does not call leaves nothing to be run. -/
theorem effect_of_not_called
    {primitive : Primitive}
    {workspace after : Workspace}
    {body : Body}
    (called_eq : primitive.called? workspace.stack = none)
    (effect_eq : primitive.effect workspace = .done after body) :
    body = [] := by
  have consequence := consequence_effect primitive workspace
  rw [effect_eq] at consequence
  cases consequence with
  | rearranged | fetched | stored => rfl
  | called content rest found => simp [called_eq] at found
  | printed rest output result kept ended =>
      rcases ended with ended | ended
      · simpa using ended
      · simp at ended

end Primitive
end Concatenative
