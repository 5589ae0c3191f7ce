import Concatenative.Proofs.OperandSafety
import Concatenative.Proofs.Operands
import Concatenative.Proofs.Prelude

/-!
# Truncated division

A division is truncated if the quotient and the remainder give the dividend back, the
remainder is smaller than the divisor and has the sign of the dividend.  There is exactly
one for every divisor but zero, and it is the one that the primitives push the parts of, so
that programs find the dividend again from them.
-/

namespace Concatenative

namespace Division

variable {dividend divisor : Int} {division : Division}

/-- The quotient is rounded toward zero, and the remainder has the sign of the dividend. -/
structure IsTruncated (division : Division) (dividend divisor : Int) : Prop where
  recombined : dividend = divisor * division.quotient + division.remainder
  smaller : division.remainder.natAbs < divisor.natAbs
  signed : division.remainder = 0 ∨ division.remainder.sign = dividend.sign

/-- The parts of the truncated division of the library. -/
def truncated (dividend divisor : Int) : Division where
  quotient := dividend.tdiv divisor
  remainder := dividend.tmod divisor

/-- Restoring the sign of a quotient of magnitudes rounds it toward zero. -/
theorem signed_quotient_eq_tdiv (dividend divisor : Int) :
    (if decide (dividend < 0) = decide (divisor < 0) then
        ((dividend.natAbs / divisor.natAbs : Nat) : Int)
      else -((dividend.natAbs / divisor.natAbs : Nat) : Int)) = dividend.tdiv divisor := by
  have nonneg : ∀ number : Nat, ¬ Int.ofNat number < 0 :=
    fun number => Int.not_lt.mpr (Int.natCast_nonneg number)
  cases dividend <;> cases divisor <;>
    simp only [nonneg, Int.negSucc_lt_zero, decide_true, decide_false, if_true, if_false,
      Bool.false_eq_true, Bool.true_eq_false] <;> rfl

theorem ofIntegers_of_ne_zero
    (nonzero : divisor ≠ 0) :
    ofIntegers dividend divisor = .ok (truncated dividend divisor) := by
  rw [ofIntegers, if_neg nonzero, truncated, Int.tmod_def]
  simp only [signed_quotient_eq_tdiv]

theorem ofIntegers_zero (dividend : Int) :
    ofIntegers dividend 0 = .error (.zeroDivisor dividend) :=
  rfl

theorem isTruncated_truncated
    (nonzero : divisor ≠ 0) :
    (truncated dividend divisor).IsTruncated dividend divisor where
  recombined := (Int.mul_tdiv_add_tmod dividend divisor).symm
  smaller := by
    rw [truncated, Int.natAbs_tmod]
    exact Nat.mod_lt _ (Int.natAbs_pos.mpr nonzero)
  signed := by
    by_cases divides : divisor ∣ dividend
    · exact .inl (Int.tmod_eq_zero_of_dvd divides)
    · exact .inr (by rw [truncated, Int.sign_tmod, if_neg divides])

/-- No other division is truncated. -/
theorem IsTruncated.eq_truncated
    (isTruncated : division.IsTruncated dividend divisor) :
    division = truncated dividend divisor := by
  obtain ⟨quotient, remainder⟩ := division
  obtain ⟨recombined, smaller, signed⟩ := isTruncated
  dsimp only at recombined smaller signed
  have nonzero : divisor ≠ 0 := by
    rintro rfl
    exact Nat.not_lt_zero _ smaller
  have parts : dividend.tdiv divisor = quotient ∧ dividend.tmod divisor = remainder := by
    -- The remainder is on the side of zero on which the dividend is.
    rcases Int.le_total 0 dividend with nonneg | nonpos
    · have remainder_nonneg : 0 ≤ remainder := by
        rcases signed with rfl | sign_eq
        · exact Int.le_refl 0
        · rw [← Int.sign_nonneg_iff, sign_eq]
          exact Int.sign_nonneg_iff.mpr nonneg
      exact (Int.tdiv_tmod_unique nonneg nonzero).mpr ⟨by omega, remainder_nonneg, by omega⟩
    · have remainder_nonpos : remainder ≤ 0 := by
        rcases signed with rfl | sign_eq
        · exact Int.le_refl 0
        · rw [← Int.sign_nonpos_iff, sign_eq]
          exact Int.sign_nonpos_iff.mpr nonpos
      exact (Int.tdiv_tmod_unique' nonpos nonzero).mpr ⟨by omega, by omega, remainder_nonpos⟩
  rw [truncated, parts.1, parts.2]

theorem isTruncated_iff
    (nonzero : divisor ≠ 0) :
    division.IsTruncated dividend divisor ↔ division = truncated dividend divisor :=
  ⟨IsTruncated.eq_truncated, fun division_eq => division_eq ▸ isTruncated_truncated nonzero⟩

theorem ofIntegers_eq_error_iff
    {cause : Error.Cause} :
    ofIntegers dividend divisor = .error cause ↔ divisor = 0 ∧ cause = .zeroDivisor dividend := by
  by_cases zero : divisor = 0
  · subst zero
    simp [ofIntegers_zero, eq_comm]
  · simp [ofIntegers_of_ne_zero zero, zero]

end Division

/-! ## Primitives on integers -/

namespace Primitive

variable {workspace : Workspace} {bottom top : Int} {rest : List Value}

/-- Two integers on the stack give way to the value made of them. -/
theorem ofIntegers_of_stack_eq
    (stack_eq : workspace.stack = .int top :: .int bottom :: rest)
    (operation : (bottom top : Int) → Value) :
    ofIntegers workspace operation =
      .done { workspace with stack := operation bottom top :: rest } [] := by
  rw [ofIntegers, onIntegers_of_stack_eq stack_eq]
  rfl

/-- Two integers on the stack give way to a part of their division. -/
theorem ofDivision_of_stack_eq
    (stack_eq : workspace.stack = .int top :: .int bottom :: rest)
    (nonzero : top ≠ 0)
    (part : Division → Int) :
    ofDivision workspace part =
      .done { workspace with stack := .int (part (.truncated bottom top)) :: rest } [] := by
  rw [ofDivision, onIntegers_of_stack_eq stack_eq]
  simp only [Division.ofIntegers_of_ne_zero nonzero]
  rfl

/-- Only a division by zero fails as one. -/
theorem result_effect_eq_zeroDivisor_iff
    {primitive : Primitive}
    (divides : primitive = .divide ∨ primitive = .modulo)
    {failure : Error.Failure} :
    (primitive.effect workspace).result = .error (.failure failure) ∧
        failure.cause.kind = .divisionByZero ↔
      ∃ dividend rest, workspace.stack = .int 0 :: .int dividend :: rest ∧
        Numeral.isWritable dividend = true ∧ failure = { cause := .zeroDivisor dividend } := by
  constructor
  · rintro ⟨failed, kind_eq⟩
    have setback := primitive.setback_effect workspace
    generalize primitive.effect workspace = reaction at setback failed
    cases setback with
    | spared => nomatch failed
    | checked cause checked =>
        rw [← Stop.cause_of_ofCause_eq (Except.error.inj failed), kind_eq] at checked
        exact absurd checked (by decide)
    | undivided dividend rest _ stack_eq =>
        rcases Stop.ofCause_eq_iff.mp (Except.error.inj failed) with
          ⟨failure_eq, writable⟩ | ⟨overlong_eq, -⟩
        · exact ⟨dividend, rest, stack_eq, writable, Stop.failure.inj failure_eq⟩
        · nomatch overlong_eq
    | unlisted => nomatch failed
    | unprinted => nomatch failed
    | left => nomatch failed
  · rintro ⟨dividend, rest, stack_eq, writable, rfl⟩
    rw [effect_of_zeroDivisor divides stack_eq]
    refine ⟨congrArg Except.error ?_, rfl⟩
    exact Stop.ofCause_eq_iff.mpr (.inl ⟨rfl, writable⟩)

end Primitive

namespace Machine

variable {machine : Machine} {primitive : Primitive}

theorem execute_reference_of_done
    {stack : List Value}
    (effect_eq : primitive.effect machine.toWorkspace =
      .done { machine.toWorkspace with stack } []) :
    machine.execute (.wordRef primitive.reference) = .done { machine with stack } () := by
  rw [← Workspace.react_reference] at effect_eq
  exact execute_of_done effect_eq

/-- A primitive that calls nothing stops as its effect does. -/
theorem result_execute_reference_eq_error_iff
    (calls : primitive ∉ [.branch, .call])
    {stop : Stop} :
    (machine.execute (.wordRef primitive.reference)).result = .error stop ↔
      (primitive.effect machine.toWorkspace).result = .error stop := by
  rw [execute_of_isStraight (Primitive.isStraight_reference calls), Workspace.react_reference]
  rcases (primitive.effect machine.toWorkspace).done_or_stopped with
    ⟨after, body, effect_eq⟩ | ⟨after, other, effect_eq⟩
  · rw [effect_eq]
    exact ⟨nofun, nofun⟩
  · rw [effect_eq]
    exact ⟨fun same => congrArg Except.error (Except.error.inj same),
      fun same => congrArg Except.error (Except.error.inj same)⟩

/-! ## Programs that divide -/

/-- The quotient times the divisor, and the remainder added to it. -/
def recombination (dividend divisor : Int) : Body :=
  [.int dividend, .int divisor, .wordRef Primitive.divide.reference,
    .int divisor, .wordRef Primitive.multiply.reference,
    .int dividend, .int divisor, .wordRef Primitive.modulo.reference,
    .wordRef Primitive.add.reference]

theorem isStraight_of_mem_recombination
    {dividend divisor : Int}
    {value : Value}
    (present : value ∈ recombination dividend divisor) :
    value.IsStraight := by
  have calls : ∀ primitive : Primitive,
      primitive ∈ [.divide, .multiply, .modulo, .add] → primitive ∉ [.branch, .call] := by
    intro primitive
    cases primitive <;> simp
  simp only [recombination, List.mem_cons, List.not_mem_nil, or_false] at present
  rcases present with rfl | rfl | rfl | rfl | rfl | rfl | rfl | rfl | rfl
  all_goals first
    | exact Value.isStraight_int _
    | exact Primitive.isStraight_reference (calls _ (by simp))

end Machine

namespace Workspace

theorem reactEach_int
    (number : Int)
    (later : Body)
    (workspace : Workspace) :
    reactEach (.int number :: later) workspace =
      reactEach later { workspace with stack := .int number :: workspace.stack } :=
  rfl

theorem reactEach_reference
    {primitive : Primitive}
    {workspace after : Workspace}
    (effect_eq : primitive.effect workspace = .done after [])
    (later : Body) :
    reactEach (.wordRef primitive.reference :: later) workspace = reactEach later after := by
  rw [reactEach, react_reference, effect_eq, Outcome.andThen_done]

theorem reactEach_recombination
    {dividend divisor : Int}
    (nonzero : divisor ≠ 0)
    (workspace : Workspace) :
    reactEach (Machine.recombination dividend divisor) workspace =
      .done { workspace with stack := .int dividend :: workspace.stack } () := by
  let division := Division.truncated dividend divisor
  have divided : ∀ stack : List Value,
      Primitive.divide.effect
          { workspace with stack := .int divisor :: .int dividend :: stack } =
        .done { workspace with stack := .int division.quotient :: stack } [] :=
    fun _ => Primitive.ofDivision_of_stack_eq rfl nonzero Division.quotient
  have reduced : ∀ stack : List Value,
      Primitive.modulo.effect
          { workspace with stack := .int divisor :: .int dividend :: stack } =
        .done { workspace with stack := .int division.remainder :: stack } [] :=
    fun _ => Primitive.ofDivision_of_stack_eq rfl nonzero Division.remainder
  have multiplied : ∀ (left right : Int) (stack : List Value),
      Primitive.multiply.effect { workspace with stack := .int right :: .int left :: stack } =
        .done { workspace with stack := .int (left * right) :: stack } [] :=
    fun _ _ _ => Primitive.ofIntegers_of_stack_eq rfl _
  have added : ∀ (left right : Int) (stack : List Value),
      Primitive.add.effect { workspace with stack := .int right :: .int left :: stack } =
        .done { workspace with stack := .int (left + right) :: stack } [] :=
    fun _ _ _ => Primitive.ofIntegers_of_stack_eq rfl _
  have recombined : division.quotient * divisor + division.remainder = dividend := by
    rw [Int.mul_comm]
    exact (Division.isTruncated_truncated nonzero).recombined.symm
  rw [Machine.recombination, reactEach_int, reactEach_int, reactEach_reference (divided _),
    reactEach_int, reactEach_reference (multiplied _ _ _), reactEach_int, reactEach_int,
    reactEach_reference (reduced _), reactEach_reference (added _ _ _), recombined]
  rfl

end Workspace

namespace Machine

/--
For every divisor but zero there is exactly one truncated division, whatever the sizes and
the signs.  It is the one that is computed, `/` and `mod` put its quotient and its remainder
in the place of the operands and change nothing else, and a program finds the dividend again
from them.  A division fails for a zero divisor only, and so do the two words; the failure
tells the dividend, and where that is over the limit on numerals it is none.
-/
theorem division_truncates :
    (∀ dividend divisor : Int, divisor ≠ 0 → ∃ division : Division,
      Division.ofIntegers dividend divisor = .ok division ∧
      (∀ other : Division, other.IsTruncated dividend divisor ↔ other = division) ∧
      (∀ (machine : Machine) (rest : List Value),
        machine.stack = .int divisor :: .int dividend :: rest →
        machine.execute (.wordRef Primitive.divide.reference) =
            .done { machine with stack := .int division.quotient :: rest } () ∧
          machine.execute (.wordRef Primitive.modulo.reference) =
            .done { machine with stack := .int division.remainder :: rest } ()) ∧
      ∀ machine : Machine, machine.calls.depth < machine.limit.value →
        ∃ steps, ∀ fuel, steps ≤ fuel →
          machine.run fuel (recombination dividend divisor) =
            .done { machine with stack := .int dividend :: machine.stack } ()) ∧
    (∀ (dividend divisor : Int) (cause : Error.Cause),
      Division.ofIntegers dividend divisor = .error cause ↔
        divisor = 0 ∧ cause = .zeroDivisor dividend) ∧
    ∀ (primitive : Primitive) (machine : Machine) (failure : Error.Failure),
      primitive = .divide ∨ primitive = .modulo →
      ((machine.execute (.wordRef primitive.reference)).result = .error (.failure failure) ∧
          failure.cause.kind = .divisionByZero ↔
        ∃ dividend rest, machine.stack = .int 0 :: .int dividend :: rest ∧
          Numeral.isWritable dividend = true ∧ failure = { cause := .zeroDivisor dividend }) := by
  refine ⟨fun dividend divisor nonzero => ?_, fun dividend divisor cause => ?_,
    fun primitive machine failure divides => ?_⟩
  · refine ⟨.truncated dividend divisor, Division.ofIntegers_of_ne_zero nonzero,
      fun other => Division.isTruncated_iff nonzero, fun machine rest stack_eq => ?_,
      fun machine below => ?_⟩
    · exact ⟨execute_reference_of_done (Primitive.ofDivision_of_stack_eq stack_eq nonzero _),
        execute_reference_of_done (Primitive.ofDivision_of_stack_eq stack_eq nonzero _)⟩
    · obtain ⟨steps, run_eq⟩ :=
        exists_run_eq_of_isStraight below fun value => isStraight_of_mem_recombination
      refine ⟨steps, fun fuel enough => ?_⟩
      rw [run_eq fuel enough, Workspace.reactEach_recombination nonzero]
      rfl
  · exact Division.ofIntegers_eq_error_iff
  · have calls : primitive ∉ [.branch, .call] := by
      rcases divides with rfl | rfl <;> decide
    rw [result_execute_reference_eq_error_iff calls]
    exact Primitive.result_effect_eq_zeroDivisor_iff divides

/-- Minus seven is divided by two and then by zero, over a text and at the limit of one frame. -/
theorem division_truncates_negative :
    ∃ (machine : Machine) (steps : Nat),
      machine.stack = [.int 2, .int (-7), .text "below"] ∧
      (Division.mk (-3) (-1)).IsTruncated (-7) 2 ∧
      machine.execute (.wordRef Primitive.divide.reference) =
        .done { machine with stack := [.int (-3), .text "below"] } () ∧
      machine.execute (.wordRef Primitive.modulo.reference) =
        .done { machine with stack := [.int (-1), .text "below"] } () ∧
      machine.run steps (recombination (-7) 2) =
        .done { machine with stack := .int (-7) :: machine.stack } () ∧
      ({ machine with stack := [.int 0, .int (-7)] }.execute
          (.wordRef Primitive.modulo.reference)).result =
        .error (.failure { cause := .zeroDivisor (-7) }) := by
  let machine : Machine :=
    { initial ⟨1, by decide⟩ with stack := [.int 2, .int (-7), .text "below"] }
  obtain ⟨division, division_eq, truncated, parts, program⟩ :=
    division_truncates.1 (-7) 2 (by decide)
  obtain rfl : ⟨-3, -1⟩ = division := Except.ok.inj division_eq
  obtain ⟨quotient, remainder⟩ := parts machine _ rfl
  obtain ⟨steps, run_eq⟩ := program machine (by decide)
  have undivided := (division_truncates.2.2 .modulo
    { machine with stack := [.int 0, .int (-7)] } { cause := .zeroDivisor (-7) } (.inr rfl)).mpr
      ⟨-7, [], rfl, Numeral.isWritable_of_natAbs_lt (by decide), rfl⟩
  exact ⟨machine, steps, rfl, (truncated _).mpr rfl, quotient, remainder,
    run_eq steps (Nat.le_refl steps), undivided.1⟩

end Machine
end Concatenative
