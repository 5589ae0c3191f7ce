import Mathlib.Logic.Relation
import Concatenative.Proofs.Run

/-!
# Which operands are taken

Operands are taken off the stack when there are enough of them, each is as specified and,
where that is asked, all are of one kind.  What they may be is settled by the order of the
kinds, of which some are broader than others.  Of the reasons to refuse them the number
comes first, then the topmost operand that is not as specified, and last the mixture of
kinds, and so there is one reason at most.

Refused operands stay where they are, and so does all below them.  The reason is the
error, unless its explanation shows an integer over the limit on numerals.
-/

namespace Concatenative
namespace Value

/-! ## The order of kinds -/

/-- A kind is directly below a broader one. -/
inductive Kind.Extends : Kind → Kind → Prop
  | literal {kind : Kind} :
      kind ∈ [.boolean, .number, .string, .variableRef] → Extends kind .literal
  | any {kind : Kind} :
      kind ∈ [.literal, .uninitialized, .wordRef, .quotation] → Extends kind .any

/-- A value is of a kind if its own kind is, directly or through others, below that kind. -/
def IsA (value : Value) (kind : Kind) : Prop :=
  Relation.ReflTransGen Kind.Extends value.kind kind

/-- The values of a kind are of every broader kind. -/
theorem isOf_of_extends
    {value : Value}
    {kind broader : Kind}
    (isOf_eq : value.isOf kind = true)
    (below : kind.Extends broader) :
    value.isOf broader = true := by
  cases below with
  | literal member =>
      simp only [List.mem_cons, List.not_mem_nil, or_false] at member
      rcases member with rfl | rfl | rfl | rfl <;> simp_all [isOf, Kind.isLiteral]
  | any => rfl

theorem isA_any (value : Value) : value.IsA .any := by
  cases value with
  | nil | wordRef | quotation => exact .single (.any (by simp [kind]))
  | bool | int | text | variableRef =>
      exact .tail (.single (.literal (by simp [kind]))) (.any (by simp))

theorem isOf_iff_isA
    {value : Value}
    {expected : Kind} :
    value.isOf expected = true ↔ value.IsA expected := by
  constructor
  · intro isOf_eq
    cases expected with
    | any => exact isA_any value
    | literal =>
        refine .single (.literal ?_)
        cases value <;> simp_all [isOf, kind, Kind.isLiteral]
    | _ =>
        simp only [isOf, beq_iff_eq] at isOf_eq
        rw [IsA, isOf_eq]
  · intro isA
    induction isA with
    | refl => cases value <;> rfl
    | tail _ below inductionHypothesis => exact isOf_of_extends inductionHypothesis below

namespace Spec

/-- The kinds that a specification allows. -/
def kinds : Spec → List Kind
  | only kind => [kind]
  | anyOf kinds => kinds

/-- A value is of one of the kinds that a specification allows. -/
def Allows (spec : Spec) (value : Value) : Prop :=
  ∃ kind ∈ spec.kinds, value.IsA kind

theorem admits_iff_allows
    {spec : Spec}
    {value : Value} :
    spec.admits value = true ↔ spec.Allows value := by
  cases spec <;> simp [admits, Allows, kinds, isOf_iff_isA]

end Spec

/-! ## The integers that an explanation shows -/

/-- An integer is in the inspected form of a value. -/
inductive Shows (number : Int) : Value → Prop
  | itself : Shows number (.int number)
  | id {reference : WordRef} : reference.id = number → Shows number (.wordRef reference)
  | layer {reference : WordRef} : reference.layer = number → Shows number (.wordRef reference)
  | inside {value : Value} {content : List Value} :
      value ∈ content → Shows number value → Shows number (.quotation content)

mutual

theorem isInspectable_iff :
    (value : Value) →
      (value.isInspectable = true ↔
        ∀ number, value.Shows number → Numeral.isWritable number = true)
  | .int number => by
      refine ⟨fun writable shown shows => ?_, fun all => all number .itself⟩
      cases shows with
      | itself => exact writable
  | .wordRef reference => by
      rw [isInspectable, WordRef.isWritable, Bool.and_eq_true]
      refine ⟨fun writable number shows => ?_, fun all => ⟨all _ (.id rfl), all _ (.layer rfl)⟩⟩
      cases shows with
      | id id_eq => exact id_eq ▸ writable.1
      | layer layer_eq => exact layer_eq ▸ writable.2
  | .quotation content => by
      rw [isInspectable, allInspectable_iff content]
      refine ⟨fun writable number shows => ?_, fun all value present number shows =>
        all number (.inside present shows)⟩
      cases shows with
      | inside present deeper => exact writable _ present number deeper
  | .nil | .bool _ | .text _ | .variableRef _ => ⟨fun _ _ => nofun, fun _ => rfl⟩

theorem allInspectable_iff :
    (values : List Value) →
      (allInspectable values = true ↔
        ∀ value ∈ values, ∀ number, value.Shows number → Numeral.isWritable number = true)
  | [] => ⟨fun _ => nofun, fun _ => rfl⟩
  | value :: rest => by
      rw [allInspectable, Bool.and_eq_true, isInspectable_iff value, allInspectable_iff rest,
        List.forall_mem_cons]

end

end Value

namespace Error.Cause

/-- An integer is in the explanation of a cause. -/
inductive Shows (number : Int) : Cause → Prop
  | needed {needed held : Nat} :
      1 < needed → needed = number → Shows number (.underflow needed held)
  | held {needed held : Nat} :
      1 < needed → held = number → Shows number (.underflow needed held)
  | found {expected : Value.Spec} {found : Value} :
      found.Shows number → Shows number (.mismatch expected found)
  | operand {operands : List Value} {value : Value} :
      value ∈ operands → value.Shows number → Shows number (.mixedKinds operands)
  | index : Shows number (.negativeIndex number)
  | dividend : Shows number (.zeroDivisor number)
  | limit {limit : Nat} : limit = number → Shows number (.depthExceeded limit)

/--
The explanation of a cause is within the limit on numerals if all integers in it are, where
no more is held than is needed.
-/
theorem isWritable_iff
    {cause : Cause}
    (short : ∀ needed held, cause = .underflow needed held → held ≤ needed) :
    cause.isWritable = true ↔ ∀ number, cause.Shows number → Numeral.isWritable number = true := by
  cases cause with
  | underflow needed held =>
      have held_le : held ≤ needed := short needed held rfl
      rw [isWritable]
      refine ⟨fun writable number shows => ?_, fun all => ?_⟩
      · rw [Numeral.isWritable, decide_eq_true_eq, Int.natAbs_natCast] at writable
        rw [Numeral.isWritable, decide_eq_true_eq]
        cases shows <;> omega
      · rcases Nat.lt_or_ge 1 needed with many | few
        · exact all needed (.needed many rfl)
        · exact Numeral.isWritable_of_natAbs_lt (by omega)
  | mismatch expected found =>
      rw [isWritable, Value.isInspectable_iff]
      refine ⟨fun writable number shows => ?_, fun all number shown => all number (.found shown)⟩
      cases shows with
      | found shown => exact writable number shown
  | mixedKinds operands =>
      rw [isWritable, Value.allInspectable_iff]
      refine ⟨fun writable number shows => ?_, fun all value present number shown =>
        all number (.operand present shown)⟩
      cases shows with
      | operand present shown => exact writable _ present number shown
  | negativeIndex index =>
      refine ⟨fun writable number shows => ?_, fun all => all index .index⟩
      cases shows with
      | index => exact writable
  | zeroDivisor dividend =>
      refine ⟨fun writable number shows => ?_, fun all => all dividend .dividend⟩
      cases shows with
      | dividend => exact writable
  | depthExceeded limit =>
      refine ⟨fun writable number shows => ?_, fun all => all _ (.limit rfl)⟩
      cases shows with
      | limit limit_eq => exact limit_eq ▸ writable
  | _ => exact ⟨fun _ _ => nofun, fun _ => rfl⟩

end Error.Cause

namespace Stop

/-- An operation stops for a cause with the error, unless the explanation is over the limit. -/
theorem ofCause_eq_iff
    {cause : Error.Cause}
    {stop : Stop} :
    ofCause cause = stop ↔
      stop = .failure { cause } ∧ cause.isWritable = true ∨
        stop = .overlong .write ∧ cause.isWritable = false := by
  unfold ofCause
  split
  · rename_i writable
    simp [writable, eq_comm]
  · rename_i unwritable
    simp [unwritable, eq_comm]

end Stop

namespace Operands

open Error (Cause)

variable
  {specs : List Value.Spec}
  {expected : Value.Spec}
  {uniform : Bool}
  {stack values : List Value}
  {value : Value}

/-! ## Accepted and refused operands -/

/-- The values, from the first on, are as specified, as far as there are both. -/
def AreMet (specs : List Value.Spec) (values : List Value) : Prop :=
  ∀ (index : Nat) (expected : Value.Spec) (value : Value),
    specs[index]? = some expected → values[index]? = some value → expected.Allows value

/-- The value is the first that is not as specified. -/
def IsFirstUnmet
    (specs : List Value.Spec)
    (values : List Value)
    (expected : Value.Spec)
    (value : Value) : Prop :=
  ∃ index : Nat,
    specs[index]? = some expected ∧ values[index]? = some value ∧ ¬ expected.Allows value ∧
      AreMet (specs.take index) values

/-- All values are of the same most specific kind. -/
def AreAlike (values : List Value) : Prop :=
  ∃ kind, ∀ value ∈ values, value.kind = kind

/-- The operands on a stack are accepted. -/
structure Accepts (specs : List Value.Spec) (uniform : Bool) (stack : List Value) : Prop where
  enough : specs.length ≤ stack.length
  met : AreMet specs stack
  alike : uniform = true → AreAlike (stack.take specs.length)

/-- The operands on a stack are refused for a cause. -/
inductive Refuses (specs : List Value.Spec) (uniform : Bool) (stack : List Value) : Cause → Prop
  | few : stack.length < specs.length →
      Refuses specs uniform stack (.underflow specs.length stack.length)
  | unmet {expected : Value.Spec} {value : Value} :
      specs.length ≤ stack.length →
      IsFirstUnmet specs stack expected value →
      Refuses specs uniform stack (.mismatch expected value)
  | mixed :
      specs.length ≤ stack.length →
      AreMet specs stack →
      uniform = true →
      ¬ AreAlike (stack.take specs.length) →
      Refuses specs uniform stack (.mixedKinds (stack.take specs.length))

theorem areMet_nil (values : List Value) : AreMet [] values := by
  intro index expected value spec_eq
  nomatch spec_eq

theorem areMet_of_nil (specs : List Value.Spec) : AreMet specs [] := by
  intro index expected value spec_eq value_eq
  nomatch value_eq

theorem areMet_cons :
    AreMet (expected :: specs) (value :: values) ↔
      expected.Allows value ∧ AreMet specs values := by
  constructor
  · intro met
    exact ⟨met 0 expected value rfl rfl, fun index => met (index + 1)⟩
  · rintro ⟨allows, met⟩ index
    cases index with
    | zero =>
        intro spec found spec_eq value_eq
        obtain rfl := Option.some.inj spec_eq
        obtain rfl := Option.some.inj value_eq
        exact allows
    | succ index => exact met index

/-- The first value that is not as specified is the first of all, or the first of the others. -/
theorem isFirstUnmet_cons
    {spec : Value.Spec}
    {found : Value} :
    IsFirstUnmet (expected :: specs) (value :: values) spec found ↔
      (¬ expected.Allows value ∧ spec = expected ∧ found = value) ∨
        (expected.Allows value ∧ IsFirstUnmet specs values spec found) := by
  constructor
  · rintro ⟨index, spec_eq, value_eq, unmet, above⟩
    cases index with
    | zero =>
        obtain rfl := Option.some.inj spec_eq
        obtain rfl := Option.some.inj value_eq
        exact .inl ⟨unmet, rfl, rfl⟩
    | succ index =>
        obtain ⟨allows, later⟩ := areMet_cons.mp above
        exact .inr ⟨allows, index, spec_eq, value_eq, unmet, later⟩
  · rintro (⟨unmet, rfl, rfl⟩ | ⟨allows, index, spec_eq, value_eq, unmet, above⟩)
    · exact ⟨0, rfl, rfl, unmet, areMet_nil _⟩
    · exact ⟨index + 1, spec_eq, value_eq, unmet, areMet_cons.mpr ⟨allows, above⟩⟩

/-! ## The checks -/

theorem checkEach_eq_ok_iff : checkEach specs values = .ok () ↔ AreMet specs values := by
  induction specs generalizing values with
  | nil => exact ⟨fun _ => areMet_nil values, fun _ => rfl⟩
  | cons expected specs inductionHypothesis =>
      cases values with
      | nil => exact ⟨fun _ => areMet_of_nil _, fun _ => rfl⟩
      | cons value values =>
          rw [areMet_cons, ← inductionHypothesis, ← Value.Spec.admits_iff_allows, checkEach]
          split <;> simp_all

theorem checkEach_eq_error_iff
    {cause : Cause} :
    checkEach specs values = .error cause ↔
      ∃ expected value, IsFirstUnmet specs values expected value ∧
        cause = .mismatch expected value := by
  induction specs generalizing values with
  | nil =>
      refine ⟨nofun, ?_⟩
      rintro ⟨expected, value, ⟨index, spec_eq, -⟩, -⟩
      nomatch spec_eq
  | cons expected specs inductionHypothesis =>
      cases values with
      | nil =>
          refine ⟨nofun, ?_⟩
          rintro ⟨expected, value, ⟨index, -, value_eq, -⟩, -⟩
          nomatch value_eq
      | cons value values =>
          simp only [isFirstUnmet_cons, ← Value.Spec.admits_iff_allows, checkEach]
          split
          · rename_i admits_eq
            simp [inductionHypothesis, admits_eq]
          · rename_i refused
            refine ⟨fun error_eq => ⟨expected, value, .inl ⟨refused, rfl, rfl⟩, ?_⟩, ?_⟩
            · exact (Except.error.inj error_eq).symm
            · rintro ⟨spec, found, ⟨-, rfl, rfl⟩ | ⟨admits_eq, -⟩, rfl⟩
              · rfl
              · exact absurd admits_eq refused

/-- No value below the operands is checked. -/
theorem checkEach_take
    (specs : List Value.Spec)
    (values : List Value) :
    checkEach specs (values.take specs.length) = checkEach specs values := by
  induction specs generalizing values with
  | nil => rfl
  | cons expected specs inductionHypothesis =>
      cases values with
      | nil => rfl
      | cons value values =>
          rw [List.length_cons, List.take_succ_cons, checkEach, checkEach, inductionHypothesis]

theorem areUniform_iff : areUniform values = true ↔ AreAlike values := by
  cases values with
  | nil => exact ⟨fun _ => ⟨.any, nofun⟩, fun _ => rfl⟩
  | cons first rest =>
      simp only [areUniform, List.all_eq_true, beq_iff_eq]
      refine ⟨fun same => ⟨first.kind, List.forall_mem_cons.mpr ⟨rfl, same⟩⟩, ?_⟩
      rintro ⟨kind, alike⟩ value present
      rw [alike value (.tail _ present), alike first List.mem_cons_self]

/-! ## Taking operands -/

theorem pop_of_accepts
    (accepts : Accepts specs uniform stack) :
    pop specs uniform stack = .ok (stack.take specs.length, stack.drop specs.length) := by
  obtain ⟨enough, met, alike⟩ := accepts
  have length_eq : (stack.take specs.length).length = specs.length :=
    List.length_take_of_le enough
  have uniform_eq : (uniform && !areUniform (stack.take specs.length)) = false := by
    cases uniform with
    | false => rfl
    | true => rw [areUniform_iff.mpr (alike rfl)]; rfl
  simp [pop, length_eq, checkEach_take, checkEach_eq_ok_iff.mpr met, uniform_eq]

theorem pop_of_refuses
    {cause : Cause}
    (refuses : Refuses specs uniform stack cause) :
    pop specs uniform stack = .error cause := by
  cases refuses with
  | few few =>
      have short : (stack.take specs.length).length < specs.length := by
        rw [List.length_take]
        omega
      rw [pop, if_pos short]
  | unmet enough first =>
      have length_eq := List.length_take_of_le enough
      simp [pop, length_eq, checkEach_take, checkEach_eq_error_iff.mpr ⟨_, _, first, rfl⟩]
  | mixed enough met uniform_eq unlike =>
      have length_eq := List.length_take_of_le enough
      have mixed : areUniform (stack.take specs.length) = false := by
        rw [← Bool.not_eq_true, areUniform_iff]
        exact unlike
      simp [pop, length_eq, checkEach_take, checkEach_eq_ok_iff.mpr met, uniform_eq, mixed]

/-- Operands are accepted or refused. -/
theorem accepts_or_refuses
    (specs : List Value.Spec)
    (uniform : Bool)
    (stack : List Value) :
    Accepts specs uniform stack ∨ ∃ cause, Refuses specs uniform stack cause := by
  rcases Nat.lt_or_ge stack.length specs.length with few | enough
  · exact .inr ⟨_, .few few⟩
  · cases check_eq : checkEach specs stack with
    | error cause =>
        obtain ⟨expected, value, first, rfl⟩ := checkEach_eq_error_iff.mp check_eq
        exact .inr ⟨_, .unmet enough first⟩
    | ok =>
        have met := checkEach_eq_ok_iff.mp check_eq
        by_cases alike : uniform = true → AreAlike (stack.take specs.length)
        · exact .inl ⟨enough, met, alike⟩
        · obtain ⟨uniform_eq, unlike⟩ := Classical.not_imp.mp alike
          exact .inr ⟨_, .mixed enough met uniform_eq unlike⟩

theorem pop_eq_ok_iff
    {operands rest : List Value} :
    pop specs uniform stack = .ok (operands, rest) ↔
      Accepts specs uniform stack ∧ operands = stack.take specs.length ∧
        rest = stack.drop specs.length := by
  constructor
  · intro pop_eq
    rcases accepts_or_refuses specs uniform stack with accepts | ⟨cause, refuses⟩
    · rw [pop_of_accepts accepts] at pop_eq
      obtain ⟨operands_eq, rest_eq⟩ := Prod.mk.inj (Except.ok.inj pop_eq)
      exact ⟨accepts, operands_eq.symm, rest_eq.symm⟩
    · rw [pop_of_refuses refuses] at pop_eq
      nomatch pop_eq
  · rintro ⟨accepts, rfl, rfl⟩
    exact pop_of_accepts accepts

theorem pop_eq_error_iff
    {cause : Cause} :
    pop specs uniform stack = .error cause ↔ Refuses specs uniform stack cause := by
  refine ⟨fun pop_eq => ?_, pop_of_refuses⟩
  rcases accepts_or_refuses specs uniform stack with accepts | ⟨other, refuses⟩
  · rw [pop_of_accepts accepts] at pop_eq
    nomatch pop_eq
  · rw [pop_of_refuses refuses] at pop_eq
    exact Except.error.inj pop_eq ▸ refuses

/-- The explanation of a refusal is within the limit on numerals if all integers in it are. -/
theorem Refuses.isWritable_iff
    {cause : Cause}
    (refuses : Refuses specs uniform stack cause) :
    cause.isWritable = true ↔ ∀ number, cause.Shows number → Numeral.isWritable number = true := by
  apply Error.Cause.isWritable_iff
  rintro needed held rfl
  cases refuses with
  | few few => exact Nat.le_of_lt few

/-- Only the number of the operands is refused before they are checked. -/
theorem Refuses.kind_eq
    {cause : Cause}
    (refuses : Refuses specs uniform stack cause) :
    cause.kind = if stack.length < specs.length then .stackUnderflow else .typeMismatch := by
  cases refuses with
  | few few => rw [if_pos few]; rfl
  | unmet enough => rw [if_neg (Nat.not_lt.mpr enough)]; rfl
  | mixed enough => rw [if_neg (Nat.not_lt.mpr enough)]; rfl

end Operands

namespace Workspace

open Operands (Accepts Refuses)

variable
  {workspace after : Workspace}
  {specs : List Value.Spec}
  {uniform : Bool}
  {taken : List Value}

/-- What is done with operands comes after they are taken. -/
theorem withOperands_eq_andThen
    (next : Workspace → List Value → Reaction) :
    workspace.withOperands specs uniform next =
      (workspace.withOperands specs uniform .done).andThen next := by
  unfold withOperands
  split <;> rfl

theorem withOperands_eq_done_iff :
    workspace.withOperands specs uniform .done = .done after taken ↔
      Accepts specs uniform workspace.stack ∧ taken = workspace.stack.take specs.length ∧
        after = { workspace with stack := workspace.stack.drop specs.length } := by
  unfold withOperands
  split
  · rename_i cause pop_eq
    have refused : ¬ Accepts specs uniform workspace.stack := by
      intro accepts
      rw [Operands.pop_of_accepts accepts] at pop_eq
      simp at pop_eq
    simp [refused]
  · rename_i operands rest pop_eq
    obtain ⟨accepts, rfl, rfl⟩ := Operands.pop_eq_ok_iff.mp pop_eq
    rw [Outcome.done_inj, and_iff_right accepts]
    constructor
    · rintro ⟨rfl, rfl⟩
      exact ⟨rfl, rfl⟩
    · rintro ⟨rfl, rfl⟩
      exact ⟨rfl, rfl⟩

theorem withOperands_eq_stopped_iff
    {stop : Stop} :
    workspace.withOperands specs uniform .done = .stopped after stop ↔
      after = workspace ∧ ∃ cause, Refuses specs uniform workspace.stack cause ∧
        Stop.ofCause cause = stop := by
  unfold withOperands
  split
  · rename_i cause pop_eq
    simp [← Operands.pop_eq_error_iff, pop_eq, Outcome.failed, eq_comm]
  · rename_i operands rest pop_eq
    simp [← Operands.pop_eq_error_iff, pop_eq]

/-- Values that are pushed one after the other come to lie on the stack in reverse. -/
theorem foldl_push
    (values : List Value)
    (workspace : Workspace) :
    values.foldl push workspace =
      { workspace with stack := values.reverse ++ workspace.stack } := by
  induction values generalizing workspace with
  | nil => rfl
  | cons value values inductionHypothesis =>
      rw [List.foldl_cons, inductionHypothesis, List.reverse_cons, List.append_assoc]
      rfl

/--
Operands are taken exactly if there are enough, each is as specified and, where that is
asked, all are of one kind; they are the top of the stack, which is left without them, and
pushing them again gives the stack back.  Otherwise the workspace stays as it was, and there
is one cause: the number of the operands if there are too few, whatever they are, then the
topmost that is not as specified, and then the mixture of kinds.  It is the error, unless
its explanation shows an integer over the limit on numerals.  A primitive goes on from there
with the operands, or not at all.
-/
theorem withOperands_takes_or_refuses
    (workspace : Workspace)
    (first : Value.Spec)
    (others : List Value.Spec)
    (uniform : Bool) :
    let specs := first :: others
    let outcome := workspace.withOperands specs uniform .done
    (∀ after taken, outcome = .done after taken ↔
      Accepts specs uniform workspace.stack ∧ taken = workspace.stack.take specs.length ∧
        after = { workspace with stack := workspace.stack.drop specs.length }) ∧
    (∀ after taken, outcome = .done after taken →
      taken.length = specs.length ∧ taken.reverse.foldl push after = workspace) ∧
    (∀ after stop, outcome = .stopped after stop ↔
      after = workspace ∧ ∃ cause, Refuses specs uniform workspace.stack cause ∧
        (stop = .failure { cause } ∧
            (∀ number, cause.Shows number → Numeral.isWritable number = true) ∨
          stop = .overlong .write ∧
            ∃ number, cause.Shows number ∧ Numeral.isWritable number = false)) ∧
    (∀ cause, Refuses specs uniform workspace.stack cause →
      cause.kind =
        if workspace.stack.length < specs.length then .stackUnderflow else .typeMismatch) ∧
    ∀ next, workspace.withOperands specs uniform next = outcome.andThen next := by
  intro specs outcome
  refine ⟨fun after taken => withOperands_eq_done_iff, fun after taken done_eq => ?_,
    fun after stop => ?_, fun cause refuses => refuses.kind_eq, withOperands_eq_andThen⟩
  · obtain ⟨accepts, rfl, rfl⟩ := withOperands_eq_done_iff.mp done_eq
    refine ⟨List.length_take_of_le accepts.enough, ?_⟩
    rw [foldl_push, List.reverse_reverse, List.take_append_drop]
  · rw [withOperands_eq_stopped_iff]
    refine and_congr_right fun _ => exists_congr fun cause => and_congr_right fun refuses => ?_
    have exceeding : cause.isWritable = false ↔
        ∃ number, cause.Shows number ∧ Numeral.isWritable number = false := by
      rw [← Bool.not_eq_true, refuses.isWritable_iff]
      simp
    rw [Stop.ofCause_eq_iff, exceeding, refuses.isWritable_iff]

/-- An integer over a text is refused by a comparison, and taken where kinds may differ. -/
theorem withOperands_takes_or_refuses_mixture :
    ∃ workspace : Workspace,
      workspace.stack = [.int 1, .text "a", .nil] ∧
      workspace.withOperands [.anyOf [.number, .string], .only .literal] true .done =
        .stopped workspace (.failure { cause := .mixedKinds [.int 1, .text "a"] }) ∧
      workspace.withOperands [.anyOf [.number, .string], .only .literal] false .done =
        .done { workspace with stack := [.nil] } [.int 1, .text "a"] := by
  let workspace : Workspace := ⟨[.int 1, .text "a", .nil], .initial, ""⟩
  let specs : List Value.Spec := [.anyOf [.number, .string], .only .literal]
  have met : Operands.AreMet specs workspace.stack := Operands.checkEach_eq_ok_iff.mp rfl
  have unlike : ¬ Operands.AreAlike [.int 1, .text "a"] :=
    fun alike => absurd (Operands.areUniform_iff.mpr alike) (by decide)
  have refuses : Refuses specs true workspace.stack (.mixedKinds [.int 1, .text "a"]) :=
    .mixed (by decide) met rfl unlike
  have accepts : Accepts specs false workspace.stack := ⟨by decide, met, nofun⟩
  have writable := refuses.isWritable_iff.mp (by decide +kernel)
  obtain ⟨-, -, stopped_iff, -⟩ := withOperands_takes_or_refuses workspace _ [.only .literal] true
  obtain ⟨done_iff, -⟩ := withOperands_takes_or_refuses workspace _ [.only .literal] false
  exact ⟨workspace, rfl, (stopped_iff _ _).mpr ⟨rfl, _, refuses, .inl ⟨rfl, writable⟩⟩,
    (done_iff _ _).mpr ⟨accepts, rfl, rfl⟩⟩

/-- Neither value is as specified and they are of two kinds; the error is about the top. -/
example :
    Operands.pop [.only .number, .anyOf [.boolean, .literal]] true [.text "a", .nil, .int 1] =
      .error (.mismatch (.only .number) (.text "a")) :=
  rfl

end Workspace
end Concatenative
