import Concatenative.Proofs.Operation
import Concatenative.Proofs.Passage
import Concatenative.Proofs.Values

/-!
# How forms stop

A form of a program stops because its tokens cannot be compiled or because a value that it
runs stops.  The error that stops it names no source when it arises, and is never about a
source that cannot be opened: only an include has to do with other sources.  A form that is
cut short runs a value that is.
-/

namespace Concatenative

/-! ## How runs stop -/

/-- Whether the operands are refused shows only when a program runs. -/
theorem Error.Cause.isDynamic_of_refused
    {cause : Error.Cause}
    (refused : cause.kind ∈ Primitive.refusals) :
    cause.isDynamic = true := by
  cases cause <;> first | rfl | simp [Primitive.refusals, Error.Cause.kind] at refused

/-- Executing a value stops for an error of running, for a long numeral or at the end. -/
theorem Workspace.arises_of_react
    {workspace : Workspace}
    {value : Value}
    {stop : Stop}
    (react_eq : (workspace.react value).result = .error stop) :
    stop.Arises Error.Cause.isDynamic := by
  by_cases referred : ∃ reference, value = .wordRef reference
  · obtain ⟨reference, rfl⟩ := referred
    cases entry_eq : workspace.dictionary.entry? reference.id with
    | none =>
        rw [react_of_unknown entry_eq] at react_eq
        exact Except.error.inj react_eq ▸ .cause rfl
    | some entry =>
        cases entry with
        | primitive primitive =>
            rw [react_of_primitive entry_eq] at react_eq
            have consequence := primitive.consequence_effect workspace
            generalize primitive.effect workspace = reaction at consequence react_eq
            cases consequence with
            | refused cause refused =>
                exact Except.error.inj react_eq ▸ .cause (Error.Cause.isDynamic_of_refused refused)
            | undeclared | undivided =>
                obtain rfl := Except.error.inj react_eq
                exact .cause rfl
            | rearranged | fetched | stored | called => cases react_eq
            | printed rest output result kept ended =>
                rcases ended with rfl | rfl
                · cases react_eq
                · exact Except.error.inj react_eq ▸ .overlong _
            | left => exact Except.error.inj react_eq ▸ .leave
        | compiled id word =>
            cases body_eq : word.body? reference.layer with
            | none =>
                rw [react_of_pending entry_eq body_eq] at react_eq
                exact Except.error.inj react_eq ▸ .cause rfl
            | some body =>
                rw [react_of_body entry_eq body_eq] at react_eq
                cases react_eq
  · rw [react_of_datum fun reference value_eq => referred ⟨reference, value_eq⟩] at react_eq
    cases react_eq

namespace Machine

variable {machine : Machine} {stop : Stop}

theorem arises_of_step (step_eq : machine.step.result = .error stop) :
    stop.Arises Error.Cause.isDynamic := by
  rcases machine.step_cases with ⟨-, done_eq⟩ | ⟨value, calls, -, execute_eq⟩
  · rw [done_eq] at step_eq
    cases step_eq
  · rw [execute_eq] at step_eq
    rcases stop_of_execute step_eq with react_eq | stop_eq
    · exact Workspace.arises_of_react react_eq
    · rw [stop_eq]
      exact .cause rfl

/-- A run that is not cut short stops for an error of running, in no source yet. -/
theorem arises_of_run
    {fuel : Nat}
    {body : Body}
    (run_eq : (machine.run fuel body).result = .error stop)
    (ended : stop ≠ .exhausted) :
    stop.Arises Error.Cause.isDynamic := by
  rw [Machine.run_eq] at run_eq
  cases body with
  | nil =>
      rw [enter_nil, Outcome.andThen_done, runAbove_of_depth_le (Nat.le_refl _)] at run_eq
      cases run_eq
  | cons first later =>
      rcases Nat.lt_or_ge machine.calls.depth machine.limit.value with below | reached
      · rw [enter_of_depth_lt below] at run_eq
        obtain ⟨visited, -, -, step_eq⟩ := exists_passesAbove_of_runAbove run_eq ended
        exact arises_of_step step_eq
      · rw [enter_of_limit_le reached] at run_eq
        exact Except.error.inj run_eq ▸ .cause rfl

end Machine

/-! ## How forms stop by themselves -/

namespace Session

section Forms

variable
  {session : Session}
  {fuel : Nat}
  {token : Token}
  {rest : List Token}

/-- Carries no inclusion out. -/
def includeNothing : Inclusion := fun _ session => .done session ()

/-- A form is an include, or does not depend on how includes are carried out. -/
theorem loadForm_include_or_not (token : Token) (rest : List Token) :
    (∃ keyword argument,
      token = .directive keyword ∧
        checkDirective keyword rest.head? = .ok (.includeFile, argument) ∧
        ∀ (session : Session) fuel inclusion,
          session.loadForm fuel inclusion token rest =
            (inclusion argument (session.note (.directive keyword argument))).andThen
              fun session _ => .done session rest.tail) ∨
      ∀ (session : Session) fuel inclusion,
        session.loadForm fuel inclusion token rest =
          session.loadForm fuel includeNothing token rest := by
  cases token with
  | directive keyword =>
      simp only [loadForm]
      cases check_eq : checkDirective keyword rest.head? with
      | error cause => exact .inr fun _ _ _ => rfl
      | ok checked =>
          obtain ⟨directive, argument⟩ := checked
          cases directive with
          | includeFile => exact .inl ⟨keyword, argument, rfl, check_eq, fun _ _ _ => rfl⟩
          | declareVariable | deferWord => exact .inr fun _ _ _ => rfl
  | header _ | terminator | word _ | literal _ | openQuotation | closeQuotation =>
      exact .inr fun _ _ _ => rfl

theorem arises_of_changeDictionary
    (change : Dictionary.Change)
    {stop : Stop}
    (change_eq : (session.changeDictionary (change.apply session.dictionary)).result =
      .error stop) :
    stop.Arises Error.Cause.isCompiling := by
  cases apply_eq : change.apply session.dictionary with
  | error cause =>
      rw [apply_eq] at change_eq
      obtain rfl := Except.error.inj change_eq
      exact .cause (Dictionary.Change.isCompiling_of_apply apply_eq)
  | ok dictionary =>
      rw [apply_eq] at change_eq
      cases change_eq

theorem arises_of_define
    {name : String}
    {body : Body}
    {stop : Stop}
    (define_eq : (session.define name body).result = .error stop) :
    stop.Arises Error.Cause.isCompiling := by
  unfold define at define_eq
  rcases (session.changeDictionary (session.dictionary.define name body)).done_or_stopped with
    ⟨after, result, change_eq⟩ | ⟨after, inner, change_eq⟩
  · rw [change_eq, Outcome.andThen_done] at define_eq
    split at define_eq <;> cases define_eq
  · rw [change_eq] at define_eq
    obtain rfl := Except.error.inj define_eq
    exact arises_of_changeDictionary (.define name body) (congrArg Outcome.result change_eq)

theorem arises_of_applyDirective
    {directive : Directive}
    {argument : String}
    {stop : Stop}
    (apply_eq : (session.applyDirective includeNothing directive argument).result =
      .error stop) :
    stop.Arises Error.Cause.isCompiling := by
  unfold applyDirective at apply_eq
  split at apply_eq
  · cases apply_eq
  · split at apply_eq
    · obtain rfl := Except.error.inj apply_eq
      exact Reader.arises_of_checkName ‹_›
    · exact arises_of_changeDictionary (.declareVariable argument) apply_eq
  · split at apply_eq
    · obtain rfl := Except.error.inj apply_eq
      exact Reader.arises_of_checkName ‹_›
    · exact arises_of_changeDictionary (.defer argument) apply_eq

/--
A form by itself stops for an error of compiling or of running, in no source yet, unless it
runs a value that is cut short.
-/
theorem arises_of_loadForm
    {stop : Stop}
    (load_eq : (session.loadForm fuel includeNothing token rest).result = .error stop) :
    stop.Arises (fun cause => !cause.isOpening) ∨
      stop = .exhausted ∧
        ∃ value remaining,
          Reader.readValue session.dictionary token rest = .ok (value, remaining) ∧
            ¬ (session.machine.dispatch fuel value).Ended := by
  have compiled : ∀ {stop : Stop}, stop.Arises Error.Cause.isCompiling →
      stop.Arises fun cause => !cause.isOpening := fun arises =>
    arises.imp fun cause compiling => by
      simp only [Error.Cause.isCompiling, Bool.and_eq_true] at compiling
      exact compiling.2
  -- What a form does ends with the tokens that follow it, which no stop comes from.
  have handed : ∀ {outcome : Outcome Session Unit} {later : List Token},
      (outcome.andThen fun session _ => .done session later).result = .error stop →
        outcome.result = .error stop := by
    intro outcome later result_eq
    rcases outcome.done_or_stopped with ⟨after, result, rfl⟩ | ⟨after, inner, rfl⟩
    · cases result_eq
    · exact congrArg Except.error (Except.error.inj result_eq)
  unfold loadForm at load_eq
  split at load_eq
  · split at load_eq
    · rename_i read_eq
      obtain rfl := Except.error.inj load_eq
      exact .inl (compiled (Reader.arises_of_readDefinition read_eq))
    · exact .inl (compiled (arises_of_define (handed load_eq)))
  · split at load_eq
    · rename_i check_eq
      obtain rfl := Except.error.inj load_eq
      exact .inl (compiled (.cause (isCompiling_of_checkDirective check_eq)))
    · exact .inl (compiled (arises_of_applyDirective (handed load_eq)))
  · split at load_eq
    · rename_i read_eq
      obtain rfl := Except.error.inj load_eq
      exact .inl (compiled (Reader.arises_of_readValue read_eq))
    · rename_i value remaining read_eq
      have run_eq : (session.machine.dispatch fuel value).result = .error stop := handed load_eq
      by_cases cut : stop = .exhausted
      · exact .inr ⟨cut, value, remaining, read_eq, fun ended => ended (cut ▸ run_eq)⟩
      · refine .inl ((Machine.arises_of_run run_eq cut).imp fun cause dynamic => ?_)
        simp [Error.Cause.isOpening_of_isDynamic dynamic]

end Forms

end Session
end Concatenative
