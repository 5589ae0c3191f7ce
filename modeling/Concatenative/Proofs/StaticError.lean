import Concatenative.Session.Loader

/-!
# Errors of reading and errors of running

An error arises either while a program is read, from its text, its names or its files, or
while it runs.  Everything that loads a program fails with errors of the first sort,
except where it runs a value.  Of these, some are about a source that cannot be opened or
split into tokens, and the others about tokens that cannot be compiled, which name no
source when they arise.
-/

namespace Concatenative

namespace Error.Cause

/-- Whether a cause arises while a program runs. -/
def isDynamic : Cause → Bool
  | unknownWord _ | underflow _ _ | mismatch _ _ | mixedKinds _ | undefinedVariable _
  | neverDefined _ | negativeIndex _ | zeroDivisor _ | depthExceeded _ => true
  | _ => false

/-- Whether a cause is about a source that cannot be opened or split into tokens. -/
def isOpening : Cause → Bool
  | missingName | strayMarker | unclosedString | unreadable _ _ | undecodable _ => true
  | _ => false

/-- Whether a cause is about tokens that cannot be compiled. -/
def isCompiling (cause : Cause) : Bool :=
  !cause.isDynamic && !cause.isOpening

theorem isDynamic_of_isCompiling
    {cause : Cause}
    (compiling : cause.isCompiling = true) :
    cause.isDynamic = false := by
  simp only [isCompiling, Bool.and_eq_true, Bool.not_eq_true'] at compiling
  exact compiling.1

theorem isDynamic_of_isOpening
    {cause : Cause}
    (opening : cause.isOpening = true) :
    cause.isDynamic = false := by
  cases cause <;> first | rfl | nomatch opening

theorem isOpening_of_isDynamic
    {cause : Cause}
    (dynamic : cause.isDynamic = true) :
    cause.isOpening = false := by
  cases opening : cause.isOpening with
  | false => rfl
  | true => simp [isDynamic_of_isOpening opening] at dynamic

end Error.Cause

namespace Stop

/-- If the stop is an error, it is one of reading. -/
def IsStatic (stop : Stop) : Prop :=
  ∀ failure, stop = .failure failure → failure.cause.isDynamic = false

/-- A stop as it arises, for one of the given causes and in no source yet. -/
inductive Arises (causes : Error.Cause → Bool) : Stop → Prop
  | cause {cause : Error.Cause} : causes cause = true → Arises causes (.ofCause cause)
  | overlong (excess : Numeral.Overlong) : Arises causes (.overlong excess)
  | leave : Arises causes .leave

section Arises

variable {causes : Error.Cause → Bool} {stop : Stop}

theorem Arises.imp
    (arises : stop.Arises causes)
    {others : Error.Cause → Bool}
    (among : ∀ cause, causes cause = true → others cause = true) :
    stop.Arises others := by
  cases arises with
  | cause caused => exact .cause (among _ caused)
  | overlong excess => exact .overlong excess
  | leave => exact .leave

/-- An error as it arises has one of the given causes and no source. -/
theorem Arises.failure
    (arises : stop.Arises causes)
    {failure : Error.Failure}
    (stop_eq : stop = .failure failure) :
    causes failure.cause = true ∧ failure.source = none := by
  cases arises with
  | cause caused =>
      unfold ofCause at stop_eq
      split at stop_eq
      · rw [← Stop.failure.inj stop_eq]
        exact ⟨caused, rfl⟩
      · nomatch stop_eq
  | overlong | leave => nomatch stop_eq

theorem Arises.ne_exhausted (arises : stop.Arises causes) : stop ≠ .exhausted := by
  cases arises with
  | cause => exact ofCause_ne_exhausted _
  | overlong | leave => simp

/-- A stop over tokens that cannot be compiled is no error of running. -/
theorem Arises.isStatic (arises : stop.Arises Error.Cause.isCompiling) : stop.IsStatic :=
  fun _ stop_eq => Error.Cause.isDynamic_of_isCompiling (arises.failure stop_eq).1

end Arises

end Stop

namespace Lexer

open Error (Cause)

/-- The causes for which a text cannot be read. -/
def causes : List Cause :=
  [.missingName, .strayMarker, .unclosedString]

theorem readLiteral_eq_error
    {cursor : Cursor}
    {cause : Cause}
    (read_eq : readLiteral cursor = .error cause) :
    cause ∈ causes := by
  unfold readLiteral at read_eq
  simp only at read_eq
  split at read_eq
  · simp only [Except.error.injEq] at read_eq
    simp [causes, ← read_eq]
  · simp at read_eq

theorem readMarker_eq_error
    {cursor : Cursor}
    {cause : Cause}
    (read_eq : readMarker cursor = .error cause) :
    cause ∈ causes := by
  unfold readMarker at read_eq
  split at read_eq
  · simp only [Except.error.injEq] at read_eq
    simp [causes, ← read_eq]
  · split at read_eq
    · simp only at read_eq
      split at read_eq
      · simp only [Except.error.injEq] at read_eq
        simp [causes, ← read_eq]
      · simp at read_eq
    · split at read_eq
      · simp at read_eq
      · simp only [Except.error.injEq] at read_eq
        simp [causes, ← read_eq]

theorem readLexeme_eq_error
    {first : Char}
    {cursor : Cursor}
    {cause : Cause}
    (read_eq : readLexeme first cursor = .error cause) :
    cause ∈ causes := by
  unfold readLexeme at read_eq
  split at read_eq
  · simp at read_eq
  split at read_eq
  · cases literal_eq : readLiteral cursor with
    | error inner =>
        simp only [literal_eq, Except.map, Except.error.injEq] at read_eq
        exact read_eq ▸ readLiteral_eq_error literal_eq
    | ok pair => simp [literal_eq, Except.map] at read_eq
  split at read_eq
  · simp at read_eq
  split at read_eq
  · simp at read_eq
  split at read_eq
  · cases marker_eq : readMarker cursor with
    | error inner =>
        simp only [marker_eq, Except.map, Except.error.injEq] at read_eq
        exact read_eq ▸ readMarker_eq_error marker_eq
    | ok pair => simp [marker_eq, Except.map] at read_eq
  split at read_eq
  · simp at read_eq
  split at read_eq
  · simp at read_eq
  · simp at read_eq

theorem readTokens_eq_error
    {cursor : Cursor}
    {cause : Cause}
    (read_eq : readTokens cursor = .error cause) :
    cause ∈ causes := by
  fun_induction readTokens cursor with
  | case1 => simp at read_eq
  | case2 cursor first rest after_eq inner lexeme_eq =>
      simp only [Except.error.injEq] at read_eq
      exact read_eq ▸ readLexeme_eq_error lexeme_eq
  | case3 cursor first rest after_eq token next lexeme_eq inductionHypothesis =>
      cases later_eq : readTokens next with
      | error inner =>
          simp only [later_eq, Except.map, Except.error.injEq] at read_eq
          exact inductionHypothesis (read_eq ▸ later_eq)
      | ok tokens => simp [later_eq, Except.map] at read_eq

/-- A text that cannot be read fails with one of three causes, under its name. -/
theorem tokenize_eq_error
    {name text : String}
    {failure : Error.Failure}
    (read_eq : tokenize name text = .error failure) :
    failure.cause ∈ causes ∧ failure.source = some name := by
  unfold tokenize tokens at read_eq
  cases tokens_eq : readTokens (.ofText text) with
  | error cause =>
      rw [tokens_eq] at read_eq
      injection read_eq with failure_eq
      rw [← failure_eq]
      exact ⟨readTokens_eq_error tokens_eq, rfl⟩
  | ok tokens =>
      rw [tokens_eq] at read_eq
      nomatch read_eq

/-- A text that cannot be read cannot be split into tokens. -/
theorem isOpening_of_tokenize
    {name text : String}
    {failure : Error.Failure}
    (read_eq : tokenize name text = .error failure) :
    failure.cause.isOpening = true := by
  have listed := (tokenize_eq_error read_eq).1
  simp only [causes, List.mem_cons, List.not_mem_nil, or_false] at listed
  rcases listed with cause_eq | cause_eq | cause_eq <;> rw [cause_eq] <;> rfl

end Lexer

namespace Reader

variable {dictionary : Dictionary} {stop : Stop}

theorem arises_of_checkName
    {name : String}
    (check_eq : checkName name = .error stop) :
    stop.Arises Error.Cause.isCompiling := by
  unfold checkName at check_eq
  split at check_eq
  · simp only [Except.error.injEq] at check_eq
    exact check_eq ▸ .cause rfl
  · simp at check_eq

theorem arises_of_resolve
    {text : String}
    (resolve_eq : resolve dictionary text = .error stop) :
    stop.Arises Error.Cause.isCompiling := by
  unfold resolve at resolve_eq
  split at resolve_eq
  · simp at resolve_eq
  · split at resolve_eq
    · split at resolve_eq
      · simp at resolve_eq
      · simp only [Except.error.injEq] at resolve_eq
        exact resolve_eq ▸ .overlong _
    · split at resolve_eq
      · simp at resolve_eq
      · split at resolve_eq
        · simp at resolve_eq
        · simp only [Except.error.injEq] at resolve_eq
          exact resolve_eq ▸ .cause rfl

theorem arises_of_readQuotation
    {content : List Value}
    {outer : List (List Value)}
    {tokens : List Token}
    (read_eq : readQuotation dictionary content outer tokens = .error stop) :
    stop.Arises Error.Cause.isCompiling := by
  induction tokens generalizing content outer with
  | nil =>
      simp only [readQuotation, Except.error.injEq] at read_eq
      exact read_eq ▸ .cause rfl
  | cons token tokens inductionHypothesis =>
      cases token with
      | directive _ | header _ | terminator =>
          simp only [readQuotation, Except.error.injEq] at read_eq
          exact read_eq ▸ .cause rfl
      | openQuotation | literal _ =>
          simp only [readQuotation] at read_eq
          exact inductionHypothesis read_eq
      | closeQuotation =>
          simp only [readQuotation] at read_eq
          split at read_eq
          · simp at read_eq
          · exact inductionHypothesis read_eq
      | word _ =>
          simp only [readQuotation] at read_eq
          split at read_eq
          · rename_i resolve_eq
            simp only [Except.error.injEq] at read_eq
            exact read_eq ▸ arises_of_resolve resolve_eq
          · exact inductionHypothesis read_eq

theorem arises_of_readValue
    {token : Token}
    {tokens : List Token}
    (read_eq : readValue dictionary token tokens = .error stop) :
    stop.Arises Error.Cause.isCompiling := by
  unfold readValue at read_eq
  split at read_eq
  · simp at read_eq
  · exact arises_of_readQuotation read_eq
  · rename_i characters
    cases resolve_eq : resolve dictionary characters with
    | error inner =>
        simp only [resolve_eq, Except.map, Except.error.injEq] at read_eq
        exact read_eq ▸ arises_of_resolve resolve_eq
    | ok value => simp [resolve_eq, Except.map] at read_eq
  · simp only [Except.error.injEq] at read_eq
    exact read_eq ▸ .cause rfl

theorem arises_of_readBody
    {name : String}
    {body : List Value}
    {tokens : List Token}
    (read_eq : readBody dictionary name body tokens = .error stop) :
    stop.Arises Error.Cause.isCompiling := by
  fun_induction readBody dictionary name body tokens with
  | case1 | case3 | case4 =>
      simp only [Except.error.injEq] at read_eq
      exact read_eq ▸ .cause rfl
  | case2 => simp at read_eq
  | case5 body token tokens _ _ _ inner value_eq =>
      simp only [Except.error.injEq] at read_eq
      exact read_eq ▸ arises_of_readValue value_eq
  | case6 body token tokens _ _ _ value remaining value_eq inductionHypothesis =>
      exact inductionHypothesis read_eq

theorem arises_of_readDefinition
    {name : String}
    {tokens : List Token}
    (read_eq : readDefinition dictionary name tokens = .error stop) :
    stop.Arises Error.Cause.isCompiling := by
  unfold readDefinition at read_eq
  split at read_eq
  · rename_i check_eq
    simp only [Except.error.injEq] at read_eq
    exact read_eq ▸ arises_of_checkName check_eq
  · exact arises_of_readBody read_eq

end Reader

/-- The word under a name is there or can be added, or it is refused for its name. -/
theorem Index.isCompiling_of_userWord
    {index : Index}
    {name : String}
    {cause : Error.Cause}
    (word_eq : index.userWord name = .error cause) :
    cause.isCompiling = true := by
  unfold userWord at word_eq
  split at word_eq
  · simp at word_eq
  · split at word_eq
    · simp only [Except.error.injEq] at word_eq
      exact word_eq ▸ rfl
    · simp at word_eq

/-- Words are revised or refused for their names. -/
theorem Dictionary.isCompiling_of_revise
    {dictionary : Dictionary}
    {name : String}
    {revision : Revision}
    {cause : Error.Cause}
    (revise_eq : dictionary.revise name revision = .error cause) :
    cause.isCompiling = true := by
  unfold revise at revise_eq
  split at revise_eq
  · rename_i refused refused_eq
    obtain rfl := Except.error.inj revise_eq
    unfold Index.revise at refused_eq
    cases word_eq : dictionary.index.userWord name with
    | ok found =>
        rw [word_eq] at refused_eq
        cases refused_eq
    | error other =>
        rw [word_eq] at refused_eq
        exact Except.error.inj refused_eq ▸ Index.isCompiling_of_userWord word_eq
  · cases revise_eq

/-- Variables are declared or refused for their names. -/
theorem Dictionary.isCompiling_of_declareVariable
    {dictionary : Dictionary}
    {name : String}
    {cause : Error.Cause}
    (declare_eq : dictionary.declareVariable name = .error cause) :
    cause.isCompiling = true := by
  unfold declareVariable at declare_eq
  split at declare_eq
  · simp only [Except.error.injEq] at declare_eq
    exact declare_eq ▸ rfl
  · simp at declare_eq

namespace Session

theorem isCompiling_of_checkDirective
    {keyword : String}
    {argument : Option Token}
    {cause : Error.Cause}
    (check_eq : checkDirective keyword argument = .error cause) :
    cause.isCompiling = true := by
  unfold checkDirective at check_eq
  split at check_eq
  · simp only [Except.error.injEq] at check_eq
    exact check_eq ▸ rfl
  · split at check_eq
    · simp only [Except.error.injEq] at check_eq
      exact check_eq ▸ rfl
    · split at check_eq
      · simp at check_eq
      · simp only [Except.error.injEq] at check_eq
        exact check_eq ▸ rfl

/-- A path whose file cannot be read has a NUL character or is named by the error. -/
theorem read_eq_error
    {files : Files.Tree}
    {path : String}
    {stop : Stop}
    (read_eq : files.read path = .error stop) :
    stop = .embeddedNul ∨
      ∃ failure, stop = .failure failure ∧ failure.cause.isOpening = true ∧
        failure.source = some path := by
  unfold Files.Tree.read at read_eq
  split at read_eq
  · split at read_eq
    · exact .inr ⟨_, (Except.error.inj read_eq).symm, rfl, rfl⟩
    · split at read_eq
      · exact .inr ⟨_, (Except.error.inj read_eq).symm, rfl, rfl⟩
      · cases read_eq
  · exact .inl (Except.error.inj read_eq).symm

/-- A file that cannot be opened or split into tokens is named by its path in the error. -/
theorem readFile_eq_error
    {files : Files.Tree}
    {path : String}
    {stop : Stop}
    (read_eq : readFile files path = .error stop) :
    stop = .embeddedNul ∨
      ∃ failure, stop = .failure failure ∧ failure.cause.isOpening = true ∧
        failure.source = some path := by
  unfold readFile at read_eq
  split at read_eq
  · rename_i refused open_eq
    rw [← Except.error.inj read_eq]
    exact read_eq_error open_eq
  · cases tokenize_eq : Lexer.tokenize path _ with
    | ok tokens =>
        rw [tokenize_eq] at read_eq
        cases read_eq
    | error failure =>
        rw [tokenize_eq] at read_eq
        exact .inr ⟨failure, (Except.error.inj read_eq).symm,
          Lexer.isOpening_of_tokenize tokenize_eq, (Lexer.tokenize_eq_error tokenize_eq).2⟩

theorem readFile_eq_failure
    {files : Files.Tree}
    {path : String}
    {failure : Error.Failure}
    (read_eq : readFile files path = .error (.failure failure)) :
    failure.cause.isOpening = true ∧ failure.source = some path := by
  rcases readFile_eq_error read_eq with nul | ⟨other, same, opening, source_eq⟩
  · cases nul
  · obtain rfl := Stop.failure.inj same
    exact ⟨opening, source_eq⟩

/-- The tokens of a file are those of its text. -/
theorem readFile_eq_ok
    {files : Files.Tree}
    {path : String}
    {tokens : List Token}
    (read_eq : readFile files path = .ok tokens) :
    ∃ text, files.read path = .ok text ∧ Lexer.tokenize path text = .ok tokens := by
  unfold readFile at read_eq
  split at read_eq
  · cases read_eq
  · rename_i text open_eq
    cases tokenize_eq : Lexer.tokenize path text with
    | ok tokens =>
        rw [tokenize_eq] at read_eq
        exact ⟨text, open_eq, by rw [tokenize_eq, Except.ok.inj read_eq]⟩
    | error failure =>
        rw [tokenize_eq] at read_eq
        cases read_eq

end Session
end Concatenative
