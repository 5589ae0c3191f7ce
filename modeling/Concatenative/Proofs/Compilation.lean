import Concatenative.Proofs.Reference

/-!
# Definitions are recognised in one pass

The definition of a word is read with quotations inside quotations.  Whether it is one, and
why not if it is none, can be told from a single pass over its tokens that only counts how
many brackets are open and looks at each word by itself.

The body of a definition is settled by the tokens that were passed: it is the only sequence
of values that is written with these brackets, strings and words, where words stand for what
they stood for before the definition.  A definition that fails changes nothing.
-/

namespace Concatenative

/-! ## Values as flat sequences -/

/-- A bracket, or a value that stands in a program as a single token. -/
inductive Mark where
  | opening
  | closing
  | leaf (value : Value)

namespace Value

mutual

/-- A value with the brackets of its quotations written out. -/
def marks : Value → List Mark
  | quotation content => .opening :: (marksEach content ++ [.closing])
  | value => [.leaf value]

/-- Values one after the other, with the brackets of their quotations written out. -/
def marksEach : List Value → List Mark
  | [] => []
  | value :: rest => marks value ++ marksEach rest

end

@[simp] theorem marksEach_append (front back : List Value) :
    marksEach (front ++ back) = marksEach front ++ marksEach back := by
  induction front with
  | nil => rfl
  | cons value front inductionHypothesis =>
      simp only [List.cons_append, marksEach, inductionHypothesis, List.append_assoc]

/-- A value is a quotation, or is marked as it stands. -/
theorem marks_cases (value : Value) :
    (∃ content, value = .quotation content ∧
      value.marks = .opening :: (marksEach content ++ [.closing])) ∨
      value.marks = [.leaf value] := by
  cases value with
  | quotation content => exact .inl ⟨content, rfl, by rw [marks]⟩
  | nil | bool _ | int _ | text _ | variableRef _ | wordRef _ => exact .inr (by rw [marks]; simp)

mutual

/-- The marks of a value tell where it ends and which value it is. -/
theorem eq_of_marks_append
    (left right : Value)
    {leftRest rightRest : List Mark}
    (marks_eq : left.marks ++ leftRest = right.marks ++ rightRest) :
    left = right ∧ leftRest = rightRest := by
  cases left with
  | quotation content =>
      rcases right.marks_cases with ⟨other, rfl, other_eq⟩ | other_eq
      · rw [other_eq, marks] at marks_eq
        simp only [List.cons_append, List.append_assoc, List.nil_append, List.cons.injEq,
          true_and] at marks_eq
        obtain ⟨rfl, rest_eq⟩ := eq_of_marksEach_append content other marks_eq
        exact ⟨rfl, rest_eq⟩
      · rw [other_eq, marks] at marks_eq
        simp at marks_eq
  | nil | bool _ | int _ | text _ | variableRef _ | wordRef _ =>
      rcases right.marks_cases with ⟨other, rfl, other_eq⟩ | other_eq
      · rw [other_eq] at marks_eq
        simp [marks] at marks_eq
      · rw [other_eq] at marks_eq
        simpa [marks] using marks_eq

/-- The marks of the content of a quotation tell where it ends and which values it has. -/
theorem eq_of_marksEach_append
    (left right : List Value)
    {leftRest rightRest : List Mark}
    (marks_eq : marksEach left ++ .closing :: leftRest =
      marksEach right ++ .closing :: rightRest) :
    left = right ∧ leftRest = rightRest := by
  -- No value starts with a closing bracket, so the sequences end together.
  have opens : ∀ (value : Value) (later rest : List Mark),
      value.marks ++ later ≠ .closing :: rest := by
    intro value later rest marks_eq
    rcases value.marks_cases with ⟨content, -, value_eq⟩ | value_eq <;>
      simp [value_eq] at marks_eq
  cases left with
  | nil =>
      cases right with
      | nil => simpa [marksEach] using marks_eq
      | cons value others =>
          simp only [marksEach, List.nil_append, List.append_assoc] at marks_eq
          exact absurd marks_eq.symm (opens value _ _)
  | cons value others =>
      cases right with
      | nil =>
          simp only [marksEach, List.nil_append, List.append_assoc] at marks_eq
          exact absurd marks_eq (opens value _ _)
      | cons other rest =>
          simp only [marksEach, List.append_assoc] at marks_eq
          obtain ⟨rfl, later_eq⟩ := eq_of_marks_append value other marks_eq
          obtain ⟨rfl, rest_eq⟩ := eq_of_marksEach_append others rest later_eq
          exact ⟨rfl, rest_eq⟩

end

/-- Values are settled by their marks. -/
theorem marksEach_injective {left right : List Value} (marks_eq : marksEach left = marksEach right) :
    left = right :=
  (eq_of_marksEach_append left right (congrArg (· ++ [.closing]) marks_eq)).1

end Value

/-- What a token of a body stands for, unless it is none or stands for nothing. -/
def Token.mark? (dictionary : Dictionary) : Token → Option Mark
  | openQuotation => some .opening
  | closeQuotation => some .closing
  | literal characters => some (.leaf (.text characters))
  | word characters => (Reader.resolve dictionary characters).toOption.map .leaf
  | directive _ | header _ | terminator => none

namespace Reader

/-- The tokens are the values with their brackets, strings and words written out. -/
def Spells (dictionary : Dictionary) (values : List Value) (tokens : List Token) : Prop :=
  tokens.map (Token.mark? dictionary) = (Value.marksEach values).map some

/-- Tokens spell one sequence of values at most. -/
theorem Spells.unique
    {dictionary : Dictionary}
    {values others : List Value}
    {tokens : List Token}
    (spells : Spells dictionary values tokens)
    (spellsOther : Spells dictionary others tokens) :
    others = values := by
  have marks_eq : (Value.marksEach others).map some = (Value.marksEach values).map some :=
    spellsOther.symm.trans spells
  exact Value.marksEach_injective ((List.map_inj_right fun _ _ => Option.some.inj).mp marks_eq)

/-! ## The recogniser -/

/--
Why a word cannot stand in a body: it is a numeral over the limit, or it is no literal, no
word and no variable.
-/
def objection? (dictionary : Dictionary) (text : String) : Option Stop :=
  if Numeral.isNumeral text then
    let digits := (Numeral.splitSign text.toList).2
    if digits.length ≤ Numeral.digitLimit then none
    else some (.overlong (.read digits.length))
  else if (truth? text).isSome || dictionary.contains text || dictionary.store.contains text then
    none
  else some (.ofCause (.unresolved text))

/-- Puts a token in front of those that were passed after it. -/
def pass (token : Token) (scanned : Except Stop (List Token × List Token)) :
    Except Stop (List Token × List Token) :=
  scanned.map fun (passed, rest) => (token :: passed, rest)

/--
Passes over the tokens of a body up to the terminator that ends it, with a number of
brackets open, and tells which tokens were passed and which follow.
-/
def scan (dictionary : Dictionary) (name : String) :
    (depth : Nat) → List Token → Except Stop (List Token × List Token)
  | 0, [] => .error (.ofCause (.unclosedDefinition name))
  | _ + 1, [] => .error (.ofCause .unclosedQuotation)
  | 0, .terminator :: rest => .ok ([], rest)
  | _ + 1, .terminator :: _ => .error (.ofCause .unclosedQuotation)
  | 0, .header word :: _ => .error (.ofCause (.forbidden (.header word) name))
  | _ + 1, .header word :: _ => .error (.ofCause (.misplaced (.header word)))
  | 0, .directive keyword :: _ => .error (.ofCause (.forbidden (.directive keyword) name))
  | _ + 1, .directive keyword :: _ => .error (.ofCause (.misplaced (.directive keyword)))
  | 0, .closeQuotation :: _ => .error (.ofCause (.misplaced .closeQuotation))
  | depth + 1, .closeQuotation :: rest =>
      pass .closeQuotation (scan dictionary name depth rest)
  | depth, .openQuotation :: rest =>
      pass .openQuotation (scan dictionary name (depth + 1) rest)
  | depth, .literal characters :: rest =>
      pass (.literal characters) (scan dictionary name depth rest)
  | depth, .word characters :: rest =>
      match objection? dictionary characters with
      | some stop => .error stop
      | none => pass (.word characters) (scan dictionary name depth rest)

/--
Decides about the definition of a name whose header is behind: which tokens are its body
and which follow it, or why there is no such definition.
-/
def recognise (dictionary : Dictionary) (name : String) (tokens : List Token) :
    Except Stop (List Token × List Token) :=
  if isLiteral name then .error (.ofCause (.literalName name))
  else
    match scan dictionary name 0 tokens with
    | .error stop => .error stop
    | .ok passed =>
        if (Primitive.ofName? name).isSome then .error (.ofCause (.primitiveName name))
        else .ok passed

section Recognition

variable {dictionary : Dictionary} {name : String}

/-- A word stands for something unless there is an objection to it. -/
theorem resolve_eq_error_iff {text : String} {stop : Stop} :
    resolve dictionary text = .error stop ↔ objection? dictionary text = some stop := by
  cases truth_eq : truth? text with
  | some truth =>
      have worded : Numeral.isNumeral text = false :=
        Rule.isNumeral_of_truth? (by rw [truth_eq, Option.isSome_some])
      simp [resolve, objection?, truth_eq, worded]
  | none =>
      by_cases numeral : Numeral.isNumeral text = true
      · by_cases short : (Numeral.splitSign text.toList).2.length ≤ Numeral.digitLimit <;>
          simp [resolve, objection?, truth_eq, numeral, Numeral.read, short]
      · by_cases declared : dictionary.store.contains text = true <;>
          cases lookup_eq : dictionary.lookup text <;>
          simp [resolve, objection?, truth_eq, numeral, Dictionary.reference?,
            Dictionary.contains_eq, declared, lookup_eq]

/-- A word to which there is no objection stands for a value that is marked as it stands. -/
theorem exists_resolve_eq_ok
    {characters : String}
    (accepted : objection? dictionary characters = none) :
    ∃ value, resolve dictionary characters = .ok value ∧ value.marks = [.leaf value] := by
  cases resolve_eq : resolve dictionary characters with
  | error stop =>
      rw [resolve_eq_error_iff, accepted] at resolve_eq
      nomatch resolve_eq
  | ok value =>
      refine ⟨value, rfl, ?_⟩
      rcases resolve_eq_ok resolve_eq with
        ⟨truth, rfl⟩ | ⟨number, -, -, rfl⟩ | ⟨reference, -, rfl⟩ | ⟨-, rfl⟩ <;>
        simp [Value.marks]

/-! ## Reading with brackets open -/

/--
What has been read of a body: the values before the outermost bracket that is open, and
those behind each open bracket, innermost first, all with the newest value first.
-/
structure Progress where
  body : List Value
  opened : List (List Value)

/-- A token that may stand in a body, and of which nothing can be read, stops the reading. -/
theorem readBody_of_readValue_eq_error
    {body : List Value}
    {token : Token}
    {tokens : List Token}
    {stop : Stop}
    (read_eq : readValue dictionary token tokens = .error stop)
    (admitted : token.kind ∉ [.terminator, .header, .directive]) :
    readBody dictionary name body (token :: tokens) = .error stop := by
  conv => lhs; unfold readBody
  cases token with
  | terminator | header _ | directive _ => simp [Token.kind] at admitted
  | word _ | literal _ | openQuotation | closeQuotation =>
      simp only
      split
      · rename_i other other_eq
        rw [read_eq, Except.error.injEq] at other_eq
        rw [other_eq]
      · rename_i other_eq
        rw [read_eq] at other_eq
        cases other_eq

namespace Progress

variable {progress : Progress} {tokens : List Token}

/-- A bracket is opened. -/
def enter (progress : Progress) : Progress :=
  { progress with opened := [] :: progress.opened }

/-- A value is added behind the innermost open bracket. -/
def add (progress : Progress) (value : Value) : Progress :=
  match progress.opened with
  | [] => { progress with body := value :: progress.body }
  | content :: outer => { progress with opened := (value :: content) :: outer }

/-- The marks of what has been read. -/
def marks (progress : Progress) : List Mark :=
  Value.marksEach progress.body.reverse ++
    progress.opened.reverse.flatMap fun content =>
      .opening :: Value.marksEach content.reverse

/-- Reads on to the end of the body. -/
def readOn (progress : Progress) (dictionary : Dictionary) (name : String)
    (tokens : List Token) : Except Stop (Body × List Token) :=
  match progress.opened with
  | [] => readBody dictionary name progress.body tokens
  | content :: outer =>
      match readQuotation dictionary content outer tokens with
      | .error stop => .error stop
      | .ok (value, rest) => readBody dictionary name (value :: progress.body) rest

@[simp] theorem length_opened_add (value : Value) :
    (progress.add value).opened.length = progress.opened.length := by
  unfold add
  split
  · rfl
  · rename_i opened_eq
    simp [opened_eq]

@[simp] theorem marks_enter : progress.enter.marks = progress.marks ++ [.opening] := by
  simp [enter, marks, Value.marksEach]

@[simp] theorem marks_add (value : Value) :
    (progress.add value).marks = progress.marks ++ value.marks := by
  unfold add
  split
  · rename_i opened_eq
    simp [marks, opened_eq, Value.marksEach]
  · rename_i content outer opened_eq
    simp [marks, opened_eq, Value.marksEach]

/-- A value that is read goes into what has been read. -/
theorem readOn_value
    {token : Token}
    {value : Value}
    (read_eq : readValue dictionary token tokens = .ok (value, tokens))
    (single : token ≠ .openQuotation) :
    progress.readOn dictionary name (token :: tokens) =
      (progress.add value).readOn dictionary name tokens := by
  unfold readOn add
  cases progress.opened with
  | nil => exact readBody_of_readValue read_eq
  | cons content outer =>
      cases token with
      | directive _ | header _ | terminator | closeQuotation => simp [readValue] at read_eq
      | openQuotation => exact absurd rfl single
      | literal characters =>
          simp only [readValue, Except.ok.injEq, Prod.mk.injEq, and_true] at read_eq
          simp only [readQuotation, read_eq]
      | word characters =>
          cases resolve_eq : resolve dictionary characters with
          | error stop => simp [readValue, resolve_eq, Except.map] at read_eq
          | ok first =>
              simp only [readValue, resolve_eq, Except.map, Except.ok.injEq, Prod.mk.injEq,
                and_true] at read_eq
              simp only [readQuotation, resolve_eq, read_eq]

/-- A word that cannot be read stops the reading. -/
theorem readOn_word_of_error
    {characters : String}
    {stop : Stop}
    (resolve_eq : resolve dictionary characters = .error stop) :
    progress.readOn dictionary name (.word characters :: tokens) = .error stop := by
  unfold readOn
  cases progress.opened with
  | nil =>
      refine readBody_of_readValue_eq_error ?_ (by simp [Token.kind])
      simp only [readValue, resolve_eq, Except.map]
  | cons content outer => simp only [readQuotation, resolve_eq]

theorem readOn_openQuotation :
    progress.readOn dictionary name (.openQuotation :: tokens) =
      progress.enter.readOn dictionary name tokens := by
  unfold readOn enter
  cases progress.opened with
  | nil =>
      have value_eq : readValue dictionary .openQuotation tokens =
          readQuotation dictionary [] [] tokens := rfl
      cases read_eq : readQuotation dictionary [] [] tokens with
      | error stop =>
          simp only [read_eq]
          exact readBody_of_readValue_eq_error (value_eq.trans read_eq) (by decide)
      | ok read =>
          simp only [read_eq]
          exact readBody_of_readValue (value_eq.trans read_eq)
  | cons content outer => simp only [readQuotation]

/-- A bracket that is closed makes a value of what is behind it. -/
theorem readOn_closeQuotation
    {content : List Value}
    {outer : List (List Value)}
    (opened_eq : progress.opened = content :: outer) :
    progress.readOn dictionary name (.closeQuotation :: tokens) =
      (add { progress with opened := outer } (.quotation content.reverse)).readOn dictionary
        name tokens := by
  unfold readOn add
  rw [opened_eq]
  cases outer <;> simp only [readQuotation]

/-- Reading on agrees with what a pass over the tokens tells. -/
inductive Agrees (dictionary : Dictionary) (progress : Progress) :
    Except Stop (List Token × List Token) → Except Stop (Body × List Token) → Prop
  | stopped (stop : Stop) : Agrees dictionary progress (.error stop) (.error stop)
  /-- The body consists of what has been read before and of the tokens passed. -/
  | completed {passed rest : List Token} {body : Body} :
      (Value.marksEach body).map some =
        progress.marks.map some ++ passed.map (Token.mark? dictionary) →
      Agrees dictionary progress (.ok (passed, rest)) (.ok (body, rest))

/-- A token that is passed is added to what has been read. -/
theorem Agrees.pass
    {next : Progress}
    {token : Token}
    {mark : Mark}
    {scanned : Except Stop (List Token × List Token)}
    {read : Except Stop (Body × List Token)}
    (agrees : Agrees dictionary next scanned read)
    (mark_eq : token.mark? dictionary = some mark)
    (marks_eq : next.marks = progress.marks ++ [mark]) :
    Agrees dictionary progress (pass token scanned) read := by
  cases agrees with
  | stopped stop => exact .stopped stop
  | completed body_eq =>
      refine .completed ?_
      simp [body_eq, marks_eq, mark_eq]

/-- A value that is read in front of what agrees is a mark more of the body. -/
theorem agrees_pass_value
    {token : Token}
    {value : Value}
    {scanned : Except Stop (List Token × List Token)}
    (agrees : Agrees dictionary (progress.add value) scanned
      ((progress.add value).readOn dictionary name tokens))
    (read_eq : readValue dictionary token tokens = .ok (value, tokens))
    (single : token ≠ .openQuotation)
    (mark_eq : token.mark? dictionary = some (.leaf value))
    (leaf_eq : value.marks = [.leaf value]) :
    Agrees dictionary progress (pass token scanned)
      (progress.readOn dictionary name (token :: tokens)) := by
  rw [readOn_value read_eq single]
  exact agrees.pass mark_eq (by rw [marks_add, leaf_eq])

section Scanning

variable
  (inner : ∀ next : Progress,
    Agrees dictionary next (scan dictionary name next.opened.length tokens)
      (next.readOn dictionary name tokens))
include inner

/-- A word is passed if it is resolved, and stops both if it is not. -/
theorem agrees_scan_word (characters : String) :
    Agrees dictionary progress
      (scan dictionary name progress.opened.length (.word characters :: tokens))
      (progress.readOn dictionary name (.word characters :: tokens)) := by
  rw [scan]
  split
  · rename_i stop objected
    rw [readOn_word_of_error (resolve_eq_error_iff.mpr objected)]
    exact .stopped stop
  · rename_i accepted
    obtain ⟨value, resolve_eq, leaf_eq⟩ := exists_resolve_eq_ok accepted
    have read_eq : readValue dictionary (.word characters) tokens = .ok (value, tokens) := by
      simp only [readValue, resolve_eq, Except.map]
    have mark_eq : (Token.word characters).mark? dictionary = some (.leaf value) := by
      rw [Token.mark?, resolve_eq]
      rfl
    have added := inner (progress.add value)
    rw [length_opened_add] at added
    exact agrees_pass_value added read_eq (by simp) mark_eq leaf_eq

/-- A closing bracket is passed if a bracket is open, and stops both if none is. -/
theorem agrees_scan_closeQuotation :
    Agrees dictionary progress
      (scan dictionary name progress.opened.length (.closeQuotation :: tokens))
      (progress.readOn dictionary name (.closeQuotation :: tokens)) := by
  cases opened_eq : progress.opened with
  | nil =>
      unfold readOn
      rw [opened_eq]
      simp only [List.length_nil, scan]
      rw [readBody_of_readValue_eq_error rfl (by decide)]
      exact .stopped _
  | cons content outer =>
      have closed := inner (add { progress with opened := outer } (.quotation content.reverse))
      rw [length_opened_add] at closed
      rw [readOn_closeQuotation opened_eq, List.length_cons, scan]
      refine closed.pass rfl ?_
      rw [marks_add, Value.marks]
      simp [marks, opened_eq]

end Scanning

/-- Reading the rest of a body agrees with a pass over it that counts brackets. -/
theorem agrees_scan
    (dictionary : Dictionary)
    (name : String)
    (tokens : List Token)
    (progress : Progress) :
    Agrees dictionary progress
      (scan dictionary name progress.opened.length tokens)
      (progress.readOn dictionary name tokens) := by
  induction tokens generalizing progress with
  | nil =>
      unfold readOn
      cases progress.opened with
      | nil =>
          simp only [List.length_nil, scan, readBody]
          exact .stopped _
      | cons content outer => exact .stopped _
  | cons token tokens inductionHypothesis =>
      cases token with
      | header _ | directive _ =>
          unfold readOn
          cases progress.opened with
          | nil =>
              simp only [List.length_nil, scan, readBody]
              exact .stopped _
          | cons content outer => exact .stopped _
      | terminator =>
          unfold readOn
          cases opened_eq : progress.opened with
          | nil =>
              simp only [List.length_nil, scan, readBody]
              exact .completed (by simp [marks, opened_eq])
          | cons content outer => exact .stopped _
      | literal characters =>
          have added := inductionHypothesis (progress.add (.text characters))
          rw [length_opened_add] at added
          rw [scan]
          exact agrees_pass_value added rfl (by simp) rfl rfl
      | openQuotation =>
          rw [readOn_openQuotation, scan]
          exact (inductionHypothesis progress.enter).pass rfl marks_enter
      | closeQuotation => exact agrees_scan_closeQuotation inductionHypothesis
      | word characters => exact agrees_scan_word inductionHypothesis characters

end Progress

/-- What is passed ends at the terminator that the rest follows. -/
theorem append_of_scan
    {depth : Nat}
    {tokens passed rest : List Token}
    (scan_eq : scan dictionary name depth tokens = .ok (passed, rest)) :
    tokens = passed ++ .terminator :: rest := by
  have exists_passed : ∀ {token : Token} {scanned : Except Stop (List Token × List Token)}
      {passed : List Token}, pass token scanned = .ok (passed, rest) →
        ∃ others, passed = token :: others ∧ scanned = .ok (others, rest) := by
    intro token scanned passed pass_eq
    cases scanned with
    | error stop => nomatch pass_eq
    | ok pair =>
        simp only [pass, Except.map, Except.ok.injEq, Prod.mk.injEq] at pass_eq
        exact ⟨pair.1, pass_eq.1.symm, by rw [← pass_eq.2]⟩
  fun_induction scan dictionary name depth tokens generalizing passed with
  | case3 tokens =>
      simp only [Except.ok.injEq, Prod.mk.injEq] at scan_eq
      obtain ⟨rfl, rfl⟩ := scan_eq
      rfl
  | case10 _ _ inductionHypothesis
  | case11 _ _ inductionHypothesis
  | case12 _ _ _ inductionHypothesis
  | case14 _ _ _ _ inductionHypothesis =>
      obtain ⟨others, rfl, later_eq⟩ := exists_passed scan_eq
      rw [List.cons_append, ← inductionHypothesis later_eq]
  | case1 | case2 | case4 | case5 | case6 | case7 | case8 | case9 | case13 => nomatch scan_eq

/--
A body cannot be read for the reason for which it cannot be passed, or it is what the
tokens that are passed spell.
-/
theorem readBody_cases (dictionary : Dictionary) (name : String) (tokens : List Token) :
    (∃ stop, scan dictionary name 0 tokens = .error stop ∧
      readBody dictionary name [] tokens = .error stop) ∨
    ∃ passed rest body, scan dictionary name 0 tokens = .ok (passed, rest) ∧
      readBody dictionary name [] tokens = .ok (body, rest) ∧
      Spells dictionary body passed := by
  have agrees : Progress.Agrees dictionary ⟨[], []⟩
      (scan dictionary name 0 tokens) (readBody dictionary name [] tokens) :=
    Progress.agrees_scan dictionary name tokens ⟨[], []⟩
  generalize scan dictionary name 0 tokens = scanned at agrees ⊢
  generalize readBody dictionary name [] tokens = read at agrees ⊢
  cases agrees with
  | stopped stop => exact .inl ⟨stop, rfl, rfl⟩
  | @completed passed rest body body_eq =>
      exact .inr ⟨passed, rest, body, rfl, rfl, body_eq.symm⟩

end Recognition

end Reader

namespace Session

variable {session : Session} {name : String}

/-- The name of a primitive is refused, and nothing is changed. -/
theorem define_of_isSome
    (reserved : (Primitive.ofName? name).isSome = true)
    (body : Body) :
    session.define name body = .failed session (.primitiveName name) := by
  have refused : session.dictionary.define name body = .error (.primitiveName name) :=
    Dictionary.revise_of_isSome reserved (.define body)
  rw [define, refused]
  rfl

/-- A word is defined under every other name, and but for the log nothing else is changed. -/
theorem define_of_not_isSome
    (free : ¬(Primitive.ofName? name).isSome = true)
    (body : Body) :
    ∃ dictionary notes, session.dictionary.define name body = .ok dictionary ∧
      session.define name body = .done { session.withDictionary dictionary with notes } () := by
  rw [Option.not_isSome_iff_eq_none] at free
  obtain ⟨dictionary, revise_eq⟩ :=
    session.dictionary.exists_revise_eq free (.define body)
  have define_eq : session.dictionary.define name body = .ok dictionary := revise_eq
  refine ⟨dictionary, ?_⟩
  rw [define, define_eq, changeDictionary, Outcome.andThen_done]
  split
  · exact ⟨_, rfl, rfl⟩
  · exact ⟨_, rfl, rfl⟩

/--
The definition of a word is loaded as the recogniser decides in one pass over its tokens.
Where that finds an objection, loading stops with the first one and leaves the session as
it was.  Otherwise the word is defined with the one body that the tokens spell in the
dictionary before the definition, nothing else but the log is changed, and loading goes on
behind the terminator.
-/
theorem loadTokens_definition
    (session : Session)
    (fuel : Nat)
    (inclusion : Inclusion)
    (name : String)
    (tokens : List Token) :
    let outcome := session.loadTokens fuel inclusion (.header name :: tokens)
    match Reader.recognise session.dictionary name tokens with
    | .error stop => outcome = .stopped session stop
    | .ok (passed, rest) =>
        tokens = passed ++ .terminator :: rest ∧
          ∃ body, Reader.Spells session.dictionary body passed ∧
            (∀ other, Reader.Spells session.dictionary other passed → other = body) ∧
            ∃ dictionary notes, session.dictionary.define name body = .ok dictionary ∧
              outcome =
                { session.withDictionary dictionary with notes }.loadTokens fuel inclusion
                  rest := by
  intro outcome
  have outcome_eq : outcome =
      (session.loadForm fuel inclusion (.header name) tokens).andThen fun after rest =>
        after.loadTokens fuel inclusion rest :=
    loadTokens_cons
  rw [loadForm, Reader.readDefinition, Reader.checkName] at outcome_eq
  rw [Reader.recognise]
  by_cases literal : Reader.isLiteral name = true
  · rw [if_pos literal] at outcome_eq ⊢
    exact outcome_eq
  · rw [if_neg literal] at outcome_eq ⊢
    rcases Reader.readBody_cases session.dictionary name tokens with
      ⟨stop, scan_eq, read_eq⟩ | ⟨passed, rest, body, scan_eq, read_eq, spells⟩
    · simp only [scan_eq, read_eq] at outcome_eq ⊢
      exact outcome_eq
    · simp only [scan_eq, read_eq] at outcome_eq ⊢
      by_cases reserved : (Primitive.ofName? name).isSome = true
      · rw [define_of_isSome reserved] at outcome_eq
        rw [if_pos reserved]
        exact outcome_eq
      · obtain ⟨dictionary, notes, define_eq, defined_eq⟩ := define_of_not_isSome reserved body
        rw [defined_eq] at outcome_eq
        rw [if_neg reserved]
        exact ⟨Reader.append_of_scan scan_eq, body, spells, fun other => spells.unique,
          dictionary, notes, define_eq, outcome_eq⟩

example :
    (Reader.recognise .initial "twice"
        [.openQuotation, .word "07", .closeQuotation, .word "+", .terminator, .word "no"]).toOption =
      some ([.openQuotation, .word "07", .closeQuotation, .word "+"], [.word "no"]) := by
  decide +kernel

end Session
end Concatenative
