import Concatenative.Proofs.Compilation
import Concatenative.Proofs.Deferral
import Concatenative.Proofs.ReadBack

/-!
# Words that can be called

The name in a definition is any run of characters without blanks, whereas a word in other
places must not start like a comment, a literal or a marker, nor be a bracket, a parenthesis
or a terminator.  So a program can define words that it has no means to refer to.  The
argument of a directive is an ordinary word, and whatever it declares or reserves can be
referred to.
-/

namespace Concatenative

namespace Text

/-- A text does not start like a comment, a literal or a marker, and is no lone mark. -/
def IsCallable (text : String) : Prop :=
  text.toList.head? ∉ [some '#', some '"', some ':'] ∧ text ∉ ["(", "[", "]", ";"]

instance : DecidablePred IsCallable :=
  fun _ => inferInstanceAs (Decidable (_ ∧ _))

end Text

/-- The body of the newest layer after a definition is the one that it gives. -/
theorem Word.latest?_define (word : Word) (body : Body) :
    (word.define body).latest? = some body := by
  unfold define
  split <;> simp [latest?]

namespace Grammar

/-- A lexeme that yields a token yields the first token of the text. -/
theorem exists_cons_of_readLexeme
    {first : Char}
    {rest later : List Char}
    {token : Token}
    {tokens : List Token}
    (lexeme_eq : readLexeme first rest = .ok (some token, later))
    (read_eq : readTokens (first :: rest) = .ok tokens) :
    ∃ others, tokens = token :: others ∧ readTokens later = .ok others := by
  rw [readTokens_of_readLexeme lexeme_eq] at read_eq
  cases later_eq : readTokens later with
  | error cause =>
      rw [later_eq] at read_eq
      nomatch read_eq
  | ok others =>
      rw [later_eq] at read_eq
      exact ⟨others, (Except.ok.inj read_eq).symm, rfl⟩

/-- A text without blanks whose first token is a word is that word. -/
theorem eq_of_readTokens_eq_word
    {text : List Char}
    (solid : ∀ character ∈ text, Text.isBlank character = false)
    {characters : String}
    {tokens : List Token}
    (read_eq : readTokens text = .ok (.word characters :: tokens)) :
    characters = String.ofList text ∧ tokens = [] := by
  cases text with
  | nil =>
      rw [readTokens_nil] at read_eq
      cases read_eq
  | cons first rest =>
      rw [List.forall_mem_cons] at solid
      have production := production_readLexeme first rest
      generalize lexeme_eq : readLexeme first rest = lexeme at production
      cases production with
      | blank blank =>
          rw [solid.1] at blank
          cases blank
      | line =>
          -- The comment goes on up to the end of the text.
          have dropped : rest.dropWhile (· != '\n') = [] := by
            rw [List.dropWhile_eq_nil_iff]
            intro character present
            rw [bne_iff_ne]
            rintro rfl
            exact absurd (solid.2 _ present) (by decide)
          rw [readTokens_of_readLexeme lexeme_eq, dropped, List.tail_nil, readTokens_nil] at read_eq
          cases read_eq
      | unclosedComment =>
          rw [readTokens_of_readLexeme lexeme_eq, readTokens_nil] at read_eq
          cases read_eq
      | comment bounded split_eq =>
          -- Only the end of the text is a boundary.
          cases rest with
          | nil => cases split_eq
          | cons next rest =>
              rw [List.head?_cons, Text.isBoundary_some, solid.2 next List.mem_cons_self] at bounded
              cases bounded
      | unclosedLiteral | missingName | strayMarker =>
          rw [readTokens_of_readLexeme_eq_error lexeme_eq] at read_eq
          cases read_eq
      | literal | header | directive | openQuotation | closeQuotation =>
          obtain ⟨others, tokens_eq, -⟩ := exists_cons_of_readLexeme lexeme_eq read_eq
          cases tokens_eq
      | word =>
          obtain ⟨others, tokens_eq, later_eq⟩ := exists_cons_of_readLexeme lexeme_eq read_eq
          have taken : (rest ++ []).takeWhile Lexer.isWordCharacter = rest :=
            takeWhile_append_of_solid solid.2 rfl
          have dropped : (rest ++ []).dropWhile Lexer.isWordCharacter = [] :=
            dropWhile_append_of_solid solid.2 rfl
          rw [List.append_nil] at taken dropped
          rw [dropped, readTokens_nil] at later_eq
          rw [taken, Lexer.wordToken] at tokens_eq
          obtain ⟨word_eq, rfl⟩ := List.cons.inj tokens_eq
          split at word_eq
          · cases word_eq
          · exact ⟨Token.word.inj word_eq, (Except.ok.inj later_eq).symm⟩

end Grammar

namespace Lexer

variable {name : String}

/-- A text that can be called is read as one word, which is the text itself. -/
theorem tokens_of_isCallable
    (solid : Text.IsSolid name)
    (callable : Text.IsCallable name) :
    tokens name = .ok [.word name] := by
  have wellFormed : (Token.word name).IsWellFormed := ⟨solid, callable⟩
  have read_eq : Grammar.readTokens (name.toList ++ []) = _ :=
    Grammar.readTokens_render wellFormed rfl
  rw [List.append_nil, Grammar.readTokens_nil] at read_eq
  rw [tokens_eq, read_eq]
  rfl

/-- A text without blanks that starts with a word can be called. -/
theorem isCallable_of_tokens
    (solid : Text.IsSolid name)
    {characters : String}
    {later : List Token}
    (read_eq : tokens name = .ok (.word characters :: later)) :
    characters = name ∧ later = [] ∧ Text.IsCallable name := by
  rw [tokens_eq] at read_eq
  have wellFormed := Grammar.isWellFormed_of_readTokens read_eq
  obtain ⟨characters_eq, rfl⟩ := Grammar.eq_of_readTokens_eq_word solid.2 read_eq
  rw [String.ofList_toList] at characters_eq
  subst characters_eq
  exact ⟨rfl, rfl, (wellFormed _ List.mem_cons_self).2⟩

/-- A text that cannot be called is no word of any text. -/
theorem word_notMem_of_not_isCallable
    (uncallable : ¬Text.IsCallable name)
    {text : String}
    {read : List Token}
    (read_eq : tokens text = .ok read) :
    .word name ∉ read := by
  intro present
  rw [tokens_eq] at read_eq
  have wellFormed := Grammar.isWellFormed_of_readTokens read_eq _ present
  exact uncallable wellFormed.2

/-- A directive is read off, and then what follows it. -/
theorem tokens_directive (directive : Directive) (text : String) :
    tokens (directive.keyword ++ " " ++ text) =
      (tokens text).map (.directive directive.keyword :: ·) := by
  have wellFormed : (Token.directive directive.keyword).IsWellFormed := by
    cases directive <;> decide
  have text_eq : (directive.keyword ++ " " ++ text).toList =
      (Token.directive directive.keyword).render.toList ++ ' ' :: text.toList := by
    simp [Token.render, String.toList_append]
  rw [tokens_eq, tokens_eq, text_eq, Grammar.readTokens_render wellFormed rfl,
    Grammar.readTokens_blank (by decide)]

end Lexer

namespace Reader

variable {dictionary : Dictionary} {name : String}

/-- A text by itself is read as a single word, which stands for a value. -/
def StandsFor (dictionary : Dictionary) (text : String) (value : Value) : Prop :=
  ∃ characters, Lexer.tokens text = .ok [.word characters] ∧
    resolve dictionary characters = .ok value

/-- A name that is no literal stands for a reference to its word. -/
theorem resolve_of_reference?
    (unread : isLiteral name = false)
    {reference : WordRef}
    (reference_eq : dictionary.reference? name = some reference) :
    resolve dictionary name = .ok (.wordRef reference) := by
  obtain ⟨untrue, innumerable⟩ : truth? name = none ∧ Numeral.isNumeral name = false := by
    simpa [isLiteral] using unread
  simp [resolve, untrue, innumerable, reference_eq]

/-- A name that is no literal and no word stands for the variable. -/
theorem resolve_of_declared
    (unread : isLiteral name = false)
    (free : dictionary.contains name = false)
    (declared : dictionary.store.contains name = true) :
    resolve dictionary name = .ok (.variableRef name) := by
  obtain ⟨untrue, innumerable⟩ : truth? name = none ∧ Numeral.isNumeral name = false := by
    simpa [isLiteral] using unread
  have absent : dictionary.reference? name = none := by
    rw [Dictionary.contains_eq, Option.isSome_eq_false_iff, Option.isNone_iff_eq_none] at free
    rw [Dictionary.reference?, free, Option.map_none]
  simp [resolve, untrue, innumerable, absent, declared]

end Reader

namespace Session

variable
  {session after : Session}
  {environment : Environment}
  {source text name : String}
  {fuel : Nat}
  {inclusion : Inclusion}
  {tokens : List Token}

/-! ## Texts that are accepted -/

/-- A text that is accepted was loaded token by token. -/
theorem exists_loadTokens_of_execute
    (accepted : (session.execute environment source text).result = .ok ()) :
    ∃ (tokens : List Token) (inside after : Session) (inclusion : Inclusion),
      Lexer.tokens text = .ok tokens ∧
      inside.dictionary = session.dictionary ∧
      inside.loadTokens environment.fuel inclusion tokens = .done after () ∧
      (session.execute environment source text).state.dictionary = after.dictionary := by
  unfold execute at accepted ⊢
  cases tokens_eq : Lexer.tokens text with
  | error cause =>
      have refused : Lexer.tokenize source text = .error ⟨cause, some source⟩ := by
        rw [Lexer.tokenize, tokens_eq]
        rfl
      rw [refused] at accepted
      cases accepted
  | ok tokens =>
      rw [Lexer.tokenize_of_tokens tokens_eq source] at accepted ⊢
      let inside := { session with source := some source }.note (.loading source tokens.length)
      let inclusion := includeBy environment.files fun path session =>
        session.loadPath environment path
      rcases loaded : (inside.loadTokens environment.fuel inclusion tokens).done_or_stopped with
        ⟨after, result, load_eq⟩ | ⟨after, stop, load_eq⟩
      · refine ⟨tokens, inside, after, inclusion, rfl, rfl, load_eq, ?_⟩
        change (inside.loadTokens environment.fuel inclusion tokens).state.dictionary = _
        rw [load_eq]
        rfl
      · change ((inside.loadTokens environment.fuel inclusion tokens).mapStop _).result = _
          at accepted
        rw [load_eq] at accepted
        cases accepted

/-- A definition that is accepted has a name that is neither a literal nor a primitive. -/
theorem free_of_loadTokens
    (load_eq : session.loadTokens fuel inclusion (.header name :: tokens) = .done after ()) :
    Reader.isLiteral name = false ∧ Primitive.ofName? name = none := by
  rw [loadTokens_cons, Outcome.andThen_eq_done_iff] at load_eq
  obtain ⟨middle, rest, form_eq, -⟩ := load_eq
  simp only [loadForm, Reader.readDefinition, Reader.checkName] at form_eq
  by_cases literal : Reader.isLiteral name = true
  · rw [if_pos literal] at form_eq
    cases form_eq
  · refine ⟨eq_false_of_ne_true literal, ?_⟩
    rw [if_neg literal] at form_eq
    by_contra reserved
    rw [← ne_eq, Option.ne_none_iff_isSome] at reserved
    cases read_eq : Reader.readBody session.dictionary name [] tokens with
    | error stop =>
        rw [read_eq] at form_eq
        cases form_eq
    | ok read =>
        simp only [read_eq, define_of_isSome reserved] at form_eq
        cases form_eq

/-- A directive that is accepted is applied to the text of its argument. -/
theorem apply_of_loadTokens
    {directive : Directive}
    (load_eq : session.loadTokens fuel inclusion (.directive directive.keyword :: tokens) =
      .done after ()) :
    ∃ (token : Token) (rest : List Token) (inside middle : Session), tokens = token :: rest ∧
      token.kind ∈ directive.accepts ∧
      inside.dictionary = session.dictionary ∧
      inside.applyDirective inclusion directive token.text = .done middle () ∧
      middle.loadTokens fuel inclusion rest = .done after () := by
  rw [loadTokens_cons, Outcome.andThen_eq_done_iff] at load_eq
  obtain ⟨middle, rest, form_eq, later_eq⟩ := load_eq
  simp only [loadForm] at form_eq
  cases check_eq : checkDirective directive.keyword tokens.head? with
  | error cause =>
      rw [check_eq] at form_eq
      cases form_eq
  | ok checked =>
      obtain ⟨found, argument⟩ := checked
      obtain ⟨keyword_eq, token, head_eq, accepted, rfl⟩ := checkDirective_eq_ok check_eq
      have found_eq : found = directive := by
        cases found <;> cases directive <;> first | rfl | exact absurd keyword_eq (by decide)
      subst found_eq
      rw [check_eq] at form_eq
      obtain ⟨applied, result, apply_eq, done_eq⟩ := Outcome.andThen_eq_done_iff.mp form_eq
      obtain ⟨rfl, rfl⟩ := Outcome.done_inj.mp done_eq
      obtain ⟨others, rfl⟩ := List.head?_eq_some_iff.mp head_eq
      exact ⟨token, others, session.note (.directive found.keyword token.text), applied, rfl,
        accepted, rfl, apply_eq, later_eq⟩

/-- A dictionary that a session is changed to is the result of the operation. -/
theorem eq_ok_of_changeDictionary
    {result : Except Error.Cause Dictionary}
    (change_eq : session.changeDictionary result = .done after ()) :
    result = .ok after.dictionary := by
  cases result with
  | error cause => cases change_eq
  | ok dictionary =>
      obtain ⟨rfl, -⟩ := Outcome.done_inj.mp change_eq
      rfl

/-- A name that is no literal is checked before the dictionary is changed under it. -/
theorem changed_of_applyDirective
    {directive : Directive}
    (apply_eq : session.applyDirective inclusion directive name = .done after ()) :
    match directive with
    | .includeFile => True
    | .declareVariable =>
        Reader.isLiteral name = false ∧
          session.dictionary.declareVariable name = .ok after.dictionary
    | .deferWord =>
        Reader.isLiteral name = false ∧ session.dictionary.defer name = .ok after.dictionary := by
  unfold applyDirective at apply_eq
  cases directive with
  | includeFile => trivial
  | declareVariable | deferWord =>
      simp only [Reader.checkName] at apply_eq
      by_cases literal : Reader.isLiteral name = true
      · rw [if_pos literal] at apply_eq
        cases apply_eq
      · rw [if_neg literal] at apply_eq
        exact ⟨eq_false_of_ne_true literal, eq_ok_of_changeDictionary apply_eq⟩

/-- The argument of a directive that takes a word is an ordinary word. -/
theorem directed_of_execute
    {directive : Directive}
    (accepts : directive.accepts = [.word])
    (solid : Text.IsSolid name)
    (accepted : (session.execute environment source (directive.keyword ++ " " ++ name)).result =
      .ok ()) :
    Text.IsCallable name ∧
      ∃ (inside after : Session) (inclusion : Inclusion),
        inside.dictionary = session.dictionary ∧
        inside.applyDirective inclusion directive name = .done after () ∧
        (session.execute environment source (directive.keyword ++ " " ++ name)).state.dictionary =
          after.dictionary := by
  obtain ⟨tokens, outside, after, inclusion, tokens_eq, outside_eq, load_eq, dictionary_eq⟩ :=
    exists_loadTokens_of_execute accepted
  rw [Lexer.tokens_directive] at tokens_eq
  cases later_eq : Lexer.tokens name with
  | error cause =>
      rw [later_eq] at tokens_eq
      nomatch tokens_eq
  | ok others =>
      rw [later_eq] at tokens_eq
      obtain rfl := Except.ok.inj tokens_eq
      obtain ⟨token, rest, inside, middle, rfl, accepts_token, inside_eq, apply_eq, rest_eq⟩ :=
        apply_of_loadTokens load_eq
      rw [accepts, List.mem_singleton] at accepts_token
      cases token with
      | word characters =>
          obtain ⟨rfl, rfl, callable⟩ := Lexer.isCallable_of_tokens solid later_eq
          rw [loadTokens_nil] at rest_eq
          obtain ⟨rfl, -⟩ := Outcome.done_inj.mp rest_eq
          exact ⟨callable, inside, _, inclusion, inside_eq.trans outside_eq, apply_eq,
            dictionary_eq⟩
      | directive | header | terminator | literal | openQuotation | closeQuotation =>
          nomatch accepts_token

/-! ## Definitions of a word under any name -/

/-- The text that defines a word as the number one. -/
def definitionOf (name : String) : String :=
  ": " ++ name ++ " 1 ;"

theorem tokens_definitionOf (solid : Text.IsSolid name) :
    Lexer.tokens (definitionOf name) = .ok [.header name, .word "1", .terminator] := by
  have legible : ∀ value ∈ [Value.int 1], value.IsLegible := by
    intro value present
    rw [List.mem_singleton.mp present]
    exact Value.forall_within_of_atomic trivial (by simp)
  have text_eq : definitionOf name = ": " ++ name ++ " " ++ "1" ++ " ;" := by
    rw [definitionOf]
    simp only [String.append_assoc]
    rfl
  rw [text_eq]
  exact Lexer.tokens_definition solid legible (by decide)

/-- The definition is accepted unless the name is a literal or a primitive, and is made. -/
theorem execute_definitionOf
    (solid : Text.IsSolid name)
    (unread : Reader.isLiteral name = false)
    (free : Primitive.ofName? name = none) :
    (session.execute environment source (definitionOf name)).result = .ok () ∧
      session.dictionary.define name [.int 1] =
        .ok (session.execute environment source (definitionOf name)).state.dictionary := by
  have resolves : ∀ value ∈ [Value.int 1], Reader.Resolves session.dictionary value := by
    intro value present
    rw [List.mem_singleton.mp present]
    apply Value.forall_within_of_atomic
    · intro spelling spelling_eq
      obtain rfl := Option.some.inj spelling_eq
      rfl
    · simp
  exact execute_definition_of_resolves (tokens_definitionOf solid) unread free resolves

theorem accepts_definitionOf_iff (solid : Text.IsSolid name) :
    (session.execute environment source (definitionOf name)).result = .ok () ↔
      Reader.isLiteral name = false ∧ Primitive.ofName? name = none := by
  constructor
  · intro accepted
    obtain ⟨tokens, inside, after, inclusion, tokens_eq, -, load_eq, -⟩ :=
      exists_loadTokens_of_execute accepted
    rw [tokens_definitionOf solid] at tokens_eq
    obtain rfl := Except.ok.inj tokens_eq
    exact free_of_loadTokens load_eq
  · rintro ⟨unread, free⟩
    exact (execute_definitionOf solid unread free).1

/-! ## Words that nothing refers to -/

/-- No program comes to hold a reference to a word that cannot be called. -/
theorem id_ne_of_not_isCallable
    (reached : session.IsReached)
    {number : Nat}
    {word : Word}
    (entry_eq : session.dictionary.entry? number = some (.compiled number word))
    (uncallable : ¬Text.IsCallable word.name)
    {operations : List Operation}
    (loading : ∀ operation ∈ operations, operation.isLoading = true)
    {reference : WordRef}
    (held : (session.after operations).machine.toWorkspace.Holds (.wordRef reference)) :
    reference.id ≠ number := by
  intro id_eq
  have laterReached := reached.after loading
  have closed : (session.after operations).machine.IsClosed :=
    isKept_isClosed.of_isReached Machine.isClosed_initial laterReached
  have consistent := Workspace.IsClosed.isConsistent closed.carries.workspace
  have known : (session.after operations).dictionary.Knows reference :=
    consistent.references_known reference held
  obtain ⟨entry, found_eq, name_eq, -⟩ := known.exists_entry
  obtain ⟨laterEntry, later_eq, laterName_eq, -⟩ :=
    (extends_after session operations).exists_entry entry_eq
  rw [id_eq, later_eq, Option.some.injEq] at found_eq
  have written : (Token.word reference.name).IsWellFormed :=
    isLegible_of_holds laterReached held _ .self
  rw [← name_eq, ← found_eq, laterName_eq] at written
  exact uncallable written.2

/-- The word that is defined is the one that its name stands for, if the name can be called. -/
theorem exists_word_of_definitionOf
    (solid : Text.IsSolid name)
    (accepted : (session.execute environment source (definitionOf name)).result = .ok ()) :
    let later := (session.execute environment source (definitionOf name)).state
    ∃ number word,
      later.dictionary.lookup name = some (.compiled number word) ∧
      word.name = name ∧
      word.latest? = some [.int 1] ∧
      (Reader.StandsFor later.dictionary name (.wordRef ⟨number, name, word.current⟩) ↔
        Text.IsCallable name) := by
  intro later
  obtain ⟨unread, free⟩ := (accepts_definitionOf_iff solid).mp accepted
  have define_eq : session.dictionary.define name [.int 1] = .ok later.dictionary :=
    (execute_definitionOf solid unread free).2
  obtain ⟨number, lookup_eq⟩ := Dictionary.exists_lookup_of_revise define_eq
  let word := (session.dictionary.wordNamed name).define [.int 1]
  have name_eq : word.name = name := (Dictionary.name_and_entry?_of_lookup lookup_eq).1
  refine ⟨number, word, lookup_eq, name_eq, Word.latest?_define _ _, ?_⟩
  constructor
  · rintro ⟨characters, tokens_eq, -⟩
    exact (Lexer.isCallable_of_tokens solid tokens_eq).2.2
  · intro callable
    refine ⟨name, Lexer.tokens_of_isCallable solid callable, ?_⟩
    apply Reader.resolve_of_reference? unread
    rw [Dictionary.reference?, lookup_eq]
    rfl

/-- A name that is accepted for a variable stands for the variable. -/
theorem standsFor_of_declaration
    (solid : Text.IsSolid name)
    (accepted : (session.execute environment source (":variable " ++ name)).result = .ok ()) :
    Reader.StandsFor (session.execute environment source (":variable " ++ name)).state.dictionary
      name (.variableRef name) := by
  have accepts : Directive.declareVariable.accepts = [.word] := rfl
  obtain ⟨callable, inside, after, inclusion, -, apply_eq, dictionary_eq⟩ :=
    directed_of_execute accepts solid accepted
  obtain ⟨unread, declare_eq⟩ := changed_of_applyDirective apply_eq
  obtain ⟨free, later_eq⟩ := Dictionary.declareVariable_eq_ok declare_eq
  refine ⟨name, Lexer.tokens_of_isCallable solid callable, ?_⟩
  have same : session.execute environment source (":variable " ++ name) =
      session.execute environment source (Directive.declareVariable.keyword ++ " " ++ name) := rfl
  rw [same, dictionary_eq, later_eq]
  exact Reader.resolve_of_declared unread free (Store.contains_declare.mpr (.inr rfl))

/-- A name that is accepted for a reservation stands for the reserved layer. -/
theorem standsFor_of_reservation
    (solid : Text.IsSolid name)
    (accepted : (session.execute environment source (":defer " ++ name)).result = .ok ()) :
    let later := (session.execute environment source (":defer " ++ name)).state
    ∃ number word,
      later.dictionary.lookup name = some (.compiled number word) ∧
      word.isPending = true ∧
      Reader.StandsFor later.dictionary name (.wordRef ⟨number, name, word.current⟩) := by
  intro later
  have accepts : Directive.deferWord.accepts = [.word] := rfl
  obtain ⟨callable, inside, after, inclusion, inside_eq, apply_eq, dictionary_eq⟩ :=
    directed_of_execute accepts solid accepted
  obtain ⟨unread, defer_eq⟩ := changed_of_applyDirective apply_eq
  have later_eq : later.dictionary = after.dictionary := dictionary_eq
  rw [inside_eq, ← later_eq] at defer_eq
  obtain ⟨number, lookup_eq⟩ := Dictionary.exists_lookup_of_revise defer_eq
  refine ⟨number, (session.dictionary.wordNamed name).reserve, lookup_eq, Word.isPending_reserve,
    name, Lexer.tokens_of_isCallable solid callable, ?_⟩
  apply Reader.resolve_of_reference? unread
  rw [Dictionary.reference?, lookup_eq]
  rfl

/--
A name without blanks is accepted for a definition unless it is a literal or a primitive.
The name then stands for the new layer of its word if and only if it can be called.
Otherwise it is no word of any text, and whatever is loaded later, nothing that is held ever
refers to the word.  Every name that is accepted for a variable or for a reservation stands
for the variable, or for the reserved layer.
-/
theorem callable_iff_of_isReached
    (reached : session.IsReached)
    (solid : Text.IsSolid name)
    (environment : Environment)
    (source : String) :
    let defined := session.execute environment source (": " ++ name ++ " 1 ;")
    let declared := session.execute environment source (":variable " ++ name)
    let deferred := session.execute environment source (":defer " ++ name)
    (defined.result = .ok () ↔
      Reader.isLiteral name = false ∧ Primitive.ofName? name = none) ∧
    (defined.result = .ok () →
      ∃ number word,
        defined.state.dictionary.lookup name = some (.compiled number word) ∧
        word.latest? = some [.int 1] ∧
        (Reader.StandsFor defined.state.dictionary name
            (.wordRef ⟨number, name, word.current⟩) ↔ Text.IsCallable name) ∧
        (¬Text.IsCallable name →
          (∀ text tokens, Lexer.tokens text = .ok tokens → .word name ∉ tokens) ∧
          ∀ operations : List Operation,
            (∀ operation ∈ operations, operation.isLoading = true) →
            ∀ reference,
              (defined.state.after operations).machine.toWorkspace.Holds (.wordRef reference) →
              reference.id ≠ number)) ∧
    (declared.result = .ok () →
      Reader.StandsFor declared.state.dictionary name (.variableRef name)) ∧
    (deferred.result = .ok () →
      ∃ number word,
        deferred.state.dictionary.lookup name = some (.compiled number word) ∧
        word.isPending = true ∧
        Reader.StandsFor deferred.state.dictionary name
          (.wordRef ⟨number, name, word.current⟩)) := by
  intro defined declared deferred
  refine ⟨accepts_definitionOf_iff solid, fun accepted => ?_, standsFor_of_declaration solid,
    standsFor_of_reservation solid⟩
  obtain ⟨number, word, lookup_eq, rfl, latest_eq, standsFor_iff⟩ :=
    exists_word_of_definitionOf solid accepted
  refine ⟨number, word, lookup_eq, latest_eq, standsFor_iff, fun uncallable => ⟨?_, ?_⟩⟩
  · exact fun text tokens => Lexer.word_notMem_of_not_isCallable uncallable
  · intro operations loading reference
    let definition : Operation := .execute environment source (definitionOf word.name)
    have loadingDefinition : ∀ operation ∈ [definition], operation.isLoading = true :=
      List.forall_mem_singleton.mpr rfl
    have definedReached : defined.state.IsReached := reached.after loadingDefinition
    exact id_ne_of_not_isCallable definedReached
      (Dictionary.name_and_entry?_of_lookup lookup_eq).2 uncallable loading

/-- A word named as an opening bracket cannot be called, and one named as a pair of them can. -/
theorem callable_iff_of_isReached_bracket :
    ∃ (session : Session) (environment : Environment),
      session.IsReached ∧
      (session.execute environment "<input>" (": " ++ "[" ++ " 1 ;")).result = .ok () ∧
      (∀ text tokens, Lexer.tokens text = .ok tokens → .word "[" ∉ tokens) ∧
      (session.execute environment "<input>" (": " ++ "[]" ++ " 1 ;")).result = .ok () ∧
      ∃ reference,
        Reader.StandsFor
          (session.execute environment "<input>" (": " ++ "[]" ++ " 1 ;")).state.dictionary
          "[]" (.wordRef reference) := by
  let environment : Environment := ⟨.empty [], 9⟩
  let operations : List Operation := [.execute environment "<input>" ":defer [] : twice 2 * ;"]
  let session := (start environment false .standard).after operations
  have reached : session.IsReached :=
    ⟨environment, false, .standard, operations, by decide, rfl⟩
  obtain ⟨bracket_iff, bracket, -⟩ :=
    callable_iff_of_isReached reached (by decide : Text.IsSolid "[") environment "<input>"
  obtain ⟨pair_iff, pair, -⟩ :=
    callable_iff_of_isReached reached (by decide : Text.IsSolid "[]") environment "<input>"
  have bracketAccepted := bracket_iff.mpr (by decide)
  have pairAccepted := pair_iff.mpr (by decide)
  obtain ⟨_, _, -, -, -, uncalled⟩ := bracket bracketAccepted
  obtain ⟨number, word, -, -, called_iff, -⟩ := pair pairAccepted
  exact ⟨session, environment, reached, bracketAccepted, (uncalled (by decide)).1, pairAccepted,
    _, called_iff.mpr (by decide)⟩

end Session

end Concatenative
