import Concatenative.Proofs.Printing

/-!
# Reading back what is printed

What a session prints for a value can be read back, as long as names still stand for what
they stood for when the value was read: its references lead to the newest layers of their
words, its variables are declared, and its integers are within the limit on numerals.  So
a word can be defined anew from what is printed for it.
-/

namespace Concatenative

namespace Dictionary

/-- A value itself, whatever it holds, would be read the same way now. -/
def IsNewest (dictionary : Dictionary) : Value → Prop
  | .int number => Numeral.isWritable number = true
  | .variableRef name => dictionary.store.contains name = true
  | .wordRef reference =>
      ∃ entry, dictionary.entry? reference.id = some entry ∧ reference.layer = entry.current
  | .nil | .bool _ | .text _ | .quotation _ => True

/--
All references to words in a value lead to the newest layers, all references to variables
lead to declared ones, and all integers are within the limit on numerals.
-/
def IsCurrent (dictionary : Dictionary) (value : Value) : Prop :=
  ∀ part : Value, part.Within value → dictionary.IsNewest part

instance (dictionary : Dictionary) : DecidablePred dictionary.IsNewest
  | .int _ => inferInstanceAs (Decidable (_ = _))
  | .variableRef _ => inferInstanceAs (Decidable (_ = _))
  | .wordRef reference =>
      match entry_eq : dictionary.entry? reference.id with
      | none => .isFalse (by simp [IsNewest, entry_eq])
      | some entry =>
          decidable_of_iff (reference.layer = entry.current) (by simp [IsNewest, entry_eq])
  | .nil | .bool _ | .text _ | .quotation _ => .isTrue trivial

instance (dictionary : Dictionary) : DecidablePred dictionary.IsCurrent :=
  Value.decideWithin dictionary.IsNewest

/-- A known reference to the newest layer is what its name stands for. -/
theorem Knows.reference?_eq
    {dictionary : Dictionary}
    {reference : WordRef}
    (known : dictionary.Knows reference)
    (newest : dictionary.IsNewest (.wordRef reference)) :
    dictionary.reference? reference.name = some reference := by
  obtain ⟨entry, lookup_eq, id_eq, -⟩ := known
  obtain ⟨found, found_eq, layer_eq⟩ := newest
  have entry_eq := (name_and_entry?_of_lookup lookup_eq).2
  rw [id_eq, found_eq, Option.some.injEq] at entry_eq
  subst entry_eq
  rw [reference?, lookup_eq, Option.map_some, id_eq, ← layer_eq]

end Dictionary

/-- The word that a value is written as, if it is written as one. -/
def Value.spelling? : Value → Option String
  | nil => some "nil"
  | bool truth => some (if truth then "true" else "false")
  | int number => some (Numeral.write number)
  | variableRef name => some name
  | wordRef reference => some reference.name
  | text _ | quotation _ => none

namespace Reader

variable {dictionary : Dictionary}

/-- All words in the written form of a value stand for what they were written for. -/
def Resolves (dictionary : Dictionary) (value : Value) : Prop :=
  ∀ part : Value, part.Within value → ∀ spelling, part.spelling? = some spelling →
    resolve dictionary spelling = .ok part

/-- A value that is up to date is what its written form stands for. -/
theorem resolve_spelling?
    (wellFormed : dictionary.WellFormed)
    (plain : HasPlainNames dictionary)
    {value : Value}
    (newest : dictionary.IsNewest value)
    (known : ∀ reference, value = .wordRef reference → dictionary.Knows reference)
    (filled : value ≠ .nil)
    {spelling : String}
    (spelling_eq : value.spelling? = some spelling) :
    resolve dictionary spelling = .ok value := by
  cases value with
  | nil => exact absurd rfl filled
  | text _ | quotation _ => nomatch spelling_eq
  | bool truth =>
      obtain rfl := Option.some.inj spelling_eq
      cases truth <;> rfl
  | int number =>
      obtain rfl := Option.some.inj spelling_eq
      have rule : Rule.numeral.result? dictionary (Numeral.write number) =
          some (.ok (.int number)) := by
        rw [Rule.result?, if_pos (Numeral.isNumeral_write number), Numeral.read_write newest]
        rfl
      exact Rule.resolve_of_result? wellFormed plain rule
  | variableRef name =>
      obtain rfl := Option.some.inj spelling_eq
      have declared : dictionary.store.contains name = true := newest
      have rule : Rule.storedVariable.result? dictionary name = some (.ok (.variableRef name)) := by
        rw [Rule.result?, if_pos declared]
      exact Rule.resolve_of_result? wellFormed plain rule
  | wordRef reference =>
      obtain rfl := Option.some.inj spelling_eq
      have rule : Rule.word.result? dictionary reference.name =
          some (.ok (.wordRef reference)) := by
        rw [Rule.result?, (known reference rfl).reference?_eq newest, Option.map_some]
      exact Rule.resolve_of_result? wellFormed plain rule

mutual

/-- The tokens of a value are read as the value, within a quotation. -/
theorem readQuotation_tokens
    (value : Value)
    (resolves : Resolves dictionary value)
    (content : List Value)
    (outer : List (List Value))
    (rest : List Token) :
    readQuotation dictionary content outer (value.tokens ++ rest) =
      readQuotation dictionary (value :: content) outer rest := by
  cases value with
  | nil | bool _ | int _ | variableRef _ | wordRef _ =>
      have resolve_eq := resolves _ .self _ rfl
      simp only [Value.tokens, List.cons_append, List.nil_append, readQuotation, resolve_eq]
  | text characters => rfl
  | quotation values =>
      -- What was read so far waits in `outer` until the bracket closes.
      have inside := readQuotation_tokensEach values
        (fun value present part within => resolves part (.inside present within))
        [] (content :: outer) (.closeQuotation :: rest)
      simp only [Value.tokens, List.cons_append, List.append_assoc, List.nil_append,
        readQuotation, inside, List.append_nil, List.reverse_reverse]

/-- The tokens of values are read as the values, within a quotation. -/
theorem readQuotation_tokensEach
    (values : List Value)
    (resolves : ∀ value ∈ values, Resolves dictionary value)
    (content : List Value)
    (outer : List (List Value))
    (rest : List Token) :
    readQuotation dictionary content outer (Value.tokensEach values ++ rest) =
      readQuotation dictionary (values.reverse ++ content) outer rest := by
  cases values with
  | nil => rfl
  | cons value others =>
      rw [List.forall_mem_cons] at resolves
      rw [Value.tokensEach, List.append_assoc, readQuotation_tokens value resolves.1,
        readQuotation_tokensEach others resolves.2, List.reverse_cons, List.append_assoc,
        List.singleton_append]

end

/-- The tokens of a value are read as the value. -/
theorem readValue_tokens
    {value : Value}
    (resolves : Resolves dictionary value)
    (rest : List Token) :
    ∃ first others, value.tokens = first :: others ∧
      readValue dictionary first (others ++ rest) = .ok (value, rest) := by
  cases value with
  | nil | bool _ | int _ | variableRef _ | wordRef _ =>
      refine ⟨_, [], rfl, ?_⟩
      have resolve_eq := resolves _ .self _ rfl
      simp only [readValue, resolve_eq, Except.map, List.nil_append]
  | text characters => exact ⟨_, [], rfl, rfl⟩
  | quotation values =>
      refine ⟨.openQuotation, _, rfl, ?_⟩
      have inside := readQuotation_tokensEach values
        (fun value present part within => resolves part (.inside present within))
        [] [] (.closeQuotation :: rest)
      simp only [readValue, List.append_assoc, List.singleton_append, inside, readQuotation,
        List.append_nil, List.reverse_reverse]

/-- The tokens of values are read as the values, within a definition. -/
theorem readBody_tokensEach
    {values : List Value}
    (resolves : ∀ value ∈ values, Resolves dictionary value)
    (name : String)
    (body : List Value)
    (rest : List Token) :
    readBody dictionary name body (Value.tokensEach values ++ rest) =
      readBody dictionary name (values.reverse ++ body) rest := by
  induction values generalizing body with
  | nil => rfl
  | cons value others inductionHypothesis =>
      rw [List.forall_mem_cons] at resolves
      obtain ⟨first, later, tokens_eq, read_eq⟩ :=
        readValue_tokens resolves.1 (Value.tokensEach others ++ rest)
      rw [Value.tokensEach, List.append_assoc, tokens_eq, List.cons_append,
        readBody_of_readValue read_eq, inductionHypothesis resolves.2, List.reverse_cons,
        List.append_assoc, List.singleton_append]

/-- The tokens of values are read as a definition with a name that is not a literal. -/
theorem readDefinition_tokensEach
    {name : String}
    (unread : isLiteral name = false)
    {values : List Value}
    (resolves : ∀ value ∈ values, Resolves dictionary value) :
    readDefinition dictionary name (Value.tokensEach values ++ [.terminator]) =
      .ok (values, []) := by
  have checked : checkName name = .ok () := by
    rw [checkName, unread]
    rfl
  rw [readDefinition, checked]
  simp only
  rw [readBody_tokensEach resolves, readBody, List.append_nil, List.reverse_reverse]

end Reader

namespace Session

variable {session : Session}

/-- A definition that the dictionary accepts is made. -/
theorem define_eq_done
    {name : String}
    {body : Body}
    {later : Dictionary}
    (define_eq : session.dictionary.define name body = .ok later) :
    ∃ after, session.define name body = .done after () ∧ after.dictionary = later := by
  unfold define
  rw [define_eq, changeDictionary, Outcome.andThen_done]
  split
  · exact ⟨_, rfl, rfl⟩
  · exact ⟨_, rfl, rfl⟩

/-- A text that is a definition is executed by making the definition. -/
theorem execute_definition
    {environment : Environment}
    {source name text : String}
    {tokens : List Token}
    {body : Body}
    {later : Dictionary}
    (tokens_eq : Lexer.tokens text = .ok (.header name :: tokens))
    (read_eq : Reader.readDefinition session.dictionary name tokens = .ok (body, []))
    (define_eq : session.dictionary.define name body = .ok later) :
    (session.execute environment source text).result = .ok () ∧
      (session.execute environment source text).state.dictionary = later := by
  unfold execute
  rw [Lexer.tokenize_of_tokens tokens_eq source]
  simp only [loadSource]
  let inside := { session with source := some source }.note
    (.loading source (Token.header name :: tokens).length)
  obtain ⟨after, after_eq, dictionary_eq⟩ : ∃ after,
      inside.define name body = .done after () ∧ after.dictionary = later :=
    define_eq_done define_eq
  have form_eq (inclusion : Inclusion) :
      inside.loadForm environment.fuel inclusion (.header name) tokens = .done after [] := by
    have inside_eq : Reader.readDefinition inside.dictionary name tokens = .ok (body, []) :=
      read_eq
    simp only [loadForm, inside_eq, after_eq, Outcome.andThen_done]
  rw [loadTokens_cons, form_eq, Outcome.andThen_done, loadTokens_nil]
  exact ⟨rfl, dictionary_eq⟩

/-- The written form of a definition is accepted under a name that a word can have. -/
theorem execute_definition_of_resolves
    {environment : Environment}
    {source name text : String}
    {body : Body}
    (tokens_eq : Lexer.tokens text =
      .ok (.header name :: (Value.tokensEach body ++ [.terminator])))
    (unread : Reader.isLiteral name = false)
    (free : Primitive.ofName? name = none)
    (resolves : ∀ value ∈ body, Reader.Resolves session.dictionary value) :
    (session.execute environment source text).result = .ok () ∧
      session.dictionary.define name body =
        .ok (session.execute environment source text).state.dictionary := by
  obtain ⟨later, define_eq⟩ : ∃ later, session.dictionary.define name body = .ok later :=
    session.dictionary.exists_revise_eq free (.define body)
  have read_eq := Reader.readDefinition_tokensEach unread resolves
  obtain ⟨result_eq, dictionary_eq⟩ := execute_definition tokens_eq read_eq define_eq
  rw [dictionary_eq]
  exact ⟨result_eq, define_eq⟩

/-- What is held and up to date is what its written form stands for. -/
theorem resolves_of_holds
    (reached : session.IsReached)
    {value : Value}
    (held : session.machine.toWorkspace.Holds value)
    (filled : value ≠ .nil)
    (current : session.dictionary.IsCurrent value) :
    Reader.Resolves session.dictionary value := by
  have closed : session.machine.IsClosed :=
    isKept_isClosed.of_isReached Machine.isClosed_initial reached
  have plain : Reader.HasPlainNames session.dictionary :=
    isKept_hasPlainNames.of_isReached (fun _ => hasPlainNames_initial) reached
  have workspaceClosed : session.machine.toWorkspace.IsClosed := closed.carries.workspace
  intro part within spelling spelling_eq
  -- The value itself is data or code, and whatever is deeper is code.
  have coded : part = value ∨ session.dictionary.IsCode part := by
    rcases workspaceClosed.isDatum_or_isCode held with datum | coded
    · exact datum.within within
    · exact .inr (coded.within within)
  refine Reader.resolve_spelling? closed.wellFormed plain (current part within) ?_ ?_ spelling_eq
  · rintro reference rfl
    rcases coded with rfl | coded
    · exact workspaceClosed.isConsistent.references_known reference held
    · exact coded _ .self
  · rintro rfl
    rcases coded with rfl | coded
    · exact filled rfl
    · exact coded _ .self

/--
Executing a definition with what is printed for a word gives the word a new layer with the
same body.
-/
theorem execute_description
    (reached : session.IsReached)
    {number : Nat}
    {word : Word}
    {body : Body}
    (lookup_eq : session.dictionary.lookup word.name = some (.compiled number word))
    (latest_eq : word.latest? = some body)
    (current : ∀ value ∈ body, session.dictionary.IsCurrent value)
    {environment : Environment}
    {source text : String}
    (text_eq : text =
      ": " ++ word.name ++ " " ++ (Entry.compiled number word).describeWith .plain ++ " ;") :
    (session.execute environment source text).result = .ok () ∧
      (session.execute environment source text).state.dictionary.lookup word.name =
        some (.compiled number { word with layers := word.layers ++ [some body] }) := by
  have closed : session.machine.IsClosed :=
    isKept_isClosed.of_isReached Machine.isClosed_initial reached
  have consistent := Workspace.IsClosed.isConsistent closed.carries.workspace
  have named : session.dictionary.HasName word.name := by
    left
    rw [Dictionary.contains_eq, lookup_eq, Option.isSome_some]
  have unread : Reader.isLiteral word.name = false :=
    isKept_hasPlainNames.of_isReached (fun _ => hasPlainNames_initial) reached _ named
  obtain ⟨index, -, -, word_eq⟩ := Dictionary.entry?_eq_compiled_iff.mp
    (Dictionary.name_and_entry?_of_lookup lookup_eq).2
  have inWords : word ∈ session.dictionary.words := List.mem_of_getElem? word_eq
  have inLayers := Word.mem_layers_of_latest? latest_eq
  have held : ∀ value ∈ body, session.machine.toWorkspace.Holds value :=
    fun value present => .inBody inWords inLayers present .self
  have resolves : ∀ value ∈ body, Reader.Resolves session.dictionary value := by
    intro value present
    refine resolves_of_holds reached (held value present) ?_ (current value present)
    rintro rfl
    exact consistent.bodies_filled word inWords body inLayers present
  have described : (Entry.compiled number word).describeWith .plain =
      String.intercalate " " (body.map (Value.displayWith .plain)) := by
    rw [Entry.describeWith, latest_eq]
  have tokens_eq := Lexer.tokens_definition (isSolid_of_hasName reached named)
    (fun value present => isLegible_of_holds reached (held value present)) described
  rw [← text_eq] at tokens_eq
  obtain ⟨later, define_eq, later_eq⟩ := Dictionary.lookup_define lookup_eq body
  obtain ⟨result_eq, dictionary_eq⟩ := execute_definition tokens_eq
    (Reader.readDefinition_tokensEach unread resolves) define_eq
  refine ⟨result_eq, ?_⟩
  rw [dictionary_eq, later_eq, Word.define_of_latest? latest_eq]

/--
In a session that loading reaches, what is printed for a value, which is its form in the
colours of the terminal, is read back as the value once these are taken as empty, to the
last token: wherever the value is held, unless it is the content of a variable that nothing
was stored to, and as long as it is up to date.  And if a word has a body of such values,
executing a definition with what is printed for the word, again with the colours taken as
empty, gives it a new layer with the same body.
-/
theorem readsBack_of_isReached
    {session : Session}
    (reached : session.IsReached) :
    (∀ value, session.machine.toWorkspace.Holds value → value ≠ .nil →
      session.dictionary.IsCurrent value →
      value.display = value.displayWith Text.Color.paint ∧
        ∃ token rest, Lexer.tokens (value.displayWith .plain) = .ok (token :: rest) ∧
          Reader.readValue session.dictionary token rest = .ok (value, [])) ∧
    ∀ number word body,
      session.dictionary.lookup word.name = some (.compiled number word) →
      word.latest? = some body →
      (∀ value ∈ body, session.dictionary.IsCurrent value) →
      ∀ environment source,
        let entry := Entry.compiled number word
        let text := ": " ++ word.name ++ " " ++ entry.describeWith .plain ++ " ;"
        let outcome := session.execute environment source text
        entry.describe = entry.describeWith Text.Color.paint ∧
          outcome.result = .ok () ∧
          outcome.state.dictionary.lookup word.name =
            some (.compiled number { word with layers := word.layers ++ [some body] }) := by
  constructor
  · intro value held filled current
    have resolves := resolves_of_holds reached held filled current
    obtain ⟨first, others, tokens_eq, read_eq⟩ := Reader.readValue_tokens resolves []
    rw [List.append_nil] at read_eq
    refine ⟨rfl, first, others, ?_, read_eq⟩
    have printed := Grammar.readTokens_plain value (isLegible_of_holds reached held) [] rfl
    rw [List.append_nil, Grammar.readTokens_nil, tokens_eq] at printed
    rw [Lexer.tokens_eq, printed, Except.map, List.append_nil]
  · intro number word body lookup_eq latest_eq current environment source entry text outcome
    exact ⟨rfl, execute_description reached lookup_eq latest_eq current rfl⟩

/-- A quotation with a literal, a word and a variable is read back, and so is the word. -/
theorem readsBack_of_isReached_quotation :
    ∃ (session : Session) (environment : Environment) (value : Value),
      session.IsReached ∧
      value ∈ session.machine.stack ∧
      value.displayWith .plain = "[ \"a b\" [ twice total ] -7 ]" ∧
      (∃ token rest, Lexer.tokens (value.displayWith .plain) = .ok (token :: rest) ∧
        Reader.readValue session.dictionary token rest = .ok (value, [])) ∧
      (session.execute environment "<input>" ": twice 2 * ;").result = .ok () := by
  let environment : Environment := ⟨.empty [], 9⟩
  let text := ":variable total : twice 2 * ; [ \"a b\" [ twice total ] -7 ]"
  let operations : List Operation := [.execute environment "<input>" text]
  let session := (start environment false .standard).after operations
  have reached : session.IsReached :=
    ⟨environment, false, .standard, operations, by decide, rfl⟩
  obtain ⟨value, present, plain_eq, current⟩ : ∃ value ∈ session.machine.stack,
      value.displayWith .plain = "[ \"a b\" [ twice total ] -7 ]" ∧
        session.dictionary.IsCurrent value := by
    decide +kernel
  have held : session.machine.toWorkspace.Holds value := .onStack present .self
  have filled : value ≠ .nil := by
    rintro rfl
    exact absurd plain_eq (by decide)
  obtain ⟨word, inWords, name_eq, described, defined, bodyCurrent⟩ :
      ∃ word ∈ session.dictionary.words, word.name = "twice" ∧
        (Entry.compiled 0 word).describeWith .plain = "2 *" ∧ word.latest?.isSome = true ∧
        ∀ body ∈ word.latest?, ∀ member ∈ body, session.dictionary.IsCurrent member := by
    decide +kernel
  obtain ⟨body, latest_eq⟩ := Option.isSome_iff_exists.mp defined
  obtain ⟨index, index_eq⟩ := List.getElem?_of_mem inWords
  -- The number of a word is no part of its description.
  have shown : (Entry.compiled (index + 1) word).describeWith .plain = "2 *" := described
  have readsBack := readsBack_of_isReached reached
  have redefined := (readsBack.2 _ word body (Dictionary.lookup_of_getElem? index_eq) latest_eq
    (bodyCurrent body latest_eq) environment "<input>").2.1
  rw [name_eq, shown] at redefined
  exact ⟨session, environment, value, reached, present, plain_eq,
    (readsBack.1 value held filled current).2, redefined⟩

end Session
end Concatenative
