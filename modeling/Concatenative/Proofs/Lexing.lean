import Concatenative.Proofs.Grammar

/-!
# The lexer and the grammar

The lexer reads a text as the grammar has it.  It also looks at the character before a
parenthesis or a bracket, and where a lexeme starts it could do without: every lexeme ends
behind a boundary or in front of one, so what stands alone ahead stands alone behind.
-/

namespace Concatenative

namespace Cursor

/-- The position is behind a boundary or in front of one. -/
def IsAtBoundary (cursor : Cursor) : Prop :=
  Text.isBoundary cursor.before.head? = true ∨ Text.isBoundary cursor.after.head? = true

/-- The start of a text is a boundary. -/
theorem isAtBoundary_ofText (text : String) : (ofText text).IsAtBoundary :=
  .inl rfl

theorem peek_zero (cursor : Cursor) : cursor.peek 0 = cursor.after.head? := by
  rw [List.head?_eq_getElem?]
  rfl

theorem peek_behind (cursor : Cursor) : cursor.peek (-1) = cursor.before.head? := by
  rw [List.head?_eq_getElem?]
  rfl

theorem after_advance (cursor : Cursor) : cursor.advance.after = cursor.after.tail := by
  unfold advance consume
  split <;> simp_all

@[simp] theorem advance_cons (first : Char) (before rest : List Char) :
    (Cursor.mk before (first :: rest)).advance = ⟨first :: before, rest⟩ := rfl

theorem peek_ahead (first : Char) (before rest : List Char) :
    (Cursor.mk before (first :: rest)).peek 1 = rest.head? := by
  rw [List.head?_eq_getElem?]
  rfl

end Cursor

namespace Lexer

open Error (Cause)
open Grammar

theorem standsAlone_eq (character next : Char) (before rest : List Char) :
    standsAlone character ⟨before, next :: rest⟩ =
      (next == character && Text.isBoundary before.head? && Text.isBoundary rest.head?) := by
  unfold standsAlone
  rw [Cursor.peek_zero, Cursor.peek_behind, Cursor.peek_ahead]
  rfl

/-- At a boundary, what stands behind a parenthesis or a bracket does not matter. -/
theorem standsAlone_of_isAtBoundary
    {cursor : Cursor}
    (bounded : cursor.IsAtBoundary)
    {character : Char}
    (solid : Text.isBlank character = false) :
    standsAlone character cursor =
      (cursor.peek 0 == some character && Text.isBoundary (cursor.peek 1)) := by
  unfold standsAlone
  by_cases here : cursor.peek 0 = some character
  · have behind : Text.isBoundary (cursor.peek (-1)) = true := by
      rw [Cursor.peek_behind]
      refine bounded.resolve_right fun ahead => ?_
      rw [← Cursor.peek_zero, here, Text.isBoundary_some, solid] at ahead
      exact Bool.false_ne_true ahead
    rw [behind, Bool.and_true]
  · rw [beq_eq_false_iff_ne.mpr here, Bool.false_and, Bool.false_and]

/-- The lexer closes a literal at the first place that closes it. -/
theorem splitLiteral_eq (text : List Char) :
    splitLiteral text =
      (splitBefore? closesLiteral text).map fun (content, closing) => (content, closing.tail) := by
  induction text with
  | nil => rfl
  | cons character rest inductionHypothesis =>
      simp only [splitLiteral, splitBefore?]
      by_cases closes : closesLiteral (character :: rest) = true
      · have quote : character = '"' := by
          by_contra other
          rw [closesLiteral_of_ne other] at closes
          exact Bool.false_ne_true closes
        subst quote
        rw [if_pos ⟨rfl, closes⟩, if_pos closes]
        rfl
      · rw [if_neg closes, if_neg, inductionHypothesis, Option.map_map, Option.map_map]
        · rfl
        · rintro ⟨rfl, bounded⟩
          exact closes bounded

/-- The lexer closes a comment at the first place that closes it. -/
theorem after_skipComment (before : List Char) (last : Char) (text : List Char) :
    (skipComment (last :: before) text).after =
      ((splitBefore? closesComment (last :: text)).map fun (_, closing) =>
        closing.drop 2).getD [] := by
  induction text generalizing before last with
  | nil => simp [skipComment, splitBefore?, closesComment]
  | cons character rest inductionHypothesis =>
      have closes_eq : standsAlone ')' ⟨last :: before, character :: rest⟩ =
          closesComment (last :: character :: rest) := by
        rw [standsAlone_eq]
        by_cases parenthesis : character = ')'
        · subst parenthesis
          simp
        · rw [closesComment_of_ne parenthesis, beq_eq_false_iff_ne.mpr parenthesis]
          rfl
      simp only [skipComment, closes_eq]
      rw [splitBefore?]
      split
      · simp
      · rw [inductionHypothesis, Option.map_map]
        rfl

/-- A comment that opens closes at the first place behind the opening that closes it. -/
theorem after_skipComment_opening (before rest : List Char) :
    (skipComment ('(' :: before) rest).after =
      ((splitBefore? closesComment rest).map fun (_, closing) => closing.drop 2).getD [] := by
  have opens : closesComment ('(' :: rest) = false := by
    unfold closesComment
    split
    · rename_i blank later text_eq
      rw [← (List.cons.inj text_eq).1]
      rfl
    · rfl
  rw [after_skipComment, splitBefore?, if_neg (Bool.eq_false_iff.mp opens), Option.map_map]
  rfl

/-- A lexeme is read as the grammar has it, up to a boundary. -/
inductive Agrees :
    Except Cause (Option Token × List Char) → Except Cause (Option Token × Cursor) → Prop
  | rejected {cause : Cause} : Agrees (.error cause) (.error cause)
  | read {token : Option Token} {next : Cursor} {later : List Char} :
      next.after = later →
      next.IsAtBoundary →
      Agrees (.ok (token, later)) (.ok (token, next))

/-- What ends a run of word characters is a boundary. -/
theorem isAtBoundary_readWord (cursor : Cursor) : (readWord cursor).2.IsAtBoundary :=
  .inr (isBoundary_head?_dropWhile cursor.after)

/-- The rest of a line ends behind a line feed or at the end of the text. -/
theorem isAtBoundary_skipLine (cursor : Cursor) : (skipLine cursor).IsAtBoundary := by
  unfold skipLine
  cases after_eq : (cursor.skipRun (· != '\n')).after with
  | nil =>
      right
      simp [Cursor.advance, Cursor.consume, after_eq]
  | cons feed rest =>
      left
      have stopped := List.head?_dropWhile_not (· != '\n') cursor.after
      have dropped_eq : cursor.after.dropWhile (· != '\n') = feed :: rest := after_eq
      simp only [dropped_eq, List.head?_cons, bne_eq_false_iff_eq] at stopped
      simp only [Cursor.advance, Cursor.consume, after_eq, List.head?_cons, stopped]
      rfl

/-- A header or a directive is read as the grammar has it, wherever it stands. -/
theorem agrees_readMarker
    {rest : List Char}
    {result : Except Cause (Option Token × List Char)}
    (production : Production ':' rest result)
    (before : List Char) :
    Agrees result
      ((readMarker ⟨before, ':' :: rest⟩).map fun (token, next) => (some token, next)) := by
  unfold readMarker
  rw [Cursor.peek_ahead]
  cases production with
  | blank blank => exact absurd blank (by decide)
  | word solid unmarked => simp at unmarked
  | header blank named =>
      simp only [List.head?_cons, blank, if_true, Cursor.advance_cons, readWord,
        Cursor.skipRun, Cursor.takeRun, List.dropWhile_cons]
      rw [if_neg (by simpa using named)]
      exact .read rfl (isAtBoundary_readWord ⟨_, _⟩)
  | missingName blank nameless =>
      simp only [List.head?_cons, blank, if_true, Cursor.advance_cons, readWord,
        Cursor.skipRun, Cursor.takeRun, List.dropWhile_cons]
      rw [if_pos (by simpa using nameless)]
      exact .rejected
  | directive solid alphanumeric =>
      simp only [List.head?_cons, solid, Bool.false_eq_true, if_false, alphanumeric, if_true,
        readWord, Cursor.takeRun]
      exact .read rfl (isAtBoundary_readWord ⟨before, _⟩)
  | strayMarker stray =>
      cases rest with
      | nil => exact .rejected
      | cons follower rest =>
          obtain ⟨solid, other⟩ := stray follower rfl
          simp only [List.head?_cons, solid, other, Bool.false_eq_true, if_false]
          exact .rejected

/-- A literal is read as the grammar has it, wherever it stands. -/
theorem agrees_readLiteral
    {rest : List Char}
    {result : Except Cause (Option Token × List Char)}
    (production : Production '"' rest result)
    (before : List Char) :
    Agrees result
      ((readLiteral ⟨before, '"' :: rest⟩).map fun (token, next) => (some token, next)) := by
  simp only [readLiteral, Cursor.advance_cons, splitLiteral_eq]
  cases production with
  | blank blank => exact absurd blank (by decide)
  | word solid unmarked => simp at unmarked
  | unclosedLiteral split_eq =>
      rw [split_eq]
      exact .rejected
  | literal split_eq =>
      obtain ⟨later, rfl, ahead⟩ := exists_of_closesLiteral (splitBefore?_eq_some split_eq).2
      rw [split_eq]
      exact .read rfl (.inr ahead)

/-- A comment ends in front of a boundary. -/
theorem isAtBoundary_skipComment (before rest : List Char) :
    (skipComment ('(' :: before) rest).IsAtBoundary := by
  right
  rw [after_skipComment_opening]
  cases split_eq : splitBefore? closesComment rest with
  | none => rfl
  | some parts =>
      obtain ⟨remark, closing⟩ := parts
      obtain ⟨blank, later, rfl, behind⟩ :=
        exists_of_closesComment (splitBefore?_eq_some split_eq).2
      exact behind

section Lexemes

variable {first : Char} {cursor : Cursor}

/-- No blank starts a lexeme of another kind. -/
theorem readLexeme_of_isBlank (blank : Text.isBlank first = true) :
    readLexeme first cursor = .ok (none, cursor.advance) := by
  have other : ∀ {character : Char}, Text.isBlank character = false → first ≠ character := by
    rintro character solid rfl
    rw [blank] at solid
    exact Bool.false_ne_true solid.symm
  unfold readLexeme
  rw [if_neg (other (by decide)), if_neg (other (by decide)),
    if_neg fun opening => other (by decide) opening.1, if_pos blank]

theorem readLexeme_comment (stands : standsAlone '(' cursor = true) :
    readLexeme '(' cursor = .ok (none, skipComment cursor.advance.before cursor.advance.after) := by
  unfold readLexeme
  rw [if_neg (by decide), if_neg (by decide), if_pos ⟨rfl, stands⟩]

theorem readLexeme_openQuotation (stands : standsAlone '[' cursor = true) :
    readLexeme '[' cursor = .ok (some .openQuotation, cursor.advance) := by
  unfold readLexeme
  rw [if_neg (by decide), if_neg (by decide), if_neg (by simp), if_neg (by decide),
    if_neg (by decide), if_pos ⟨rfl, stands⟩]

theorem readLexeme_closeQuotation (stands : standsAlone ']' cursor = true) :
    readLexeme ']' cursor = .ok (some .closeQuotation, cursor.advance) := by
  unfold readLexeme
  rw [if_neg (by decide), if_neg (by decide), if_neg (by simp), if_neg (by decide),
    if_neg (by decide), if_neg (by simp), if_pos ⟨rfl, stands⟩]

/-- What starts like no other lexeme is a word. -/
theorem readLexeme_word
    (solid : Text.isBlank first = false)
    (unmarked : first ∉ ['#', '"', ':'])
    (unbounded : first ∈ ['(', '[', ']'] → standsAlone first cursor = false) :
    readLexeme first cursor =
      .ok (some (wordToken (readWord cursor).1), (readWord cursor).2) := by
  simp only [List.mem_cons, List.not_mem_nil, or_false, not_or] at unmarked
  have fallen : ∀ character ∈ ['(', '[', ']'],
      ¬(first = character ∧ standsAlone character cursor = true) := by
    rintro character special ⟨rfl, stands⟩
    rw [unbounded special] at stands
    exact Bool.false_ne_true stands
  unfold readLexeme
  rw [if_neg unmarked.1, if_neg unmarked.2.1, if_neg (fallen '(' (by simp)),
    if_neg (Bool.eq_false_iff.mp solid), if_neg unmarked.2.2, if_neg (fallen '[' (by simp)),
    if_neg (fallen ']' (by simp))]

end Lexemes

/-- At a boundary a lexeme is read as the grammar has it. -/
theorem agrees_readLexeme
    {first : Char}
    {before rest : List Char}
    (bounded : Cursor.IsAtBoundary ⟨before, first :: rest⟩) :
    Agrees (Grammar.readLexeme first rest) (readLexeme first ⟨before, first :: rest⟩) := by
  have alone : ∀ {character : Char}, Text.isBlank character = false →
      standsAlone character ⟨before, first :: rest⟩ =
        (first == character && Text.isBoundary rest.head?) := by
    intro character solid
    rw [standsAlone_of_isAtBoundary bounded solid, Cursor.peek_zero, Cursor.peek_ahead]
    rfl
  have production := production_readLexeme first rest
  generalize Grammar.readLexeme first rest = result at production ⊢
  by_cases marker : first = ':'
  · subst marker
    exact agrees_readMarker production before
  by_cases quote : first = '"'
  · subst quote
    exact agrees_readLiteral production before
  cases production with
  | header | missingName | directive | strayMarker => exact absurd rfl marker
  | literal | unclosedLiteral => exact absurd rfl quote
  | blank blank =>
      rw [readLexeme_of_isBlank blank]
      exact .read rfl (.inl blank)
  | line => exact .read (Cursor.after_advance _) (isAtBoundary_skipLine _)
  | comment ahead split_eq | unclosedComment ahead split_eq =>
      have after_eq := after_skipComment_opening before rest
      rw [split_eq] at after_eq
      rw [readLexeme_comment ((alone (by decide)).trans ahead)]
      exact .read after_eq (isAtBoundary_skipComment before rest)
  | openQuotation ahead =>
      rw [readLexeme_openQuotation ((alone (by decide)).trans ahead)]
      exact .read rfl (.inr ahead)
  | closeQuotation ahead =>
      rw [readLexeme_closeQuotation ((alone (by decide)).trans ahead)]
      exact .read rfl (.inr ahead)
  | word solid unmarked unbounded =>
      have fallen : first ∈ ['(', '[', ']'] →
          standsAlone first ⟨before, first :: rest⟩ = false := by
        intro special
        rw [alone solid, unbounded special, Bool.and_false]
      have kept : isWordCharacter first = true := by
        rw [isWordCharacter, solid]
        rfl
      rw [readLexeme_word solid unmarked fallen]
      simp only [readWord, Cursor.takeRun, List.takeWhile_cons, kept, if_true]
      exact .read (List.dropWhile_cons_of_pos kept) (.inr (isBoundary_head?_dropWhile _))

/-! ## Whole texts -/

/-- A text is read as the grammar has it, from any boundary on. -/
theorem readTokens_eq
    {cursor : Cursor}
    (bounded : cursor.IsAtBoundary) :
    readTokens cursor = Grammar.readTokens cursor.after := by
  fun_induction readTokens cursor with
  | case1 cursor after_eq => rw [after_eq, Grammar.readTokens_nil]
  | case2 cursor first rest after_eq cause lexeme_eq =>
      obtain ⟨before, after⟩ := cursor
      obtain rfl : after = first :: rest := after_eq
      have agrees := agrees_readLexeme bounded
      rw [lexeme_eq] at agrees
      generalize result_eq : Grammar.readLexeme first rest = result at agrees
      cases agrees with
      | rejected => rw [readTokens_of_readLexeme_eq_error result_eq]
  | case3 cursor first rest after_eq token next lexeme_eq inductionHypothesis =>
      obtain ⟨before, after⟩ := cursor
      obtain rfl : after = first :: rest := after_eq
      have agrees := agrees_readLexeme bounded
      rw [lexeme_eq] at agrees
      generalize result_eq : Grammar.readLexeme first rest = result at agrees
      cases agrees with
      | read later_eq nextBounded =>
          rw [readTokens_of_readLexeme result_eq, inductionHypothesis nextBounded, later_eq]

/-- The positions at which the lexer starts to read a lexeme. -/
inductive Visits (text : String) : Cursor → Prop
  | start : Visits text (.ofText text)
  | next {cursor next : Cursor} {first : Char} {rest : List Char} {token : Option Token} :
      Visits text cursor →
      cursor.after = first :: rest →
      readLexeme first cursor = .ok (token, next) →
      Visits text next

/-- Every lexeme is read from a boundary on. -/
theorem Visits.isAtBoundary
    {text : String}
    {cursor : Cursor}
    (visits : Visits text cursor) :
    cursor.IsAtBoundary := by
  induction visits with
  | start => exact Cursor.isAtBoundary_ofText text
  | @next cursor next first rest token visits after_eq lexeme_eq bounded =>
      obtain ⟨before, after⟩ := cursor
      obtain rfl : after = first :: rest := after_eq
      have agrees := agrees_readLexeme bounded
      rw [lexeme_eq] at agrees
      generalize Grammar.readLexeme first rest = result at agrees
      cases agrees with
      | read later_eq nextBounded => exact nextBounded

/-- A text is read as the grammar has it. -/
theorem tokens_eq (text : String) : tokens text = Grammar.readTokens text.toList :=
  readTokens_eq (Cursor.isAtBoundary_ofText text)

/-- A text is read under any name if it is read at all. -/
theorem tokenize_of_tokens
    {text : String}
    {read : List Token}
    (read_eq : tokens text = .ok read)
    (name : String) :
    tokenize name text = .ok read := by
  rw [tokenize, read_eq]
  rfl

/--
A text is read, or rejected under its name, as the grammar has it: by what is left of it
alone.  It is rejected exactly if a lexeme is due at a literal that is not closed, at a
colon behind which blanks are all that follows, or at one that starts neither a
definition nor a directive.  Wherever the lexer starts to read a lexeme, the character
behind a parenthesis or a bracket makes no difference.
-/
theorem tokenize_eq_grammar (name text : String) :
    tokenize name text =
        (Grammar.readTokens text.toList).mapError (fun cause => ⟨cause, some name⟩) ∧
      (∀ failure, tokenize name text = .error failure ↔
        failure.source = some name ∧
          ∃ place, Grammar.Visits text.toList place ∧ Rejects place failure.cause) ∧
      ∀ cursor, Visits text cursor → ∀ character ∈ ['(', '[', ']'],
        standsAlone character cursor =
          (cursor.peek 0 == some character && Text.isBoundary (cursor.peek 1)) := by
  have read_eq : tokenize name text =
      (Grammar.readTokens text.toList).mapError (fun cause => ⟨cause, some name⟩) := by
    rw [tokenize, tokens_eq]
  refine ⟨read_eq, fun failure => ?_, fun cursor visits character present => ?_⟩
  · rw [← readTokens_eq_error_iff, read_eq]
    obtain ⟨cause, source⟩ := failure
    cases Grammar.readTokens text.toList with
    | ok tokens => simp [Except.mapError]
    | error inner =>
        simp only [Except.mapError, Except.error.injEq, Error.Failure.mk.injEq]
        constructor
        · rintro ⟨rfl, rfl⟩
          exact ⟨rfl, rfl⟩
        · rintro ⟨rfl, rfl⟩
          exact ⟨rfl, rfl⟩
  · apply standsAlone_of_isAtBoundary visits.isAtBoundary
    simp only [List.mem_cons, List.not_mem_nil, or_false] at present
    rcases present with rfl | rfl | rfl <;> decide

/-- A bracket stands alone behind a word, and the literal behind the bracket is not closed. -/
theorem tokenize_eq_grammar_unclosed :
    (∃ cursor, Visits "x [ \"y" cursor ∧ cursor.peek 0 = some '[' ∧
      standsAlone '[' cursor = true) ∧
    tokenize "<input>" "x [ \"y" = .error ⟨.unclosedString, some "<input>"⟩ := by
  have grammar := tokenize_eq_grammar "<input>" "x [ \"y"
  constructor
  · have visits : Visits "x [ \"y" ⟨[' ', 'x'], ['[', ' ', '"', 'y']⟩ :=
      .next (.next .start rfl rfl) rfl rfl
    refine ⟨_, visits, rfl, ?_⟩
    rw [grammar.2.2 _ visits '[' (by simp)]
    decide
  · have visits : Grammar.Visits "x [ \"y".toList ['"', 'y'] :=
      .later rfl (.later rfl (.later rfl (.later rfl .here)))
    refine (grammar.2.1 _).mpr ⟨rfl, _, visits, .unclosedLiteral fun content later text_eq => ?_⟩
    have present : '"' ∈ ['y'] := text_eq ▸ List.mem_append_right content List.mem_cons_self
    exact absurd present (by decide)

end Lexer
end Concatenative
