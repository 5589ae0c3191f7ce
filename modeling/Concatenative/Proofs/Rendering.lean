import Concatenative.Proofs.Lexing
import Mathlib.Data.List.Chain

/-!
# Tokens as text

A token has a written form, and tokens one after the other are written with a space
between them.  Reading undoes writing for the tokens that are well formed, and these are
the tokens that texts are made of.
-/

namespace Concatenative

namespace Text

/-- A text is solid if it is not empty and has no blanks. -/
def IsSolid (text : String) : Prop :=
  text ≠ "" ∧ ∀ character ∈ text.toList, isBlank character = false

/-- No quote in a text has a blank behind it. -/
def HasNoClosingQuote (text : String) : Prop :=
  text.toList.IsChain fun left right => ¬(left = '"' ∧ isBlank right = true)

/-- Whether a text starts with a colon and an alphanumeric character. -/
def startsAsDirective : List Char → Bool
  | ':' :: follower :: _ => isAlphanumeric follower
  | _ => false

instance (text : String) : Decidable (IsSolid text) :=
  decidable_of_iff (text ≠ "" ∧ text.toList.all (!isBlank ·) = true) (by simp [IsSolid])

instance (text : String) : Decidable (HasNoClosingQuote text) :=
  inferInstanceAs (Decidable (List.IsChain _ _))

end Text

namespace Token

/-- A token as it is written in a program. -/
def render : Token → String
  | directive keyword => keyword
  | header name => ": " ++ name
  | terminator => ";"
  | word characters => characters
  | literal characters => "\"" ++ characters ++ "\""
  | openQuotation => "["
  | closeQuotation => "]"

/-- Tokens as they are written in a program, with a space between them. -/
def renderAll (tokens : List Token) : String :=
  String.intercalate " " (tokens.map render)

/-- What the characters of a token have to be like. -/
def IsWellFormed : Token → Prop
  | directive keyword => Text.IsSolid keyword ∧ Text.startsAsDirective keyword.toList = true
  | header name => Text.IsSolid name
  | word characters =>
      Text.IsSolid characters ∧
        characters.toList.head? ∉ [some '#', some '"', some ':'] ∧
        characters ∉ ["(", "[", "]", ";"]
  | literal characters => Text.HasNoClosingQuote characters
  | terminator | openQuotation | closeQuotation => True

instance : DecidablePred IsWellFormed
  | directive _ => inferInstanceAs (Decidable (_ ∧ _))
  | header _ => inferInstanceAs (Decidable (Text.IsSolid _))
  | word _ => inferInstanceAs (Decidable (_ ∧ _ ∧ _))
  | literal _ => inferInstanceAs (Decidable (Text.HasNoClosingQuote _))
  | terminator | openQuotation | closeQuotation => inferInstanceAs (Decidable True)

end Token

namespace Grammar

/-! ## What is read is well formed -/

/-- A run of word characters that is not empty is solid. -/
theorem isSolid_ofList
    {run : List Char}
    (nonempty : run ≠ [])
    (kept : ∀ character ∈ run, Lexer.isWordCharacter character = true) :
    Text.IsSolid (String.ofList run) := by
  refine ⟨by simpa using nonempty, fun character present => ?_⟩
  rw [String.toList_ofList] at present
  simpa [Lexer.isWordCharacter] using kept character present

/-- A quote in front of the first place that closes a literal has no blank behind it. -/
theorem isChain_of_splitBefore?
    {text content closing : List Char}
    (split_eq : splitBefore? closesLiteral text = some (content, closing)) :
    content.IsChain fun left right => ¬(left = '"' ∧ Text.isBlank right = true) := by
  induction text generalizing content with
  | nil => simp [splitBefore?] at split_eq
  | cons character rest inductionHypothesis =>
      simp only [splitBefore?] at split_eq
      split at split_eq
      · simp only [Option.some.injEq, Prod.mk.injEq] at split_eq
        rw [← split_eq.1]
        exact .nil
      · rename_i goesOn
        simp only [Option.map_eq_some_iff, Prod.exists, Prod.mk.injEq] at split_eq
        obtain ⟨inner, last, inner_eq, rfl, rfl⟩ := split_eq
        rw [List.isChain_cons]
        refine ⟨?_, inductionHypothesis inner_eq⟩
        rintro next present ⟨rfl, blank⟩
        -- The blank would make the quote in front of it close the literal.
        obtain ⟨rest_eq, -⟩ := splitBefore?_eq_some inner_eq
        apply goesOn
        rw [closesLiteral_quote, rest_eq, List.head?_append, present, Option.some_or,
          Text.isBoundary_some]
        exact blank

/-- The token of a word is well formed, unless the word is a lone marker. -/
theorem isWellFormed_wordToken
    {first : Char}
    {run : List Char}
    (solid : Text.IsSolid (String.ofList (first :: run)))
    (unmarked : first ∉ ['#', '"', ':'])
    (special : first ∈ ['(', '[', ']'] → run ≠ []) :
    (Lexer.wordToken (String.ofList (first :: run))).IsWellFormed := by
  unfold Lexer.wordToken
  split
  · trivial
  · rename_i notTerminator
    refine ⟨solid, ?_, ?_⟩
    · rw [String.toList_ofList, List.head?_cons]
      simpa using unmarked
    · have longer : ∀ character ∈ ['(', '[', ']'],
          String.ofList (first :: run) ≠ String.ofList [character] := by
        intro character listed same
        obtain ⟨rfl, run_eq⟩ := List.cons.inj (String.ofList_injective same)
        exact special listed run_eq
      simp only [List.mem_cons, List.not_mem_nil, or_false, not_or]
      exact ⟨longer '(' (by simp), longer '[' (by simp), longer ']' (by simp), notTerminator⟩

/-- The token of a lexeme is well formed. -/
theorem isWellFormed_of_readLexeme
    {first : Char}
    {rest later : List Char}
    {token : Token}
    (read_eq : readLexeme first rest = .ok (some token, later)) :
    token.IsWellFormed := by
  have production := production_readLexeme first rest
  rw [read_eq] at production
  cases production with
  | literal split_eq =>
      simp only [Token.IsWellFormed, Text.HasNoClosingQuote, String.toList_ofList]
      exact isChain_of_splitBefore? split_eq
  | header blank named =>
      exact isSolid_ofList named fun _ => List.mem_takeWhile_imp
  | @directive follower rest solid alphanumeric =>
      refine ⟨isSolid_ofList (by simp) ?_, ?_⟩
      · rw [List.forall_mem_cons]
        exact ⟨by decide, fun _ => List.mem_takeWhile_imp⟩
      · have kept : Lexer.isWordCharacter follower = true := by
          rw [Lexer.isWordCharacter, solid]
          rfl
        rw [String.toList_ofList, List.takeWhile_cons, if_pos kept]
        exact alphanumeric
  | openQuotation | closeQuotation => trivial
  | word solid unmarked unbounded =>
      refine isWellFormed_wordToken (isSolid_ofList (by simp) ?_) unmarked fun special => ?_
      · rw [List.forall_mem_cons, Lexer.isWordCharacter, solid]
        exact ⟨rfl, fun _ => List.mem_takeWhile_imp⟩
      · have unbound := unbounded special
        cases rest with
        | nil => simp at unbound
        | cons next rest =>
            rw [List.head?_cons, Text.isBoundary_some] at unbound
            simp [Lexer.isWordCharacter, unbound]

/-- The tokens of a text are well formed. -/
theorem isWellFormed_of_readTokens
    {text : List Char}
    {tokens : List Token}
    (read_eq : readTokens text = .ok tokens) :
    ∀ token ∈ tokens, token.IsWellFormed := by
  fun_induction readTokens text generalizing tokens with
  | case1 =>
      simp only [Except.ok.injEq] at read_eq
      simp [← read_eq]
  | case2 => simp at read_eq
  | case3 first rest token later lexeme_eq inductionHypothesis =>
      cases later_eq : readTokens later with
      | error cause => simp [later_eq, Except.map] at read_eq
      | ok remaining =>
          simp only [later_eq, Except.map, Except.ok.injEq] at read_eq
          subst read_eq
          intro member present
          rcases List.mem_append.mp present with own | other
          · rw [Option.mem_toList] at own
            exact isWellFormed_of_readLexeme (own ▸ lexeme_eq)
          · exact inductionHypothesis later_eq member other

/-! ## What is well formed is read -/

/-- A quote that no blank follows does not close a literal. -/
theorem splitBefore?_of_isChain
    {content rest : List Char}
    (chained : content.IsChain fun left right => ¬(left = '"' ∧ Text.isBlank right = true))
    (bounded : Text.isBoundary rest.head? = true) :
    splitBefore? closesLiteral (content ++ '"' :: rest) = some (content, '"' :: rest) := by
  induction content with
  | nil =>
      rw [List.nil_append, splitBefore?, closesLiteral_quote, if_pos bounded]
  | cons character content inductionHypothesis =>
      rw [List.isChain_cons] at chained
      have goesOn : ¬closesLiteral (character :: (content ++ '"' :: rest)) = true := by
        intro closes
        obtain ⟨later, later_eq, ahead⟩ := exists_of_closesLiteral closes
        obtain ⟨rfl, rfl⟩ := List.cons.inj later_eq
        cases content with
        | nil => exact absurd ahead (by simp; decide)
        | cons next content => exact chained.1 next rfl ⟨rfl, ahead⟩
      rw [List.cons_append, splitBefore?, if_neg goesOn, inductionHypothesis chained.2,
        Option.map_some]

section Productions

variable {suffix : List Char}

/-- A directive is read off its written form, up to a boundary. -/
theorem production_directive
    {keyword : String}
    (wellFormed : (Token.directive keyword).IsWellFormed)
    (bounded : Text.isBoundary suffix.head? = true) :
    ∃ run, keyword.toList = ':' :: run ∧
      Production ':' (run ++ suffix) (.ok (some (.directive keyword), suffix)) := by
  obtain ⟨⟨-, solid⟩, starts⟩ := wellFormed
  obtain ⟨follower, run, keyword_eq, alphanumeric⟩ :
      ∃ follower run, keyword.toList = ':' :: follower :: run ∧
        Text.isAlphanumeric follower = true := by
    unfold Text.startsAsDirective at starts
    split at starts
    · exact ⟨_, _, ‹_›, starts⟩
    · simp at starts
  rw [keyword_eq, List.forall_mem_cons] at solid
  have production : Production ':' (follower :: (run ++ suffix)) _ :=
    .directive (solid.2 follower List.mem_cons_self) alphanumeric
  rw [← List.cons_append, takeWhile_append_of_solid solid.2 bounded,
    dropWhile_append_of_solid solid.2 bounded, ← keyword_eq, String.ofList_toList]
    at production
  exact ⟨follower :: run, keyword_eq, production⟩

/-- The name of a header is read behind a blank, up to a boundary. -/
theorem production_header
    {name : String}
    (wellFormed : (Token.header name).IsWellFormed)
    (bounded : Text.isBoundary suffix.head? = true) :
    Production ':' (' ' :: name.toList ++ suffix) (.ok (some (.header name), suffix)) := by
  obtain ⟨nonempty, solid⟩ := wellFormed
  have named : name.toList ≠ [] := by simpa using nonempty
  have dropped : (name.toList ++ suffix).dropWhile Text.isBlank = name.toList ++ suffix := by
    obtain ⟨first, rest, name_eq⟩ := List.exists_cons_of_ne_nil named
    rw [name_eq, List.cons_append, List.dropWhile_cons, if_neg]
    rw [solid first (name_eq ▸ List.mem_cons_self)]
    exact Bool.false_ne_true
  have run_eq := takeWhile_append_of_solid solid bounded
  have production : Production ':' (' ' :: (name.toList ++ suffix)) _ :=
    .header (by decide) (by rw [dropped, run_eq]; exact named)
  rw [dropped, run_eq, dropWhile_append_of_solid solid bounded, String.ofList_toList]
    at production
  exact production

/-- A word is read off its written form, up to a boundary. -/
theorem production_word
    {characters : String}
    (wellFormed : (Token.word characters).IsWellFormed)
    (bounded : Text.isBoundary suffix.head? = true) :
    ∃ first run, characters.toList = first :: run ∧
      Production first (run ++ suffix) (.ok (some (.word characters), suffix)) := by
  obtain ⟨⟨nonempty, solid⟩, unmarked, unspecial⟩ := wellFormed
  have notTerminator : characters ≠ ";" := by
    rintro rfl
    exact unspecial (by simp)
  have nonempty : characters.toList ≠ [] := by simpa using nonempty
  obtain ⟨first, run, word_eq⟩ := List.exists_cons_of_ne_nil nonempty
  rw [word_eq, List.forall_mem_cons] at solid
  rw [word_eq, List.head?_cons] at unmarked
  have unbounded : first ∈ ['(', '[', ']'] →
      Text.isBoundary (run ++ suffix).head? = false := by
    intro special
    cases run with
    | nil =>
        -- A parenthesis or a bracket alone is no word.
        have characters_eq : characters = String.ofList [first] := by
          rw [← word_eq, String.ofList_toList]
        rw [characters_eq] at unspecial
        simp only [List.mem_cons, List.not_mem_nil, or_false] at special
        rcases special with rfl | rfl | rfl <;> exact absurd (by decide) unspecial
    | cons next run =>
        rw [List.cons_append, List.head?_cons, Text.isBoundary_some]
        exact solid.2 next List.mem_cons_self
  have production : Production first (run ++ suffix) _ :=
    .word solid.1 (by simpa using unmarked) unbounded
  rw [takeWhile_append_of_solid solid.2 bounded, dropWhile_append_of_solid solid.2 bounded,
    ← word_eq, String.ofList_toList, Lexer.wordToken, if_neg notTerminator]
    at production
  exact ⟨first, run, word_eq, production⟩

/-- A well-formed token is read off its written form, up to a boundary. -/
theorem production_render
    {token : Token}
    (wellFormed : token.IsWellFormed)
    (bounded : Text.isBoundary suffix.head? = true) :
    ∃ first body, token.render.toList = first :: body ∧
      Production first (body ++ suffix) (.ok (some token, suffix)) := by
  cases token with
  | directive keyword =>
      obtain ⟨run, keyword_eq, production⟩ := production_directive wellFormed bounded
      exact ⟨':', run, keyword_eq, production⟩
  | header name =>
      exact ⟨':', ' ' :: name.toList, by simp [Token.render], production_header wellFormed bounded⟩
  | terminator =>
      have production : Production ';' ([] ++ suffix) _ :=
        .word (by decide) (by decide) fun special => absurd special (by decide)
      rw [takeWhile_append_of_solid (by simp) bounded, dropWhile_append_of_solid (by simp) bounded]
        at production
      exact ⟨';', [], rfl, production⟩
  | word characters => exact production_word wellFormed bounded
  | literal characters =>
      refine ⟨'"', characters.toList ++ ['"'], by simp [Token.render], ?_⟩
      have split_eq := splitBefore?_of_isChain wellFormed bounded
      have production := Production.literal split_eq
      rw [String.ofList_toList] at production
      simpa using production
  | openQuotation => exact ⟨'[', [], rfl, .openQuotation bounded⟩
  | closeQuotation => exact ⟨']', [], rfl, .closeQuotation bounded⟩

end Productions

/-- Reading undoes writing, up to a boundary. -/
theorem readTokens_render
    {token : Token}
    (wellFormed : token.IsWellFormed)
    {suffix : List Char}
    (bounded : Text.isBoundary suffix.head? = true) :
    readTokens (token.render.toList ++ suffix) = (readTokens suffix).map (token :: ·) := by
  obtain ⟨first, body, render_eq, production⟩ := production_render wellFormed bounded
  rw [render_eq, List.cons_append, readTokens_of_readLexeme production.readLexeme_eq]
  rfl

/-- Reading undoes writing, of tokens one after the other. -/
theorem readTokens_renderAll
    {tokens : List Token}
    (wellFormed : ∀ token ∈ tokens, token.IsWellFormed) :
    readTokens (Token.renderAll tokens).toList = .ok tokens := by
  unfold Token.renderAll
  induction tokens with
  | nil => exact readTokens_nil
  | cons token tokens inductionHypothesis =>
      rw [List.forall_mem_cons] at wellFormed
      have later := inductionHypothesis wellFormed.2
      cases tokens with
      | nil =>
          have alone : readTokens (token.render.toList ++ []) = _ :=
            readTokens_render wellFormed.1 rfl
          rw [List.append_nil, readTokens_nil] at alone
          rw [List.map_singleton, String.intercalate_singleton]
          exact alone
      | cons next tokens =>
          rw [List.map_cons, List.map_cons, String.intercalate_cons_cons, String.toList_append,
            String.toList_append, List.append_assoc, ← List.map_cons,
            readTokens_render wellFormed.1 rfl]
          rw [show " ".toList = [' '] by rfl, List.singleton_append, readTokens_blank (by decide),
            later]
          rfl

end Grammar

namespace Lexer

/-- The tokens that a text is read as are well formed. -/
theorem isWellFormed_of_tokenize
    {name text : String}
    {ts : List Token}
    (read_eq : tokenize name text = .ok ts) :
    ∀ token ∈ ts, token.IsWellFormed := by
  rw [tokenize, tokens_eq] at read_eq
  cases grammar_eq : Grammar.readTokens text.toList with
  | error cause => simp [grammar_eq, Except.mapError] at read_eq
  | ok tokens =>
      simp only [grammar_eq, Except.mapError, Except.ok.injEq] at read_eq
      exact read_eq ▸ Grammar.isWellFormed_of_readTokens grammar_eq

/--
Tokens are read back from their written form exactly if they are well formed, and the
tokens of a text always are.
-/
theorem tokens_renderAll_iff :
    (∀ ts : List Token,
      Lexer.tokens (Token.renderAll ts) = .ok ts ↔ ∀ token ∈ ts, token.IsWellFormed) ∧
    ∀ (text : String) (ts : List Token),
      Lexer.tokens text = .ok ts →
        (∀ token ∈ ts, token.IsWellFormed) ∧ Lexer.tokens (Token.renderAll ts) = .ok ts := by
  have readable : ∀ (text : String) (ts : List Token), Lexer.tokens text = .ok ts →
      ∀ token ∈ ts, token.IsWellFormed := by
    intro text ts read_eq
    rw [tokens_eq] at read_eq
    exact Grammar.isWellFormed_of_readTokens read_eq
  have undone : ∀ ts : List Token, (∀ token ∈ ts, token.IsWellFormed) →
      Lexer.tokens (Token.renderAll ts) = .ok ts := by
    intro ts wellFormed
    rw [tokens_eq]
    exact Grammar.readTokens_renderAll wellFormed
  refine ⟨fun ts => ⟨readable _ ts, undone ts⟩, fun text ts read_eq => ?_⟩
  exact ⟨readable text ts read_eq, undone ts (readable text ts read_eq)⟩

/-- Marks lose their meaning within other tokens, and are read back as parts of these. -/
theorem tokens_renderAll_iff_marks :
    let ts : List Token := [.header "#", .literal "a\"b\"", .word ")", .word "[x", .terminator]
    Token.renderAll ts = ": # \"a\"b\"\" ) [x ;" ∧
      Lexer.tokens (Token.renderAll ts) = .ok ts ∧ ∀ token ∈ ts, token.IsWellFormed := by
  intro ts
  have read_eq : Lexer.tokens (Token.renderAll ts) = .ok ts :=
    (tokens_renderAll_iff.1 ts).mpr (by decide)
  exact ⟨by decide, read_eq, (tokens_renderAll_iff.2 _ ts read_eq).1⟩

end Lexer
end Concatenative
