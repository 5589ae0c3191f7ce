import Concatenative.Proofs.Legibility

/-!
# Values as text

Painted plainly, without the colours, what is printed for a value is the written form of
tokens, and reads as these.  Numerals are read as the integers that they were written for.
-/

namespace Concatenative

namespace Numeral

/-! ## Numerals -/

/-- The characters of numerals are the digits and the minus. -/
def isCharacter (character : Char) : Bool :=
  character = '-' || character.isDigit

/-- No character of a numeral separates words. -/
theorem isBlank_of_isCharacter
    {character : Char}
    (numeral : isCharacter character = true) :
    Text.isBlank character = false := by
  simp only [isCharacter, Bool.or_eq_true, decide_eq_true_eq, Char.isDigit, Bool.and_eq_true]
    at numeral
  rcases numeral with rfl | ⟨lower, upper⟩
  · decide
  · have lower : 48 ≤ character.toNat := lower
    have upper : character.toNat ≤ 57 := upper
    simp [Text.isBlank, Text.CodeRanges.contains, Text.blankRanges]
    omega

/-- The digits of a natural number are digits. -/
theorem isDigit_of_mem_toDigits
    {number : Nat}
    {digit : Char}
    (present : digit ∈ Nat.toDigits 10 number) :
    digit.isDigit = true :=
  Nat.isDigit_of_mem_toDigits (by decide) (by decide) present

/-- The sign and the digits of a numeral that is written. -/
theorem splitSign_write (number : Int) :
    splitSign (write number).toList =
      (decide (number < 0), Nat.toDigits 10 number.natAbs) := by
  unfold write
  split
  · rename_i negative
    rw [String.toList_append, Nat.toList_repr, decide_eq_true negative]
    rfl
  · rename_i positive
    rw [Nat.toList_repr, decide_eq_false positive]
    unfold splitSign
    split
    · rename_i digits digits_eq
      -- A minus is no digit, so it cannot stand in front of the digits.
      have minus : Char.isDigit '-' = true :=
        isDigit_of_mem_toDigits (digits_eq ▸ List.mem_cons_self)
      exact absurd minus (by decide)
    · rfl

/-- What is written is a numeral. -/
theorem isNumeral_write (number : Int) : isNumeral (write number) = true := by
  simp only [isNumeral, splitSign_write, Bool.and_eq_true, List.all_eq_true]
  constructor
  · simp
  · intro digit present
    exact isDigit_of_mem_toDigits present

/-- What is written within the limit is read as what it was written for. -/
theorem read_write
    {number : Int}
    (writable : isWritable number = true) :
    read (write number) = .ok number := by
  have short := isWritable_iff.mp writable
  simp only [read, splitSign_write, if_pos short, ofDigits,
    Nat.ofDigitChars_toDigits (show 1 < 10 by decide) (Nat.le_refl 10), Except.ok.injEq]
  split
  · rename_i negative
    rw [decide_eq_true_eq] at negative
    omega
  · rename_i positive
    rw [decide_eq_true_eq] at positive
    omega

/-- A numeral is read as a word. -/
theorem isWellFormed_write (number : Int) : (Token.word (write number)).IsWellFormed := by
  have nonempty : write number ≠ "" := by
    intro write_eq
    have numeral := isNumeral_write number
    rw [write_eq] at numeral
    exact absurd numeral (by decide)
  have digital : ∀ digit ∈ (Nat.repr number.natAbs).toList, isCharacter digit = true := by
    intro digit present
    rw [Nat.toList_repr] at present
    rw [isCharacter, isDigit_of_mem_toDigits present, Bool.or_true]
  have numeral : ∀ character ∈ (write number).toList, isCharacter character = true := by
    unfold write
    split
    · rw [String.toList_append]
      exact List.forall_mem_cons.mpr ⟨by decide, digital⟩
    · exact digital
  refine ⟨⟨nonempty, fun character present => ?_⟩, fun marked => ?_, fun special => ?_⟩
  · exact isBlank_of_isCharacter (numeral character present)
  · simp only [List.mem_cons, List.not_mem_nil, or_false] at marked
    rcases marked with head_eq | head_eq | head_eq <;>
      exact absurd (numeral _ (List.mem_of_mem_head? head_eq)) (by decide)
  · simp only [List.mem_cons, List.not_mem_nil, or_false] at special
    rcases special with write_eq | write_eq | write_eq | write_eq <;>
      · rw [write_eq] at numeral
        exact absurd (numeral _ List.mem_cons_self) (by decide)

end Numeral

namespace Value

/-! ## What is printed for values -/

mutual

/-- The tokens of which a value is printed. -/
def tokens : Value → List Token
  | nil => [.word "nil"]
  | bool truth => [.word (if truth then "true" else "false")]
  | int number => [.word (Numeral.write number)]
  | text characters => [.literal characters]
  | variableRef name => [.word name]
  | wordRef reference => [.word reference.name]
  | quotation content => .openQuotation :: (tokensEach content ++ [.closeQuotation])

/-- The tokens of values one after the other. -/
def tokensEach : List Value → List Token
  | [] => []
  | value :: rest => tokens value ++ tokensEach rest

end

end Value

namespace Grammar

/-- Tokens that follow others are put behind them. -/
theorem map_append_map (front back : List Token) (result : Except Error.Cause (List Token)) :
    (result.map (back ++ ·)).map (front ++ ·) = result.map (front ++ back ++ ·) := by
  cases result <;> simp [Except.map]

/-- No tokens are put in front of others. -/
theorem map_nil_append (result : Except Error.Cause (List Token)) :
    result.map ([] ++ ·) = result := by
  cases result <;> rfl

mutual

/-- What is printed for a value is read as its tokens, up to a boundary. -/
theorem readTokens_plain
    (value : Value)
    (legible : value.IsLegible)
    (suffix : List Char)
    (bounded : Text.isBoundary suffix.head? = true) :
    readTokens ((value.displayWith .plain).toList ++ suffix) =
      (readTokens suffix).map (value.tokens ++ ·) := by
  cases value with
  | nil =>
      have written : (Token.word "nil").IsWellFormed := by decide
      exact readTokens_render written bounded
  | bool truth =>
      have written : (Token.word (if truth then "true" else "false")).IsWellFormed := by
        cases truth <;> decide
      exact readTokens_render written bounded
  | int number => exact readTokens_render (Numeral.isWellFormed_write number) bounded
  | text characters =>
      have written : (Token.literal characters).IsWellFormed := legible _ .self
      exact readTokens_render written bounded
  | variableRef name =>
      have written : (Token.word name).IsWellFormed := legible _ .self
      exact readTokens_render written bounded
  | wordRef reference =>
      have written : (Token.word reference.name).IsWellFormed := legible _ .self
      exact readTokens_render written bounded
  | quotation content =>
      have inside := readTokens_plainEach content
        (fun value present part within => legible part (.inside present within))
        (']' :: suffix)
      have opening (later : List Char) : readTokens ('[' :: ' ' :: later) =
          (readTokens later).map ([.openQuotation] ++ ·) := by
        have production : Production '[' (' ' :: later) _ := .openQuotation rfl
        rw [readTokens_of_readLexeme production.readLexeme_eq, readTokens_blank (by decide)]
        rfl
      have closing : readTokens (']' :: suffix) =
          (readTokens suffix).map ([.closeQuotation] ++ ·) := by
        rw [readTokens_of_readLexeme (Production.closeQuotation bounded).readLexeme_eq]
        rfl
      have text_eq : ((Value.quotation content).displayWith .plain).toList ++ suffix =
          '[' :: ' ' :: ((Value.displayEachWith .plain content).toList ++
            ']' :: suffix) := by
        simp [Value.displayWith, String.toList_append]
      rw [text_eq, opening, inside, closing, map_append_map, map_append_map, Value.tokens]
      simp only [List.cons_append, List.nil_append, List.append_assoc]

/-- What is printed for the content of a quotation is read as the tokens of its values. -/
theorem readTokens_plainEach
    (content : List Value)
    (legible : ∀ value ∈ content, value.IsLegible)
    (suffix : List Char) :
    readTokens ((Value.displayEachWith .plain content).toList ++ suffix) =
      (readTokens suffix).map (Value.tokensEach content ++ ·) := by
  cases content with
  | nil =>
      rw [Value.displayEachWith, Value.tokensEach, String.toList_empty, map_nil_append,
        List.nil_append]
  | cons value rest =>
      rw [List.forall_mem_cons] at legible
      -- The space behind the value is the boundary that its last token needs.
      let later := (Value.displayEachWith .plain rest).toList ++ suffix
      have first := readTokens_plain value legible.1 (' ' :: later) rfl
      have others := readTokens_plainEach rest legible.2 suffix
      have text_eq : (Value.displayEachWith .plain (value :: rest)).toList ++ suffix =
          (value.displayWith .plain).toList ++ ' ' :: later := by
        simp [Value.displayEachWith, later, String.toList_append]
      rw [text_eq, first, readTokens_blank (by decide), others, map_append_map, Value.tokensEach]

end

/-- What is printed for a body is read as the tokens of its values. -/
theorem readTokens_plainBody
    {body : List Value}
    (legible : ∀ value ∈ body, value.IsLegible)
    {suffix : List Char}
    (bounded : Text.isBoundary suffix.head? = true) :
    readTokens ((String.intercalate " " (body.map (Value.displayWith .plain))).toList ++ suffix) =
      (readTokens suffix).map (Value.tokensEach body ++ ·) := by
  induction body with
  | nil =>
      have empty : (String.intercalate " " []).toList = [] := rfl
      rw [List.map_nil, empty, Value.tokensEach, map_nil_append, List.nil_append]
  | cons value rest inductionHypothesis =>
      rw [List.forall_mem_cons] at legible
      cases rest with
      | nil =>
          rw [List.map_singleton, String.intercalate_singleton,
            readTokens_plain value legible.1 suffix bounded, Value.tokensEach, Value.tokensEach,
            List.append_nil]
      | cons next others =>
          have later := inductionHypothesis legible.2
          rw [List.map_cons, List.map_cons, String.intercalate_cons_cons, String.toList_append,
            String.toList_append, List.append_assoc, List.append_assoc, ← List.map_cons,
            show " ".toList = [' '] by rfl, List.singleton_append,
            readTokens_plain value legible.1 _ rfl, readTokens_blank (by decide), later,
            map_append_map]
          rfl

end Grammar

namespace Lexer

/-- The text of a definition is read as the name and the tokens of the body. -/
theorem tokens_definition
    {name : String}
    (solid : Text.IsSolid name)
    {body : Body}
    (legible : ∀ value ∈ body, value.IsLegible)
    {printed : String}
    (printed_eq : printed = String.intercalate " " (body.map (Value.displayWith .plain))) :
    tokens (": " ++ name ++ " " ++ printed ++ " ;") =
      .ok (.header name :: (Value.tokensEach body ++ [.terminator])) := by
  have header : (Token.header name).IsWellFormed := solid
  have terminator : (Token.terminator).IsWellFormed := trivial
  have text_eq : (": " ++ name ++ " " ++ printed ++ " ;").toList =
      (Token.header name).render.toList ++ ' ' :: (printed.toList ++ ' ' ::
        (Token.terminator.render.toList ++ [])) := by
    simp [Token.render, String.toList_append]
  rw [tokens_eq, text_eq, Grammar.readTokens_render header rfl,
    Grammar.readTokens_blank (by decide), printed_eq, Grammar.readTokens_plainBody legible rfl,
    Grammar.readTokens_blank (by decide), Grammar.readTokens_render terminator rfl,
    Grammar.readTokens_nil]
  rfl

end Lexer
end Concatenative
