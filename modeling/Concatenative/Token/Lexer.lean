import Concatenative.Error.Failure
import Concatenative.Text.Alphanumeric
import Concatenative.Text.Blank
import Concatenative.Token.Cursor

/-!
# The lexer

At the start of a lexeme these are tried in order: a comment to the end of the line, a
string literal, a comment between parentheses, a blank, the marker of a definition or
of a directive, a bracket of a quotation, and last a word, which is any run of
characters that are not blank.

Parentheses and brackets count only when they stand alone between two boundaries, so
the lexer looks one character back and one ahead.
-/

namespace Concatenative
namespace Lexer

open Error (Cause)

/-- Whether the next character is the given one and stands alone between boundaries. -/
def standsAlone (character : Char) (cursor : Cursor) : Bool :=
  cursor.peek 0 == some character
    && Text.isBoundary (cursor.peek (-1))
    && Text.isBoundary (cursor.peek 1)

/-- A word is a run of characters that are not blank. -/
def isWordCharacter (character : Char) : Bool :=
  !Text.isBlank character

/-- The word at a position, and the position behind it. -/
def readWord (cursor : Cursor) : String × Cursor :=
  let (run, next) := cursor.takeRun isWordCharacter
  (String.ofList run, next)

/--
The content of a string literal whose opening quote is behind, and what follows its
closing quote.  A quote closes the literal only in front of a boundary.
-/
def splitLiteral : List Char → Option (List Char × List Char)
  | [] => none
  | character :: rest =>
      if character = '"' ∧ Text.isBoundary rest.head? then some ([], rest)
      else (splitLiteral rest).map fun (content, tail) => (character :: content, tail)

/-- The string literal at a position, and the position behind it. -/
def readLiteral (cursor : Cursor) : Except Cause (Token × Cursor) :=
  let inside := cursor.advance
  match splitLiteral inside.after with
  | none => .error .unclosedString
  | some (content, tail) =>
      .ok (.literal (String.ofList content), ⟨'"' :: content.reverse ++ inside.before, tail⟩)

/-- The definition header or the directive at a position, and the position behind it. -/
def readMarker (cursor : Cursor) : Except Cause (Token × Cursor) :=
  match cursor.peek 1 with
  | none => .error .strayMarker
  | some follower =>
      if Text.isBlank follower then
        let (name, next) := readWord (cursor.advance.skipRun Text.isBlank)
        if name.isEmpty then .error .missingName else .ok (.header name, next)
      else if Text.isAlphanumeric follower then
        let (keyword, next) := readWord cursor
        .ok (.directive keyword, next)
      else .error .strayMarker

/-- The position behind the line. -/
def skipLine (cursor : Cursor) : Cursor :=
  (cursor.skipRun (· != '\n')).advance

/-- The position behind the closing parenthesis of a comment, or the end of the text. -/
def skipComment (before : List Char) : List Char → Cursor
  | [] => ⟨before, []⟩
  | character :: rest =>
      if standsAlone ')' ⟨before, character :: rest⟩ then ⟨character :: before, rest⟩
      else skipComment (character :: before) rest

/-- The token of a word, one of which ends definitions. -/
def wordToken (word : String) : Token :=
  if word = ";" then .terminator else .word word

/--
The lexeme at a position, whose first character is given: the token that it yields,
if any, and the position behind it.
-/
def readLexeme (first : Char) (cursor : Cursor) : Except Cause (Option Token × Cursor) :=
  if first = '#' then .ok (none, skipLine cursor)
  else if first = '"' then (readLiteral cursor).map fun (token, next) => (some token, next)
  else if first = '(' ∧ standsAlone '(' cursor then
    .ok (none, skipComment cursor.advance.before cursor.advance.after)
  else if Text.isBlank first then .ok (none, cursor.advance)
  else if first = ':' then (readMarker cursor).map fun (token, next) => (some token, next)
  else if first = '[' ∧ standsAlone '[' cursor then .ok (some .openQuotation, cursor.advance)
  else if first = ']' ∧ standsAlone ']' cursor then .ok (some .closeQuotation, cursor.advance)
  else
    let (word, next) := readWord cursor
    .ok (some (wordToken word), next)

/-! ## Every lexeme takes at least one character -/

theorem length_splitLiteral_lt {text content tail : List Char}
    (split_eq : splitLiteral text = some (content, tail)) : tail.length < text.length := by
  induction text generalizing content with
  | nil => simp [splitLiteral] at split_eq
  | cons character rest inductionHypothesis =>
      simp only [splitLiteral] at split_eq
      split at split_eq
      · simp only [Option.some.injEq, Prod.mk.injEq] at split_eq
        simp [split_eq.2]
      · simp only [Option.map_eq_some_iff, Prod.mk.injEq, Prod.exists] at split_eq
        obtain ⟨inner, last, inner_eq, -, rfl⟩ := split_eq
        have := inductionHypothesis inner_eq
        simp only [List.length_cons]
        omega

theorem length_skipComment_le (before after : List Char) :
    (skipComment before after).after.length ≤ after.length := by
  induction after generalizing before with
  | nil => simp [skipComment]
  | cons character rest inductionHypothesis =>
      simp only [skipComment]
      split
      · simp
      · have := inductionHypothesis (character :: before)
        simp only [List.length_cons]
        omega

theorem length_readWord_le (cursor : Cursor) :
    (readWord cursor).2.after.length ≤ cursor.after.length :=
  cursor.length_after_skipRun_le isWordCharacter

theorem length_readWord_lt {cursor : Cursor} {first : Char} {rest : List Char}
    (after_eq : cursor.after = first :: rest)
    (solid : Text.isBlank first = false) :
    (readWord cursor).2.after.length < cursor.after.length :=
  have kept : isWordCharacter first = true := by simp [isWordCharacter, solid]
  Cursor.length_after_skipRun_lt after_eq kept

theorem length_readLiteral_lt {cursor next : Cursor} {token : Token}
    (read_eq : readLiteral cursor = .ok (token, next)) :
    next.after.length < cursor.after.length := by
  simp only [readLiteral] at read_eq
  split at read_eq
  · simp at read_eq
  · rename_i content tail split_eq
    have := length_splitLiteral_lt split_eq
    simp only [Except.ok.injEq, Prod.mk.injEq] at read_eq
    simp only [Cursor.length_after_advance] at this
    simp only [← read_eq.2]
    omega

theorem length_readMarker_lt {cursor next : Cursor} {token : Token}
    {first : Char} {rest : List Char}
    (after_eq : cursor.after = first :: rest)
    (solid : Text.isBlank first = false)
    (read_eq : readMarker cursor = .ok (token, next)) :
    next.after.length < cursor.after.length := by
  simp only [readMarker] at read_eq
  split at read_eq
  · simp at read_eq
  · split at read_eq
    · split at read_eq
      · simp at read_eq
      · simp only [Except.ok.injEq, Prod.mk.injEq] at read_eq
        rw [← read_eq.2]
        have word_le := length_readWord_le (cursor.advance.skipRun Text.isBlank)
        have blanks_le := cursor.advance.length_after_skipRun_le Text.isBlank
        simp only [Cursor.length_after_advance, after_eq, List.length_cons] at *
        omega
    · split at read_eq
      · simp only [Except.ok.injEq, Prod.mk.injEq] at read_eq
        rw [← read_eq.2]
        exact length_readWord_lt after_eq solid
      · simp at read_eq

theorem length_readLexeme_lt {cursor next : Cursor} {token : Option Token}
    {first : Char} {rest : List Char}
    (after_eq : cursor.after = first :: rest)
    (read_eq : readLexeme first cursor = .ok (token, next)) :
    next.after.length < cursor.after.length := by
  have advance_lt : cursor.advance.after.length < cursor.after.length := by simp [after_eq]
  unfold readLexeme at read_eq
  split at read_eq
  · simp only [Except.ok.injEq, Prod.mk.injEq] at read_eq
    rw [← read_eq.2, skipLine, Cursor.length_after_advance]
    have line_le := cursor.length_after_skipRun_le (· != '\n')
    simp only [after_eq, List.length_cons] at *
    omega
  split at read_eq
  · cases literal_eq : readLiteral cursor with
    | error cause => simp [literal_eq, Except.map] at read_eq
    | ok pair =>
        obtain ⟨literal, behind⟩ := pair
        have := length_readLiteral_lt literal_eq
        simp only [literal_eq, Except.map, Except.ok.injEq, Prod.mk.injEq] at read_eq
        rwa [← read_eq.2]
  split at read_eq
  · simp only [Except.ok.injEq, Prod.mk.injEq] at read_eq
    rw [← read_eq.2]
    exact Nat.lt_of_le_of_lt (length_skipComment_le _ _) advance_lt
  split at read_eq
  · simp only [Except.ok.injEq, Prod.mk.injEq] at read_eq
    rwa [← read_eq.2]
  rename_i solid
  simp only [Bool.not_eq_true] at solid
  split at read_eq
  · cases marker_eq : readMarker cursor with
    | error cause => simp [marker_eq, Except.map] at read_eq
    | ok pair =>
        obtain ⟨marker, behind⟩ := pair
        have := length_readMarker_lt after_eq solid marker_eq
        simp only [marker_eq, Except.map, Except.ok.injEq, Prod.mk.injEq] at read_eq
        rwa [← read_eq.2]
  split at read_eq
  · simp only [Except.ok.injEq, Prod.mk.injEq] at read_eq
    rwa [← read_eq.2]
  split at read_eq
  · simp only [Except.ok.injEq, Prod.mk.injEq] at read_eq
    rwa [← read_eq.2]
  · simp only [Except.ok.injEq, Prod.mk.injEq] at read_eq
    rw [← read_eq.2]
    exact length_readWord_lt after_eq solid

/-! ## Whole texts -/

/-- The tokens from a position on. -/
def readTokens (cursor : Cursor) : Except Cause (List Token) :=
  match _ : cursor.after with
  | [] => .ok []
  | first :: _ =>
      match _ : readLexeme first cursor with
      | .error cause => .error cause
      | .ok (token, next) => (readTokens next).map (token.toList ++ ·)
termination_by cursor.after.length
decreasing_by exact length_readLexeme_lt ‹_› ‹_›

/-- The tokens of a text. -/
def tokens (text : String) : Except Cause (List Token) :=
  readTokens (.ofText text)

/-- The tokens of a text with a name, which the failure to read it carries. -/
def tokenize (name : String) (text : String) : Except Error.Failure (List Token) :=
  (tokens text).mapError fun cause => ⟨cause, some name⟩

end Lexer
end Concatenative
