import Concatenative.Token.Lexer
import Mathlib.Data.List.TakeWhile

/-!
# The grammar of texts

What a text is read as can be told from what is left of it alone, by recursion.  Each
lexeme is of one production, which its first character and what follows it settle.

A text is rejected at the first literal that is not closed, or at the first colon that
starts neither a definition nor a directive.
-/

namespace Concatenative
namespace Grammar

open Error (Cause)

/-! ## Places in a text -/

/-- Splits a text in front of the first place that passes a test. -/
def splitBefore? (isPlace : List Char → Bool) : List Char → Option (List Char × List Char)
  | [] => none
  | character :: rest =>
      if isPlace (character :: rest) then some ([], character :: rest)
      else (splitBefore? isPlace rest).map fun (front, back) => (character :: front, back)

/-- A literal ends at a quote in front of a boundary. -/
def closesLiteral : List Char → Bool
  | '"' :: rest => Text.isBoundary rest.head?
  | _ => false

/-- A comment ends at a parenthesis between a blank and a boundary. -/
def closesComment : List Char → Bool
  | blank :: ')' :: rest => Text.isBlank blank && Text.isBoundary rest.head?
  | _ => false

section Places

variable {isPlace : List Char → Bool} {text front back : List Char}

/-- The first place that passes the test is one that passes it. -/
theorem splitBefore?_eq_some
    (split_eq : splitBefore? isPlace text = some (front, back)) :
    text = front ++ back ∧ isPlace back = true := by
  induction text generalizing front with
  | nil => simp [splitBefore?] at split_eq
  | cons character rest inductionHypothesis =>
      simp only [splitBefore?] at split_eq
      split at split_eq
      · rename_i found
        simp only [Option.some.injEq, Prod.mk.injEq] at split_eq
        obtain ⟨rfl, rfl⟩ := split_eq
        exact ⟨rfl, found⟩
      · simp only [Option.map_eq_some_iff, Prod.exists, Prod.mk.injEq] at split_eq
        obtain ⟨inner, last, inner_eq, rfl, rfl⟩ := split_eq
        obtain ⟨rest_eq, passes⟩ := inductionHypothesis inner_eq
        exact ⟨by rw [rest_eq, List.cons_append], passes⟩

/-- Text behind the first place does not matter if it changes no test in front of it. -/
theorem splitBefore?_append
    {suffix : List Char}
    (stable : ∀ character rest,
      isPlace (character :: rest ++ suffix) = isPlace (character :: rest))
    (split_eq : splitBefore? isPlace text = some (front, back)) :
    splitBefore? isPlace (text ++ suffix) = some (front, back ++ suffix) := by
  induction text generalizing front with
  | nil => simp [splitBefore?] at split_eq
  | cons character rest inductionHypothesis =>
      have same := stable character rest
      rw [List.cons_append] at same ⊢
      simp only [splitBefore?] at split_eq
      rw [splitBefore?, same]
      split at split_eq
      · rename_i found
        simp only [Option.some.injEq, Prod.mk.injEq] at split_eq
        obtain ⟨rfl, rfl⟩ := split_eq
        rw [if_pos found, List.cons_append]
      · rename_i missed
        simp only [Option.map_eq_some_iff, Prod.exists, Prod.mk.injEq] at split_eq
        obtain ⟨inner, last, inner_eq, rfl, rfl⟩ := split_eq
        rw [if_neg missed, inductionHypothesis inner_eq, Option.map_some]

/-- No place passes the test. -/
theorem splitBefore?_eq_none_iff :
    splitBefore? isPlace text = none ↔
      ∀ front back, text = front ++ back → back ≠ [] → isPlace back = false := by
  induction text with
  | nil => simp +contextual [splitBefore?]
  | cons character rest inductionHypothesis =>
      simp only [splitBefore?]
      split
      · rename_i found
        simp only [reduceCtorEq, false_iff]
        intro absent
        have missed := absent [] (character :: rest) rfl (by simp)
        rw [found] at missed
        simp at missed
      · rename_i missed
        rw [Option.map_eq_none_iff, inductionHypothesis]
        constructor
        · intro absent front back text_eq nonempty
          cases front with
          | nil =>
              rw [← text_eq.trans (List.nil_append back)]
              exact Bool.eq_false_iff.mpr missed
          | cons first front =>
              exact absent front back (List.cons.inj text_eq).2 nonempty
        · intro absent front back rest_eq
          exact absent (character :: front) back (by rw [rest_eq, List.cons_append])

end Places

@[simp] theorem closesLiteral_quote (rest : List Char) :
    closesLiteral ('"' :: rest) = Text.isBoundary rest.head? := rfl

theorem closesLiteral_of_ne
    {character : Char}
    (other : character ≠ '"')
    (rest : List Char) :
    closesLiteral (character :: rest) = false := by
  simp [closesLiteral, other]

@[simp] theorem closesComment_parenthesis (blank : Char) (rest : List Char) :
    closesComment (blank :: ')' :: rest) =
      (Text.isBlank blank && Text.isBoundary rest.head?) := rfl

theorem closesComment_of_ne
    {character : Char}
    (other : character ≠ ')')
    (blank : Char)
    (rest : List Char) :
    closesComment (blank :: character :: rest) = false := by
  simp [closesComment, other]

/-- A literal is not closed by what stands in front of a boundary. -/
theorem closesLiteral_append
    {suffix : List Char}
    (bounded : Text.isBoundary suffix.head? = true)
    (character : Char)
    (rest : List Char) :
    closesLiteral (character :: rest ++ suffix) = closesLiteral (character :: rest) := by
  by_cases quote : character = '"'
  · subst quote
    cases rest <;> simp [bounded]
  · rw [List.cons_append, closesLiteral_of_ne quote, closesLiteral_of_ne quote]

/-- A comment is not closed by what stands in front of a boundary. -/
theorem closesComment_append
    {suffix : List Char}
    (bounded : Text.isBoundary suffix.head? = true)
    (character : Char)
    (rest : List Char) :
    closesComment (character :: rest ++ suffix) = closesComment (character :: rest) := by
  cases rest with
  | nil =>
      cases suffix with
      | nil => rfl
      | cons blank suffix =>
          have other : blank ≠ ')' := by
            rintro rfl
            rw [List.head?_cons, Text.isBoundary_some] at bounded
            exact absurd bounded (by decide)
          exact closesComment_of_ne other character suffix
  | cons second rest =>
      by_cases parenthesis : second = ')'
      · subst parenthesis
        cases rest <;> simp [bounded]
      · rw [List.cons_append, List.cons_append, closesComment_of_ne parenthesis,
          closesComment_of_ne parenthesis]

/-- A place that closes a literal has a quote in front of a boundary. -/
theorem exists_of_closesLiteral
    {closing : List Char}
    (closes : closesLiteral closing = true) :
    ∃ later, closing = '"' :: later ∧ Text.isBoundary later.head? = true := by
  unfold closesLiteral at closes
  split at closes
  · exact ⟨_, rfl, closes⟩
  · simp at closes

/-- A place that closes a comment has a parenthesis in front of a boundary. -/
theorem exists_of_closesComment
    {closing : List Char}
    (closes : closesComment closing = true) :
    ∃ blank later, closing = blank :: ')' :: later ∧ Text.isBoundary later.head? = true := by
  unfold closesComment at closes
  split at closes
  · rw [Bool.and_eq_true] at closes
    exact ⟨_, _, rfl, closes.2⟩
  · simp at closes

/-- A word ends in front of a boundary. -/
theorem isBoundary_head?_dropWhile (text : List Char) :
    Text.isBoundary (text.dropWhile Lexer.isWordCharacter).head? = true := by
  induction text with
  | nil => rfl
  | cons character rest inductionHypothesis =>
      rw [List.dropWhile_cons]
      split
      · exact inductionHypothesis
      · simp_all [Lexer.isWordCharacter]

section Runs

variable {text suffix : List Char}

/-- A word does not go on behind a boundary. -/
theorem takeWhile_append_of_isBoundary (bounded : Text.isBoundary suffix.head? = true) :
    (text ++ suffix).takeWhile Lexer.isWordCharacter = text.takeWhile Lexer.isWordCharacter := by
  induction text with
  | nil =>
      cases suffix with
      | nil => rfl
      | cons blank suffix =>
          rw [List.head?_cons, Text.isBoundary_some] at bounded
          simp [Lexer.isWordCharacter, bounded]
  | cons character text inductionHypothesis =>
      rw [List.cons_append, List.takeWhile_cons, List.takeWhile_cons, inductionHypothesis]

/-- What follows a word is followed by what stands behind a boundary. -/
theorem dropWhile_append_of_isBoundary (bounded : Text.isBoundary suffix.head? = true) :
    (text ++ suffix).dropWhile Lexer.isWordCharacter =
      text.dropWhile Lexer.isWordCharacter ++ suffix := by
  induction text with
  | nil =>
      cases suffix with
      | nil => rfl
      | cons blank suffix =>
          rw [List.head?_cons, Text.isBoundary_some] at bounded
          simp [Lexer.isWordCharacter, bounded]
  | cons character text inductionHypothesis =>
      rw [List.cons_append, List.dropWhile_cons, List.dropWhile_cons, inductionHypothesis]
      split <;> rfl

/-- A run without blanks is all of the word that it starts, up to a boundary. -/
theorem takeWhile_append_of_solid
    (solid : ∀ character ∈ text, Text.isBlank character = false)
    (bounded : Text.isBoundary suffix.head? = true) :
    (text ++ suffix).takeWhile Lexer.isWordCharacter = text := by
  rw [takeWhile_append_of_isBoundary bounded, List.takeWhile_eq_self_iff]
  intro character present
  rw [Lexer.isWordCharacter, solid character present]
  rfl

/-- What follows a run without blanks is what stands behind the boundary. -/
theorem dropWhile_append_of_solid
    (solid : ∀ character ∈ text, Text.isBlank character = false)
    (bounded : Text.isBoundary suffix.head? = true) :
    (text ++ suffix).dropWhile Lexer.isWordCharacter = suffix := by
  rw [dropWhile_append_of_isBoundary bounded]
  have gone : text.dropWhile Lexer.isWordCharacter = [] := by
    rw [List.dropWhile_eq_nil_iff]
    intro character present
    rw [Lexer.isWordCharacter, solid character present]
    rfl
  rw [gone, List.nil_append]

end Runs

/-! ## Lexemes -/

/-- The header or the directive whose colon is behind, and the text that follows it. -/
def readMarker : List Char → Except Cause (Token × List Char)
  | [] => .error .strayMarker
  | follower :: rest =>
      if Text.isBlank follower then
        match (rest.dropWhile Text.isBlank).takeWhile Lexer.isWordCharacter with
        | [] => .error .missingName
        | name =>
            .ok (.header (String.ofList name),
              (rest.dropWhile Text.isBlank).dropWhile Lexer.isWordCharacter)
      else if Text.isAlphanumeric follower then
        let keyword := ':' :: (follower :: rest).takeWhile Lexer.isWordCharacter
        .ok (.directive (String.ofList keyword), (follower :: rest).dropWhile Lexer.isWordCharacter)
      else .error .strayMarker

/--
The lexeme at the front of a text, whose first character is given: the token that it
yields, if any, and the text that follows it.
-/
def readLexeme (first : Char) (rest : List Char) : Except Cause (Option Token × List Char) :=
  if Text.isBlank first then .ok (none, rest)
  else if first = '#' then .ok (none, (rest.dropWhile (· != '\n')).tail)
  else if first = '"' then
    match splitBefore? closesLiteral rest with
    | none => .error .unclosedString
    | some (content, closing) => .ok (some (.literal (String.ofList content)), closing.tail)
  else if first = '(' ∧ Text.isBoundary rest.head? then
    match splitBefore? closesComment rest with
    | none => .ok (none, [])
    | some (_, closing) => .ok (none, closing.drop 2)
  else if first = ':' then (readMarker rest).map fun (token, later) => (some token, later)
  else if first = '[' ∧ Text.isBoundary rest.head? then .ok (some .openQuotation, rest)
  else if first = ']' ∧ Text.isBoundary rest.head? then .ok (some .closeQuotation, rest)
  else
    let word := String.ofList (first :: rest.takeWhile Lexer.isWordCharacter)
    .ok (some (if word = ";" then .terminator else .word word),
      rest.dropWhile Lexer.isWordCharacter)

/--
The productions of the grammar: a lexeme in a text, given as its first character and the
rest, and what reading it results in.
-/
inductive Production :
    Char → List Char → Except Cause (Option Token × List Char) → Prop
  | blank {first : Char} {rest : List Char} :
      Text.isBlank first = true →
      Production first rest (.ok (none, rest))
  /-- A comment up to the end of the line. -/
  | line {rest : List Char} :
      Production '#' rest (.ok (none, (rest.dropWhile (· != '\n')).tail))
  | literal {rest content closing : List Char} :
      splitBefore? closesLiteral rest = some (content, closing) →
      Production '"' rest (.ok (some (.literal (String.ofList content)), closing.tail))
  | unclosedLiteral {rest : List Char} :
      splitBefore? closesLiteral rest = none →
      Production '"' rest (.error .unclosedString)
  /-- A comment between parentheses. -/
  | comment {rest remark closing : List Char} :
      Text.isBoundary rest.head? = true →
      splitBefore? closesComment rest = some (remark, closing) →
      Production '(' rest (.ok (none, closing.drop 2))
  | unclosedComment {rest : List Char} :
      Text.isBoundary rest.head? = true →
      splitBefore? closesComment rest = none →
      Production '(' rest (.ok (none, []))
  | header {follower : Char} {rest : List Char} :
      Text.isBlank follower = true →
      (rest.dropWhile Text.isBlank).takeWhile Lexer.isWordCharacter ≠ [] →
      Production ':' (follower :: rest)
        (.ok
          (some (.header
            (String.ofList ((rest.dropWhile Text.isBlank).takeWhile Lexer.isWordCharacter))),
            (rest.dropWhile Text.isBlank).dropWhile Lexer.isWordCharacter))
  | missingName {follower : Char} {rest : List Char} :
      Text.isBlank follower = true →
      (rest.dropWhile Text.isBlank).takeWhile Lexer.isWordCharacter = [] →
      Production ':' (follower :: rest) (.error .missingName)
  | directive {follower : Char} {rest : List Char} :
      Text.isBlank follower = false →
      Text.isAlphanumeric follower = true →
      Production ':' (follower :: rest)
        (.ok
          (some (.directive
            (String.ofList (':' :: (follower :: rest).takeWhile Lexer.isWordCharacter))),
            (follower :: rest).dropWhile Lexer.isWordCharacter))
  | strayMarker {rest : List Char} :
      (∀ follower ∈ rest.head?,
        Text.isBlank follower = false ∧ Text.isAlphanumeric follower = false) →
      Production ':' rest (.error .strayMarker)
  | openQuotation {rest : List Char} :
      Text.isBoundary rest.head? = true →
      Production '[' rest (.ok (some .openQuotation, rest))
  | closeQuotation {rest : List Char} :
      Text.isBoundary rest.head? = true →
      Production ']' rest (.ok (some .closeQuotation, rest))
  | word {first : Char} {rest : List Char} :
      Text.isBlank first = false →
      first ∉ ['#', '"', ':'] →
      (first ∈ ['(', '[', ']'] → Text.isBoundary rest.head? = false) →
      Production first rest
        (.ok
          (some (Lexer.wordToken
            (String.ofList (first :: rest.takeWhile Lexer.isWordCharacter))),
            rest.dropWhile Lexer.isWordCharacter))

/-- A lexeme is read by the production that it is of. -/
theorem Production.readLexeme_eq
    {first : Char}
    {rest : List Char}
    {result : Except Cause (Option Token × List Char)}
    (production : Production first rest result) :
    readLexeme first rest = result := by
  cases production with
  | blank blank => simp [readLexeme, blank]
  | line => simp [readLexeme, show Text.isBlank '#' = false by decide]
  | literal split_eq => simp [readLexeme, show Text.isBlank '"' = false by decide, split_eq]
  | unclosedLiteral split_eq =>
      simp [readLexeme, show Text.isBlank '"' = false by decide, split_eq]
  | comment bounded split_eq =>
      simp [readLexeme, show Text.isBlank '(' = false by decide, bounded, split_eq]
  | unclosedComment bounded split_eq =>
      simp [readLexeme, show Text.isBlank '(' = false by decide, bounded, split_eq]
  | header blank named =>
      simp only [readLexeme, show Text.isBlank ':' = false by decide, readMarker, blank]
      simp [Except.map]
  | missingName blank nameless =>
      simp [readLexeme, show Text.isBlank ':' = false by decide, readMarker, blank, nameless,
        Except.map]
  | directive solid alphanumeric =>
      simp [readLexeme, show Text.isBlank ':' = false by decide, readMarker, solid,
        alphanumeric, Except.map]
  | strayMarker stray =>
      cases rest with
      | nil => simp [readLexeme, show Text.isBlank ':' = false by decide, readMarker, Except.map]
      | cons follower rest =>
          obtain ⟨solid, other⟩ := stray follower rfl
          simp [readLexeme, show Text.isBlank ':' = false by decide, readMarker, solid, other,
            Except.map]
  | openQuotation bounded => simp [readLexeme, show Text.isBlank '[' = false by decide, bounded]
  | closeQuotation bounded => simp [readLexeme, show Text.isBlank ']' = false by decide, bounded]
  | word solid unmarked unbounded =>
      simp only [List.mem_cons, List.not_mem_nil, or_false, not_or] at unmarked unbounded
      simp [readLexeme, solid, unmarked, Lexer.wordToken]
      grind

/-- Every text that is not empty starts with a lexeme of some production. -/
theorem production_readLexeme (first : Char) (rest : List Char) :
    Production first rest (readLexeme first rest) := by
  unfold readLexeme
  split
  · exact .blank ‹_›
  rename_i solid
  split
  · rename_i first_eq
    exact first_eq ▸ .line
  split
  · rename_i first_eq
    subst first_eq
    split
    · exact .unclosedLiteral ‹_›
    · exact .literal ‹_›
  split
  · rename_i opening
    obtain ⟨rfl, bounded⟩ := opening
    split
    · exact .unclosedComment bounded ‹_›
    · exact .comment bounded ‹_›
  split
  · rename_i first_eq
    subst first_eq
    unfold readMarker
    split
    · exact .strayMarker (by simp)
    · rename_i follower rest
      split
      · rename_i blank
        split
        · exact .missingName blank ‹_›
        · rename_i name named
          exact .header blank named
      · rename_i followerSolid
        split
        · exact .directive (by simpa using followerSolid) ‹_›
        · exact .strayMarker (by simp_all)
  split
  · rename_i opening
    obtain ⟨rfl, bounded⟩ := opening
    exact .openQuotation bounded
  split
  · rename_i closing
    obtain ⟨rfl, bounded⟩ := closing
    exact .closeQuotation bounded
  · exact .word (by simpa using solid) (by simp_all) (by grind)

/-- What follows a lexeme is at the end of the text. -/
theorem suffix_of_readLexeme
    {first : Char}
    {rest later : List Char}
    {token : Option Token}
    (read_eq : readLexeme first rest = .ok (token, later)) :
    later <:+ rest := by
  have closing {isPlace : List Char → Bool} {front back : List Char}
      (split_eq : splitBefore? isPlace rest = some (front, back)) : back <:+ rest :=
    ⟨front, (splitBefore?_eq_some split_eq).1.symm⟩
  have production := production_readLexeme first rest
  rw [read_eq] at production
  cases production with
  | blank | openQuotation | closeQuotation => exact List.suffix_rfl
  | line => exact (List.tail_suffix _).trans (List.dropWhile_suffix _)
  | literal split_eq => exact (List.tail_suffix _).trans (closing split_eq)
  | comment bounded split_eq => exact (List.drop_suffix 2 _).trans (closing split_eq)
  | unclosedComment => exact List.nil_suffix
  | header =>
      exact (List.dropWhile_suffix _).trans
        ((List.dropWhile_suffix _).trans (List.suffix_cons _ _))
  | directive | word => exact List.dropWhile_suffix _

/-! ## Whole texts -/

/-- The tokens of a text. -/
def readTokens : List Char → Except Cause (List Token)
  | [] => .ok []
  | first :: rest =>
      match _ : readLexeme first rest with
      | .error cause => .error cause
      | .ok (token, later) => (readTokens later).map (token.toList ++ ·)
termination_by text => text.length
decreasing_by
  have shorter := (suffix_of_readLexeme ‹_›).length_le
  simp only [List.length_cons]
  omega

section Texts

variable {first : Char} {rest later : List Char} {token : Option Token}

@[simp] theorem readTokens_nil : readTokens [] = .ok [] := by
  rw [readTokens]

theorem readTokens_of_readLexeme
    (read_eq : readLexeme first rest = .ok (token, later)) :
    readTokens (first :: rest) = (readTokens later).map (token.toList ++ ·) := by
  rw [readTokens]
  split <;> simp_all

theorem readTokens_of_readLexeme_eq_error
    {cause : Cause}
    (read_eq : readLexeme first rest = .error cause) :
    readTokens (first :: rest) = .error cause := by
  rw [readTokens]
  split <;> simp_all

/-- A blank character yields nothing. -/
theorem readTokens_blank
    (blank : Text.isBlank first = true) :
    readTokens (first :: rest) = readTokens rest := by
  have read_eq : readLexeme first rest = .ok (none, rest) := by
    rw [readLexeme, if_pos blank]
  rw [readTokens_of_readLexeme read_eq]
  cases readTokens rest <;> rfl

end Texts

/-! ## Rejected texts -/

/-- The places of a text at which a lexeme is read, and the place at which one is rejected. -/
inductive Visits : List Char → List Char → Prop
  | here {text : List Char} : Visits text text
  | later {first : Char} {rest next place : List Char} {token : Option Token} :
      readLexeme first rest = .ok (token, next) →
      Visits next place →
      Visits (first :: rest) place

/-- The texts that start with no lexeme. -/
inductive Rejects : List Char → Cause → Prop
  /-- No quote that follows stands in front of a boundary. -/
  | unclosedLiteral {rest : List Char} :
      (∀ content later, rest = content ++ '"' :: later →
        Text.isBoundary later.head? = false) →
      Rejects ('"' :: rest) .unclosedString
  /-- Blanks are all that follows the colon. -/
  | missingName {rest : List Char} :
      rest ≠ [] →
      (∀ character ∈ rest, Text.isBlank character = true) →
      Rejects (':' :: rest) .missingName
  /-- The colon is followed by the end of the text or by a character of another class. -/
  | strayMarker {rest : List Char} :
      (∀ follower ∈ rest.head?,
        Text.isBlank follower = false ∧ Text.isAlphanumeric follower = false) →
      Rejects (':' :: rest) .strayMarker

/-- A literal is unclosed if no quote that follows stands in front of a boundary. -/
theorem splitBefore?_closesLiteral_eq_none_iff {rest : List Char} :
    splitBefore? closesLiteral rest = none ↔
      ∀ content later, rest = content ++ '"' :: later →
        Text.isBoundary later.head? = false := by
  rw [splitBefore?_eq_none_iff]
  constructor
  · intro open_eq content later rest_eq
    exact open_eq content ('"' :: later) rest_eq (by simp)
  · intro unclosed front back rest_eq nonempty
    unfold closesLiteral
    split
    · exact unclosed front _ rest_eq
    · rfl

/-- No name follows if blanks are all that follows. -/
theorem takeWhile_dropWhile_eq_nil_iff {rest : List Char} :
    (rest.dropWhile Text.isBlank).takeWhile Lexer.isWordCharacter = [] ↔
      ∀ character ∈ rest, Text.isBlank character = true := by
  rw [← List.dropWhile_eq_nil_iff]
  cases dropped_eq : rest.dropWhile Text.isBlank with
  | nil => simp
  | cons character later =>
      have solid := List.head_dropWhile_not Text.isBlank (l := rest) (by simp [dropped_eq])
      simp only [dropped_eq, List.head_cons] at solid
      simp [Lexer.isWordCharacter, solid]

theorem readLexeme_eq_error_iff
    {first : Char}
    {rest : List Char}
    {cause : Cause} :
    readLexeme first rest = .error cause ↔ Rejects (first :: rest) cause := by
  constructor
  · intro read_eq
    have production := production_readLexeme first rest
    rw [read_eq] at production
    cases production with
    | unclosedLiteral split_eq =>
        exact .unclosedLiteral (splitBefore?_closesLiteral_eq_none_iff.mp split_eq)
    | missingName blank nameless =>
        refine .missingName (by simp) ?_
        rw [List.forall_mem_cons]
        exact ⟨blank, takeWhile_dropWhile_eq_nil_iff.mp nameless⟩
    | strayMarker stray => exact .strayMarker stray
  · intro rejects
    cases rejects with
    | unclosedLiteral unclosed =>
        exact (Production.unclosedLiteral
          (splitBefore?_closesLiteral_eq_none_iff.mpr unclosed)).readLexeme_eq
    | missingName nonempty blank =>
        obtain ⟨follower, later, rfl⟩ := List.exists_cons_of_ne_nil nonempty
        rw [List.forall_mem_cons] at blank
        exact (Production.missingName blank.1
          (takeWhile_dropWhile_eq_nil_iff.mpr blank.2)).readLexeme_eq
    | strayMarker stray => exact (Production.strayMarker stray).readLexeme_eq

/-- A text is rejected at a place that is visited, and nowhere else. -/
theorem readTokens_eq_error_iff
    {text : List Char}
    {cause : Cause} :
    readTokens text = .error cause ↔ ∃ place, Visits text place ∧ Rejects place cause := by
  constructor
  · intro read_eq
    fun_induction readTokens text with
    | case1 => simp at read_eq
    | case2 first rest inner lexeme_eq =>
        simp only [Except.error.injEq] at read_eq
        exact ⟨first :: rest, .here, readLexeme_eq_error_iff.mp (read_eq ▸ lexeme_eq)⟩
    | case3 first rest token later lexeme_eq inductionHypothesis =>
        cases later_eq : readTokens later with
        | ok tokens => simp [later_eq, Except.map] at read_eq
        | error inner =>
            simp only [later_eq, Except.map, Except.error.injEq] at read_eq
            obtain ⟨place, visits, rejects⟩ := inductionHypothesis (read_eq ▸ later_eq)
            exact ⟨place, .later lexeme_eq visits, rejects⟩
  · rintro ⟨place, visits, rejects⟩
    induction visits with
    | @here text =>
        cases text with
        | nil => nomatch rejects
        | cons first rest =>
            exact readTokens_of_readLexeme_eq_error (readLexeme_eq_error_iff.mpr rejects)
    | later lexeme_eq visits inductionHypothesis =>
        rw [readTokens_of_readLexeme lexeme_eq, inductionHypothesis rejects]
        rfl

end Grammar
end Concatenative
