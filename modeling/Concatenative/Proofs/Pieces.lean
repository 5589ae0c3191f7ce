import Concatenative.Proofs.Lexing
import Concatenative.Proofs.Notes

/-!
# Programs in pieces

Two texts with a line break between them are read as one after the other is, unless the
first leaves a comment open.  So a program may be loaded in pieces: what the pieces do one
after the other is what the whole program does.
-/

namespace Concatenative
namespace Grammar

/-! ## Open comments -/

/-- A comment starts that no parenthesis between a blank and a boundary closes. -/
inductive OpensComment : List Char → Prop
  | intro {rest : List Char} :
      Text.isBoundary rest.head? = true →
      (∀ remark blank later, rest = remark ++ blank :: ')' :: later →
        Text.isBlank blank = true → Text.isBoundary later.head? = false) →
      OpensComment ('(' :: rest)

/-- A comment is open at the end of a text. -/
def LeavesCommentOpen (text : List Char) : Prop :=
  ∃ place, Visits text place ∧ OpensComment place

/-- A comment is open if no place that follows closes it. -/
theorem opensComment_of_splitBefore?
    {rest : List Char}
    (bounded : Text.isBoundary rest.head? = true)
    (split_eq : splitBefore? closesComment rest = none) :
    OpensComment ('(' :: rest) := by
  refine .intro bounded fun remark blank later rest_eq isBlank => ?_
  have missed := splitBefore?_eq_none_iff.mp split_eq remark _ rest_eq (by simp)
  rw [closesComment_parenthesis, isBlank, Bool.true_and] at missed
  exact missed

/-- What is visited is at the end of the text. -/
theorem Visits.suffix
    {text place : List Char}
    (visits : Visits text place) :
    place <:+ text := by
  induction visits with
  | here => exact List.suffix_rfl
  | later lexeme_eq _ inductionHypothesis =>
      exact inductionHypothesis.trans
        ((suffix_of_readLexeme lexeme_eq).trans (List.suffix_cons _ _))

/-- A text without opening parentheses leaves no comment open. -/
theorem not_leavesCommentOpen_of_not_mem
    {text : List Char}
    (absent : '(' ∉ text) :
    ¬LeavesCommentOpen text := by
  rintro ⟨place, visits, opens⟩
  cases opens with
  | intro => exact absent (visits.suffix.subset List.mem_cons_self)

/-! ## Behind a line break -/

/-- What follows a lexeme when a line break and another text are put behind it. -/
inductive FollowedBy (back : List Char) : List Char → List Char → Prop
  | line (later : List Char) : FollowedBy back later (later ++ '\n' :: back)
  /-- The line break ends a comment that the text ends with. -/
  | comment : FollowedBy back [] back

/-- A lexeme is read no further than a line break behind it. -/
theorem readLexeme_append_line
    {first : Char}
    {rest later : List Char}
    {token : Option Token}
    (read_eq : readLexeme first rest = .ok (token, later))
    (closed : ¬OpensComment (first :: rest))
    (back : List Char) :
    ∃ next, readLexeme first (rest ++ '\n' :: back) = .ok (token, next) ∧
      FollowedBy back later next := by
  have bounded : Text.isBoundary ('\n' :: back).head? = true := by
    rw [List.head?_cons, Text.isBoundary_some]
    decide
  have ahead : Text.isBoundary (rest ++ '\n' :: back).head? = Text.isBoundary rest.head? := by
    cases rest with
    | nil => exact bounded
    | cons => rfl
  have production := production_readLexeme first rest
  rw [read_eq] at production
  cases production with
  | blank blank => exact ⟨_, (Production.blank blank).readLexeme_eq, .line _⟩
  | line =>
      refine ⟨_, Production.line.readLexeme_eq, ?_⟩
      rw [List.dropWhile_append]
      -- Without a line break of its own the comment goes on to the one behind the text.
      cases dropped_eq : rest.dropWhile (· != '\n') with
      | nil => exact .comment
      | cons lineBreak others => exact .line others
  | @literal _ content closing split_eq =>
      have production := Production.literal
        (splitBefore?_append (closesLiteral_append bounded) split_eq)
      obtain ⟨others, rfl, -⟩ := exists_of_closesLiteral (splitBefore?_eq_some split_eq).2
      exact ⟨_, production.readLexeme_eq, .line others⟩
  | @comment _ remark closing opening split_eq =>
      have production := Production.comment (ahead.trans opening)
        (splitBefore?_append (closesComment_append bounded) split_eq)
      obtain ⟨blank, others, rfl, -⟩ := exists_of_closesComment (splitBefore?_eq_some split_eq).2
      exact ⟨_, production.readLexeme_eq, .line others⟩
  | unclosedComment opening split_eq =>
      exact absurd (opensComment_of_splitBefore? opening split_eq) closed
  | @header follower rest blank named =>
      have dropped : (rest ++ '\n' :: back).dropWhile Text.isBlank =
          rest.dropWhile Text.isBlank ++ '\n' :: back := by
        have nonempty : rest.dropWhile Text.isBlank ≠ [] := by
          intro dropped_eq
          simp [dropped_eq] at named
        rw [List.dropWhile_append, if_neg (by simpa using nonempty)]
      have production : Production ':' (follower :: (rest ++ '\n' :: back)) _ :=
        .header blank (by rwa [dropped, takeWhile_append_of_isBoundary bounded])
      rw [dropped, takeWhile_append_of_isBoundary bounded, dropWhile_append_of_isBoundary bounded]
        at production
      exact ⟨_, production.readLexeme_eq, .line _⟩
  | @directive follower rest solid alphanumeric =>
      have production : Production ':' (follower :: (rest ++ '\n' :: back)) _ :=
        .directive solid alphanumeric
      rw [← List.cons_append, takeWhile_append_of_isBoundary bounded,
        dropWhile_append_of_isBoundary bounded]
        at production
      exact ⟨_, production.readLexeme_eq, .line _⟩
  | openQuotation opening =>
      exact ⟨_, (Production.openQuotation (ahead.trans opening)).readLexeme_eq, .line _⟩
  | closeQuotation opening =>
      exact ⟨_, (Production.closeQuotation (ahead.trans opening)).readLexeme_eq, .line _⟩
  | word solid unmarked unbounded =>
      have production : Production first (rest ++ '\n' :: back) _ :=
        .word solid unmarked fun special => ahead.trans (unbounded special)
      rw [takeWhile_append_of_isBoundary bounded, dropWhile_append_of_isBoundary bounded]
        at production
      exact ⟨_, production.readLexeme_eq, .line _⟩

/-- Two texts with a line break between them are read one after the other. -/
theorem readTokens_append_line
    {front : List Char}
    {tokens : List Token}
    (read_eq : readTokens front = .ok tokens)
    (closed : ¬LeavesCommentOpen front)
    (back : List Char) :
    readTokens (front ++ '\n' :: back) = (readTokens back).map (tokens ++ ·) := by
  have broken (place : List Char) : readTokens ('\n' :: place) = readTokens place :=
    readTokens_blank (by decide)
  fun_induction readTokens front generalizing tokens with
  | case1 =>
      obtain rfl := Except.ok.inj read_eq
      rw [List.nil_append, broken]
      cases readTokens back <;> rfl
  | case2 => cases read_eq
  | case3 first rest token later lexeme_eq inductionHypothesis =>
      cases later_eq : readTokens later with
      | error cause => simp [later_eq, Except.map] at read_eq
      | ok others =>
          simp only [later_eq, Except.map, Except.ok.injEq] at read_eq
          obtain ⟨next, next_eq, follows⟩ :=
            readLexeme_append_line lexeme_eq (fun opens => closed ⟨_, .here, opens⟩) back
          have rest_eq : readTokens next = (readTokens back).map (others ++ ·) := by
            have laterClosed : ¬LeavesCommentOpen later := by
              rintro ⟨place, visits, opens⟩
              exact closed ⟨place, .later lexeme_eq visits, opens⟩
            have appended := inductionHypothesis later_eq laterClosed
            cases follows with
            | line => exact appended
            | comment => rwa [List.nil_append, broken] at appended
          rw [List.cons_append, readTokens_of_readLexeme next_eq, rest_eq, ← read_eq]
          cases readTokens back with
          | error cause => rfl
          | ok last => simp [Except.map]

end Grammar

namespace Lexer

/-- Two texts with a line break between them have the tokens of one after those of the other. -/
theorem tokens_append_line
    {front back : String}
    {frontTokens backTokens : List Token}
    (front_eq : tokens front = .ok frontTokens)
    (back_eq : tokens back = .ok backTokens)
    (closed : ¬Grammar.LeavesCommentOpen front.toList) :
    tokens (front ++ "\n" ++ back) = .ok (frontTokens ++ backTokens) := by
  rw [tokens_eq] at front_eq back_eq ⊢
  have broken : (front ++ "\n" ++ back).toList = front.toList ++ '\n' :: back.toList := by
    simp [String.toList_append]
  rw [broken, Grammar.readTokens_append_line front_eq closed, back_eq]
  rfl

end Lexer

namespace Session

variable {session : Session}

/--
A source that is loaded to its end, and then another, are loaded as one source that
consists of both.
-/
theorem loadSource_append
    {fuel : Nat}
    {inclusion : Inclusion}
    {name : String}
    {front : List Token}
    (ignores : IgnoresNotes inclusion)
    (keeps : KeepsSource inclusion)
    (ended : (session.loadSource fuel inclusion name front).result = .ok ())
    (back : List Token) :
    Outcome.Alike SameButNotes
      ((session.loadSource fuel inclusion name front).state.loadSource fuel inclusion name back)
      (session.loadSource fuel inclusion name (front ++ back)) := by
  let first := { session with source := some name }.note (.loading name front.length)
  let whole := { session with source := some name }.note (.loading name (front ++ back).length)
  -- The whole source starts as its first part does, but for the note of its length.
  have started : SameButNotes first whole := ⟨rfl, rfl, rfl⟩
  have outcome_eq : session.loadSource fuel inclusion name front =
      ((first.loadTokens fuel inclusion front).mapStop (Stop.within name)).mapState fun after =>
        { after with source := session.source } := rfl
  rcases (first.loadTokens fuel inclusion front).done_or_stopped with
    ⟨middle, ⟨⟩, front_eq⟩ | ⟨middle, stop, front_eq⟩
  · have named : middle.source = some name := by
      have kept : (first.loadTokens fuel inclusion front).state.source = first.source :=
        source_loadTokens keeps front
      rw [front_eq] at kept
      exact kept
    have frontAlike := started.loadTokens Machine.isCongruence_eq fuel ignores front
    rw [front_eq] at frontAlike
    obtain ⟨other, other_eq, same⟩ := frontAlike.exists_done
    have goesOn : SameButNotes
        ({ middle with source := some name }.note (.loading name back.length)) other :=
      ⟨same.machines, same.source_eq.trans named, same.loading_eq⟩
    have backAlike := (goesOn.loadTokens Machine.isCongruence_eq fuel ignores back).mapStop
      (Stop.within name)
    rw [← loadTokens_append other_eq back] at backAlike
    rw [outcome_eq, front_eq]
    unfold loadSource
    refine Outcome.Alike.mapState backAlike ?_
    intro left right after
    exact ⟨after.machines, rfl, after.loading_eq⟩
  · rw [outcome_eq, front_eq] at ended
    cases ended

/--
A program that is executed in two pieces, the first of which leaves no comment open, does
what it does as a whole with a line break between the pieces: it ends alike, under the same
name, with the same machine, the same source and the same files being loaded.
-/
theorem execute_append
    (session : Session)
    (environment : Environment)
    (name front back : String)
    {frontTokens backTokens : List Token}
    (front_eq : Lexer.tokens front = .ok frontTokens)
    (back_eq : Lexer.tokens back = .ok backTokens)
    (closed : ¬Grammar.LeavesCommentOpen front.toList) :
    Lexer.tokens (front ++ "\n" ++ back) = .ok (frontTokens ++ backTokens) ∧
      ((session.execute environment name front).result = .ok () →
        let pieces :=
          (session.execute environment name front).state.execute environment name back
        let whole := session.execute environment name (front ++ "\n" ++ back)
        whole.result = pieces.result ∧
          whole.state.machine = pieces.state.machine ∧
          whole.state.source = pieces.state.source ∧
          whole.state.loading = pieces.state.loading) := by
  have whole_eq := Lexer.tokens_append_line front_eq back_eq closed
  refine ⟨whole_eq, fun ended => ?_⟩
  simp only [execute, Lexer.tokenize_of_tokens front_eq, Lexer.tokenize_of_tokens back_eq,
    Lexer.tokenize_of_tokens whole_eq] at ended ⊢
  have ignores := ignoresNotes_includeBy environment.files
    (ignoresNotes_loadNested environment environment.nesting)
  have keeps := keepsSource_includeBy environment.files
    (keepsSource_loadNested environment environment.nesting)
  have alike := loadSource_append ignores keeps ended backTokens
  exact ⟨alike.result_eq, alike.states.machine_eq, alike.states.source_eq,
    alike.states.loading_eq⟩

/-- The first piece defines a word and ends in a comment, and the word fails in the second. -/
theorem execute_append_remainder :
    let session := initial .standard
    let environment : Environment := ⟨.empty [], 9⟩
    let front := ": rest 0 mod ; 8 # fails"
    let pieces :=
      (session.execute environment "<input>" front).state.execute environment "<input>" "9 rest"
    let whole := session.execute environment "<input>" (front ++ "\n" ++ "9 rest")
    pieces.result.toOption = none ∧
      pieces.state.dictionary.contains "rest" = true ∧
      whole.result = pieces.result ∧
      whole.state.machine = pieces.state.machine := by
  intro session environment front pieces whole
  have front_eq : Lexer.tokens front =
      .ok [.header "rest", .word "0", .word "mod", .terminator, .word "8"] :=
    eq_ok_of_toOption (by decide +kernel)
  have back_eq : Lexer.tokens "9 rest" = .ok [.word "9", .word "rest"] :=
    eq_ok_of_toOption (by decide +kernel)
  have closed : ¬Grammar.LeavesCommentOpen front.toList :=
    Grammar.not_leavesCommentOpen_of_not_mem (by decide)
  have ended : (session.execute environment "<input>" front).result = .ok () :=
    eq_ok_of_toOption (by decide +kernel)
  have same :=
    (execute_append session environment "<input>" front _ front_eq back_eq closed).2 ended
  exact ⟨by decide +kernel, by decide +kernel, same.1, same.2.1⟩

end Session
end Concatenative
