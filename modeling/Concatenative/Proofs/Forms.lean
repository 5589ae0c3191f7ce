import Concatenative.Proofs.Run
import Concatenative.Session.Loader

/-!
# Top-level forms

A program is a sequence of forms: definitions, directives with their arguments, and values.
Loading takes one form after the other off the tokens, and a form does not reach beyond
its last token, so what follows does not matter to it.

What surrounds the program, such as the name of its source, is the same after every form.
-/

namespace Concatenative

/-- What has a result has succeeded. -/
theorem eq_ok_of_toOption
    {ε α : Type}
    {outcome : Except ε α}
    {result : α}
    (some_eq : outcome.toOption = some result) :
    outcome = .ok result := by
  cases outcome with
  | error => nomatch some_eq
  | ok => exact congrArg Except.ok (Option.some.inj some_eq)

namespace Outcome

variable {σ α β γ : Type}

theorem andThen_assoc
    (outcome : Outcome σ α)
    (next : σ → α → Outcome σ β)
    (last : σ → β → Outcome σ γ) :
    (outcome.andThen next).andThen last =
      outcome.andThen fun state result => (next state result).andThen last := by
  rcases outcome.done_or_stopped with ⟨state, result, rfl⟩ | ⟨state, stop, rfl⟩ <;> rfl

/-- Both of two operations end if one after the other does. -/
theorem andThen_eq_done_iff
    {outcome : Outcome σ α}
    {next : σ → α → Outcome σ β}
    {last : σ}
    {result : β} :
    outcome.andThen next = done last result ↔
      ∃ state first, outcome = done state first ∧ next state first = done last result := by
  rcases outcome.done_or_stopped with ⟨state, first, rfl⟩ | ⟨state, stop, rfl⟩
  · constructor
    · exact fun next_eq => ⟨state, first, rfl, next_eq⟩
    · rintro ⟨other, second, done_eq, next_eq⟩
      obtain ⟨rfl, rfl⟩ := done_inj.mp done_eq
      exact next_eq
  · simp

/-- One operation after the other stops as the first does, or as the second does. -/
theorem result_andThen_eq_error_iff
    {outcome : Outcome σ α}
    {next : σ → α → Outcome σ β}
    {stop : Stop} :
    (outcome.andThen next).result = .error stop ↔
      outcome.result = .error stop ∨
        ∃ state first, outcome = done state first ∧ (next state first).result = .error stop := by
  rcases outcome.done_or_stopped with ⟨state, first, rfl⟩ | ⟨state, inner, rfl⟩
  · constructor
    · exact fun next_eq => .inr ⟨state, first, rfl, next_eq⟩
    · rintro (result_eq | ⟨other, second, done_eq, next_eq⟩)
      · nomatch result_eq
      · obtain ⟨rfl, rfl⟩ := done_inj.mp done_eq
        exact next_eq
  · constructor
    · exact fun result_eq => .inl (congrArg Except.error (Except.error.inj result_eq))
    · rintro (result_eq | ⟨other, second, done_eq, -⟩)
      · exact congrArg Except.error (Except.error.inj result_eq)
      · nomatch done_eq

end Outcome

namespace Reader

variable {dictionary : Dictionary} {tokens rest : List Token} {value : Value}

/-! ## What follows what is read -/

/-- A quotation is followed by the tokens at the end, and does not hang on them. -/
theorem readQuotation_append
    {content : List Value}
    {outer : List (List Value)}
    (read_eq : readQuotation dictionary content outer tokens = .ok (value, rest)) :
    rest <:+ tokens ∧
      ∀ more, readQuotation dictionary content outer (tokens ++ more) =
        .ok (value, rest ++ more) := by
  induction tokens generalizing content outer with
  | nil => simp [readQuotation] at read_eq
  | cons token tokens inductionHypothesis =>
      have later : ∀ {content : List Value} {outer : List (List Value)},
          readQuotation dictionary content outer tokens = .ok (value, rest) →
            rest <:+ token :: tokens ∧
              ∀ more, readQuotation dictionary content outer (tokens ++ more) =
                .ok (value, rest ++ more) := by
        intro content outer later_eq
        obtain ⟨suffix, same⟩ := inductionHypothesis later_eq
        exact ⟨suffix.trans (List.suffix_cons token tokens), same⟩
      cases token with
      | directive _ | header _ | terminator => simp [readQuotation] at read_eq
      | openQuotation | literal _ =>
          simp only [readQuotation, List.cons_append] at read_eq ⊢
          exact later read_eq
      | closeQuotation =>
          simp only [readQuotation, List.cons_append] at read_eq ⊢
          split at read_eq
          · simp only [Except.ok.injEq, Prod.mk.injEq] at read_eq
            obtain ⟨rfl, rfl⟩ := read_eq
            exact ⟨List.suffix_cons _ _, fun more => rfl⟩
          · exact later read_eq
      | word characters =>
          simp only [readQuotation, List.cons_append] at read_eq ⊢
          cases resolve_eq : resolve dictionary characters with
          | error stop => simp [resolve_eq] at read_eq
          | ok first =>
              simp only [resolve_eq] at read_eq
              exact later read_eq

/-- A value is followed by the tokens at the end, and does not hang on them. -/
theorem readValue_append
    {token : Token}
    (read_eq : readValue dictionary token tokens = .ok (value, rest)) :
    rest <:+ tokens ∧
      ∀ more, readValue dictionary token (tokens ++ more) = .ok (value, rest ++ more) := by
  cases token with
  | directive _ | header _ | terminator | closeQuotation => simp [readValue] at read_eq
  | openQuotation => exact readQuotation_append read_eq
  | literal characters =>
      simp only [readValue, Except.ok.injEq, Prod.mk.injEq] at read_eq ⊢
      obtain ⟨rfl, rfl⟩ := read_eq
      simp
  | word characters =>
      simp only [readValue] at read_eq ⊢
      cases resolve_eq : resolve dictionary characters with
      | error stop => simp [resolve_eq, Except.map] at read_eq
      | ok first =>
          simp only [resolve_eq, Except.map, Except.ok.injEq, Prod.mk.injEq] at read_eq ⊢
          obtain ⟨rfl, rfl⟩ := read_eq
          simp

/-- A value that is read goes into the body that is read. -/
theorem readBody_of_readValue
    {name : String}
    {body : List Value}
    {token : Token}
    (read_eq : readValue dictionary token tokens = .ok (value, rest)) :
    readBody dictionary name body (token :: tokens) =
      readBody dictionary name (value :: body) rest := by
  conv => lhs; unfold readBody
  cases token with
  | terminator | header _ | directive _ => simp [readValue] at read_eq
  | word _ | literal _ | openQuotation | closeQuotation =>
      simp only
      split
      · rename_i stop stopped_eq
        rw [read_eq] at stopped_eq
        cases stopped_eq
      · rename_i other later other_eq
        rw [read_eq, Except.ok.injEq, Prod.mk.injEq] at other_eq
        obtain ⟨rfl, rfl⟩ := other_eq
        rfl

/-- A body is followed by the tokens at the end, and does not hang on them. -/
theorem readBody_append
    {name : String}
    {body result : List Value}
    (read_eq : readBody dictionary name body tokens = .ok (result, rest)) :
    rest <:+ tokens ∧
      ∀ more, readBody dictionary name body (tokens ++ more) = .ok (result, rest ++ more) := by
  fun_induction readBody dictionary name body tokens with
  | case1 | case3 | case4 | case5 => simp at read_eq
  | case2 body tokens =>
      simp only [Except.ok.injEq, Prod.mk.injEq] at read_eq
      obtain ⟨rfl, rfl⟩ := read_eq
      refine ⟨List.suffix_cons _ _, fun more => ?_⟩
      rw [List.cons_append, readBody]
  | case6 body token tokens _ _ _ first remaining value_eq
      inductionHypothesis =>
      obtain ⟨suffix, same⟩ := inductionHypothesis read_eq
      obtain ⟨valueSuffix, valueSame⟩ := readValue_append value_eq
      refine ⟨suffix.trans (valueSuffix.trans (List.suffix_cons token tokens)), fun more => ?_⟩
      rw [List.cons_append, readBody_of_readValue (valueSame more)]
      exact same more

/-- A definition is followed by the tokens at the end, and does not hang on them. -/
theorem readDefinition_append
    {name : String}
    {body : Body}
    (read_eq : readDefinition dictionary name tokens = .ok (body, rest)) :
    rest <:+ tokens ∧
      ∀ more, readDefinition dictionary name (tokens ++ more) = .ok (body, rest ++ more) := by
  unfold readDefinition at read_eq ⊢
  cases check_eq : checkName name with
  | error stop => simp [check_eq] at read_eq
  | ok =>
      simp only [check_eq] at read_eq ⊢
      exact readBody_append read_eq

end Reader

/--
Induction along the forms of a program: what holds of the tokens behind the first form,
wherever that ends, holds of all tokens.
-/
@[elab_as_elim]
theorem formInduction
    {motive : List Token → Prop}
    (nil : motive [])
    (cons : ∀ token rest, (∀ later, later <:+ rest → motive later) → motive (token :: rest))
    (tokens : List Token) :
    motive tokens := by
  induction length_eq : tokens.length using Nat.strongRecOn generalizing tokens with
  | ind length inductionHypothesis =>
      subst length_eq
      cases tokens with
      | nil => exact nil
      | cons token rest =>
          refine cons token rest fun later suffix => inductionHypothesis _ ?_ later rfl
          exact Nat.lt_succ_of_le suffix.length_le

namespace Session

/-! ## Forms -/

/-- Loads the form that a token starts, and hands over the tokens that follow the form. -/
def loadForm (session : Session) (fuel : Nat) (inclusion : Inclusion) (token : Token)
    (rest : List Token) : Outcome Session (List Token) :=
  match token with
  | .header name =>
      match Reader.readDefinition session.dictionary name rest with
      | .error stop => .stopped session stop
      | .ok (body, rest) => (session.define name body).andThen fun session _ => .done session rest
  | .directive keyword =>
      match checkDirective keyword rest.head? with
      | .error cause => .failed session cause
      | .ok (directive, argument) =>
          let session := session.note (.directive keyword argument)
          (session.applyDirective inclusion directive argument).andThen fun session _ =>
            .done session rest.tail
  | token =>
      match Reader.readValue session.dictionary token rest with
      | .error stop => .stopped session stop
      | .ok (value, rest) =>
          (session.onMachine fun machine => machine.dispatch fuel value).andThen
            fun session _ => .done session rest

/-- A directive is followed by a token that it accepts. -/
theorem checkDirective_eq_ok
    {keyword argument : String}
    {follower : Option Token}
    {directive : Directive}
    (check_eq : checkDirective keyword follower = .ok (directive, argument)) :
    directive.keyword = keyword ∧
      ∃ token, follower = some token ∧ token.kind ∈ directive.accepts ∧
        token.text = argument := by
  unfold checkDirective at check_eq
  split at check_eq
  · simp at check_eq
  · rename_i found found_eq
    split at check_eq
    · simp at check_eq
    · rename_i token
      split at check_eq
      · rename_i accepted
        simp only [Except.ok.injEq, Prod.mk.injEq] at check_eq
        obtain ⟨rfl, rfl⟩ := check_eq
        have keyword_eq : found.keyword = keyword := by simpa using List.find?_some found_eq
        exact ⟨keyword_eq, token, rfl, accepted, rfl⟩
      · simp at check_eq

section Forms

variable
  {session : Session}
  {fuel : Nat}
  {inclusion : Inclusion}
  {token : Token}
  {rest later : List Token}

@[simp] theorem loadTokens_nil : session.loadTokens fuel inclusion [] = .done session () := by
  rw [loadTokens]

/-- Loading tokens is loading their first form, and then the others. -/
theorem loadTokens_cons :
    session.loadTokens fuel inclusion (token :: rest) =
      (session.loadForm fuel inclusion token rest).andThen fun session rest =>
        session.loadTokens fuel inclusion rest := by
  conv => lhs; unfold loadTokens
  unfold loadForm
  cases token with
  | header name =>
      simp only
      split
      · rename_i read_eq
        rw [read_eq]
        rfl
      · rename_i body remaining read_eq
        rw [read_eq, Outcome.andThen_assoc]
        rfl
  | directive keyword =>
      simp only
      cases checkDirective keyword rest.head? with
      | error cause => rfl
      | ok checked =>
          simp only
          rw [Outcome.andThen_assoc]
          rfl
  | terminator | word _ | literal _ | openQuotation | closeQuotation =>
      simp only
      split
      · rename_i read_eq
        rw [read_eq]
        rfl
      · rename_i value remaining read_eq
        rw [read_eq, Outcome.andThen_assoc]
        rfl

/-- A form that is a value is run. -/
theorem loadForm_of_readValue
    {value : Value}
    (read_eq : Reader.readValue session.dictionary token rest = .ok (value, later)) :
    session.loadForm fuel inclusion token rest =
      (session.onMachine fun machine => machine.dispatch fuel value).andThen
        fun session _ => .done session later := by
  cases token with
  | header _ | directive _ => nomatch read_eq
  | terminator | word _ | literal _ | openQuotation | closeQuotation =>
      simp only [loadForm, read_eq]

/-- A form is followed by the tokens at the end. -/
theorem suffix_of_loadForm
    (load_eq : (session.loadForm fuel inclusion token rest).result = .ok later) :
    later <:+ rest := by
  have handed : ∀ {outcome : Outcome Session Unit} {remaining : List Token},
      (outcome.andThen fun session _ => .done session remaining).result = .ok later →
        later = remaining := by
    intro outcome remaining result_eq
    rcases outcome.done_or_stopped with ⟨after, result, rfl⟩ | ⟨after, stop, rfl⟩
    · exact (Except.ok.inj result_eq).symm
    · cases result_eq
  unfold loadForm at load_eq
  split at load_eq
  · split at load_eq
    · cases load_eq
    · rename_i body remaining read_eq
      rw [handed load_eq]
      exact (Reader.readDefinition_append read_eq).1
  · split at load_eq
    · cases load_eq
    · rw [handed load_eq]
      exact List.tail_suffix rest
  · split at load_eq
    · cases load_eq
    · rename_i value remaining read_eq
      rw [handed load_eq]
      exact (Reader.readValue_append read_eq).1

/-- A form that is loaded does not hang on the tokens that follow it. -/
theorem loadForm_append
    {after : Session}
    (load_eq : session.loadForm fuel inclusion token rest = .done after later)
    (more : List Token) :
    session.loadForm fuel inclusion token (rest ++ more) = .done after (later ++ more) := by
  have handed : ∀ {outcome : Outcome Session Unit} {remaining : List Token},
      (outcome.andThen fun session _ => .done session remaining) = .done after later →
        (outcome.andThen fun session _ => .done session (remaining ++ more)) =
          .done after (later ++ more) := by
    intro outcome remaining outcome_eq
    obtain ⟨state, result, rfl, done_eq⟩ := Outcome.andThen_eq_done_iff.mp outcome_eq
    obtain ⟨rfl, rfl⟩ := Outcome.done_inj.mp done_eq
    rfl
  unfold loadForm at load_eq ⊢
  cases token with
  | header name =>
      simp only at load_eq ⊢
      split at load_eq
      · cases load_eq
      · rename_i body remaining read_eq
        rw [(Reader.readDefinition_append read_eq).2 more]
        exact handed load_eq
  | directive keyword =>
      simp only at load_eq ⊢
      split at load_eq
      · cases load_eq
      · rename_i directive argument check_eq
        obtain ⟨-, first, first_eq, -, -⟩ := checkDirective_eq_ok check_eq
        obtain ⟨others, rfl⟩ := List.head?_eq_some_iff.mp first_eq
        rw [List.cons_append, List.head?_cons, ← first_eq, check_eq]
        exact handed load_eq
  | terminator | word _ | literal _ | openQuotation | closeQuotation =>
      simp only at load_eq ⊢
      split at load_eq
      · cases load_eq
      · rename_i value remaining read_eq
        rw [(Reader.readValue_append read_eq).2 more]
        exact handed load_eq

/-- Tokens that are loaded to their end do not hang on the tokens that follow them. -/
theorem loadTokens_append
    {after : Session}
    {tokens : List Token}
    (load_eq : session.loadTokens fuel inclusion tokens = .done after ())
    (more : List Token) :
    session.loadTokens fuel inclusion (tokens ++ more) =
      after.loadTokens fuel inclusion more := by
  induction tokens using formInduction generalizing session with
  | nil =>
      rw [loadTokens_nil, Outcome.done_inj] at load_eq
      rw [load_eq.1, List.nil_append]
  | cons token rest inductionHypothesis =>
      rw [loadTokens_cons, Outcome.andThen_eq_done_iff] at load_eq
      obtain ⟨middle, later, form_eq, later_eq⟩ := load_eq
      have suffix := suffix_of_loadForm (congrArg Outcome.result form_eq)
      rw [List.cons_append, loadTokens_cons, loadForm_append form_eq more, Outcome.andThen_done]
      exact inductionHypothesis later suffix later_eq

end Forms

/-! ## What loading leaves as it was -/

/--
A view of sessions in which neither notes nor dictionaries show, and which running a value
leaves as it was.
-/
structure IsAmbient {α : Type} (view : Session → α) : Prop where
  noted : ∀ session note, view (session.note note) = view session
  changed : ∀ session dictionary, view (session.withDictionary dictionary) = view session
  dispatched : ∀ session fuel value,
    view (session.onMachine fun machine => machine.dispatch fuel value).state = view session

/-- Inclusions that leave a view as it was. -/
def Leaves {α : Type} (view : Session → α) (inclusion : Inclusion) : Prop :=
  ∀ path session, view (inclusion path session).state = view session

section Ambience

variable {α : Type} {view : Session → α} {session : Session} {fuel : Nat} {inclusion : Inclusion}

/-- What two operations leave as it was, the one after the other leaves so. -/
theorem view_andThen
    {β γ : Type}
    {outcome : Outcome Session β}
    {next : Session → β → Outcome Session γ}
    (kept : view outcome.state = view session)
    (keptNext : ∀ after result, outcome = .done after result →
      view (next after result).state = view after) :
    view (outcome.andThen next).state = view session := by
  rcases outcome.done_or_stopped with ⟨after, result, rfl⟩ | ⟨after, stop, rfl⟩
  · exact (keptNext after result rfl).trans kept
  · exact kept

theorem IsAmbient.changeDictionary
    (ambient : IsAmbient view)
    (result : Except Error.Cause Dictionary) :
    view (session.changeDictionary result).state = view session := by
  cases result with
  | error cause => rfl
  | ok dictionary => exact ambient.changed session dictionary

theorem IsAmbient.define
    (ambient : IsAmbient view)
    (name : String)
    (body : Body) :
    view (session.define name body).state = view session := by
  refine view_andThen (ambient.changeDictionary _) fun after _ _ => ?_
  split
  · rfl
  · exact ambient.noted after _

theorem IsAmbient.applyDirective
    (ambient : IsAmbient view)
    (leaves : Leaves view inclusion)
    (directive : Directive)
    (argument : String) :
    view (session.applyDirective inclusion directive argument).state = view session := by
  unfold Session.applyDirective
  cases directive with
  | includeFile => exact leaves argument session
  | declareVariable | deferWord =>
      cases Reader.checkName argument with
      | error stop => rfl
      | ok => exact ambient.changeDictionary _

theorem IsAmbient.loadForm
    (ambient : IsAmbient view)
    (leaves : Leaves view inclusion)
    (token : Token)
    (rest : List Token) :
    view (session.loadForm fuel inclusion token rest).state = view session := by
  unfold Session.loadForm
  split
  · split
    · rfl
    · exact view_andThen (ambient.define _ _) fun _ _ _ => rfl
  · split
    · rfl
    · rename_i directive argument check_eq
      refine view_andThen ?_ fun _ _ _ => rfl
      rw [ambient.applyDirective leaves, ambient.noted]
  · split
    · rfl
    · exact view_andThen (ambient.dispatched session fuel _) fun _ _ _ => rfl

/-- Loading tokens leaves an ambient view as it was, however it ends. -/
theorem IsAmbient.loadTokens
    (ambient : IsAmbient view)
    (leaves : Leaves view inclusion)
    (tokens : List Token) :
    view (session.loadTokens fuel inclusion tokens).state = view session := by
  induction tokens using formInduction generalizing session with
  | nil =>
      rw [loadTokens_nil]
      rfl
  | cons token rest inductionHypothesis =>
      rw [loadTokens_cons]
      refine view_andThen (ambient.loadForm leaves token rest) fun after later form_eq => ?_
      have suffix := suffix_of_loadForm (congrArg Outcome.result form_eq)
      exact inductionHypothesis later suffix

/-- Inclusions leave an ambient view as it was if loading the files that are meant does. -/
theorem IsAmbient.includeBy
    (ambient : IsAmbient view)
    (files : Files.Tree)
    {load : Inclusion}
    (leaves : Leaves view load) :
    Leaves view (includeBy files load) := by
  intro path session
  unfold Session.includeBy
  rw [leaves, ambient.noted]

end Ambience

end Session
end Concatenative
