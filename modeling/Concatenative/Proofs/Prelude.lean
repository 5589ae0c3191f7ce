import Concatenative.Proofs.Deferral
import Concatenative.Proofs.Listing
import Concatenative.Proofs.ReadBack

/-!
# The prelude

The words of the prelude are compiled from source, so they are words like any other: they
have numbers, and a program may define or reserve their names again.  Their first layers
stay what they are.  These are made of small numerals and of primitives that call nothing,
so each of them does to every stack what its comment says, and fails for want of operands
where there are too few.
-/

namespace Concatenative

/-! ## Bodies that call nothing -/

namespace Workspace

variable {limit : DepthLimit} {present : Nat} {workspace : Workspace} {value : Value} {body : Body}

/-- What values that call nothing come to one after the other. -/
def reactEach : Body → Workspace → Outcome Workspace Unit
  | [], workspace => .done workspace ()
  | value :: values, workspace =>
      (workspace.react value).andThen fun after _ => reactEach values after

theorem evaluates_of_isStraight (straight : value.IsStraight) :
    Evaluates limit present workspace (.value value) (workspace.react value).void := by
  rcases (workspace.react value).done_or_stopped with
    ⟨after, handed, done_eq⟩ | ⟨after, stop, stopped_eq⟩
  · obtain rfl := straight workspace after handed done_eq
    rw [done_eq]
    exact evaluates_of_done done_eq .empty
  · rw [stopped_eq]
    exact evaluates_of_stopped stopped_eq

theorem evaluates_values_of_isStraight
    {first : Value}
    {later : List Value}
    (straight : ∀ value ∈ first :: later, value.IsStraight) :
    Evaluates limit present workspace (.values first later)
      (reactEach (first :: later) workspace) := by
  induction later generalizing first workspace with
  | nil =>
      have evaluates : Evaluates limit present workspace (.value first) _ :=
        evaluates_of_isStraight (straight first List.mem_cons_self)
      rw [reactEach]
      rcases (workspace.react first).done_or_stopped with
        ⟨after, handed, done_eq⟩ | ⟨after, stop, stopped_eq⟩
      · rw [done_eq] at evaluates ⊢
        exact .last evaluates
      · rw [stopped_eq] at evaluates ⊢
        exact .last evaluates
  | cons second later inductionHypothesis =>
      rw [List.forall_mem_cons] at straight
      have evaluates : Evaluates limit (present + 1) workspace (.value first) _ :=
        evaluates_of_isStraight straight.1
      rw [reactEach]
      rcases (workspace.react first).done_or_stopped with
        ⟨middle, handed, done_eq⟩ | ⟨after, stop, stopped_eq⟩
      · rw [done_eq] at evaluates ⊢
        exact .next evaluates (inductionHypothesis straight.2)
      · rw [stopped_eq] at evaluates ⊢
        exact .stopped evaluates

/-- Below the limit a body that calls nothing comes to what its values come to. -/
theorem evaluates_body_of_isStraight
    (below : present < limit.value)
    (straight : ∀ value ∈ body, value.IsStraight) :
    Evaluates limit present workspace (.body body) (reactEach body workspace) := by
  cases body with
  | nil => exact .empty
  | cons first later => exact .entered below (evaluates_values_of_isStraight straight)

end Workspace

/-- Below the limit a body that calls nothing is run in a few steps. -/
theorem Machine.exists_run_eq_of_isStraight
    {machine : Machine}
    {body : Body}
    (below : machine.calls.depth < machine.limit.value)
    (straight : ∀ value ∈ body, value.IsStraight) :
    ∃ steps, ∀ fuel, steps ≤ fuel →
      machine.run fuel body =
        (Workspace.reactEach body machine.toWorkspace).mapState machine.withWorkspace :=
  exists_run_eq_of_le_of_evaluates (Workspace.evaluates_body_of_isStraight below straight)

/-- Below the limit a word that calls nothing is executed in a few steps. -/
theorem Machine.exists_dispatch_eq_of_isStraight
    {machine : Machine}
    {reference : WordRef}
    {body : Body}
    (below : machine.calls.depth < machine.limit.value)
    (body_eq : machine.dictionary.bodyAt? reference.place = some body)
    (straight : ∀ value ∈ body, value.IsStraight) :
    ∃ steps, ∀ fuel, steps ≤ fuel →
      machine.dispatch fuel (.wordRef reference) =
        (Workspace.reactEach body machine.toWorkspace).mapState machine.withWorkspace := by
  obtain ⟨entry, entry_eq, found_eq⟩ := Option.bind_eq_some_iff.mp body_eq
  cases entry with
  | primitive primitive => nomatch found_eq
  | compiled number word =>
      have evaluates : Workspace.Evaluates machine.limit machine.calls.depth machine.toWorkspace
          (.body [.wordRef reference]) (Workspace.reactEach body machine.toWorkspace) :=
        .entered below <| .last <| .invoked entry_eq found_eq <|
          Workspace.evaluates_body_of_isStraight below straight
      exact exists_run_eq_of_le_of_evaluates evaluates

/-! ## The words of the prelude -/

/-- The words that the prelude defines. -/
inductive PreludeWord where
  | dup
  | overTop
  | nip
  | tuck
  | twoDup
  | twoDrop
  | neg

namespace PreludeWord

/-- The words of the prelude, in the order of their definitions. -/
def all : List PreludeWord :=
  [dup, overTop, nip, tuck, twoDup, twoDrop, neg]

def name : PreludeWord → String
  | dup => "dup"
  | overTop => "over"
  | nip => "nip"
  | tuck => "tuck"
  | twoDup => "2dup"
  | twoDrop => "2drop"
  | neg => "neg"

def body : PreludeWord → Body
  | dup => [.int 0, .wordRef Primitive.pick.reference]
  | overTop => [.int 1, .wordRef Primitive.pick.reference]
  | nip => [.wordRef Primitive.swap.reference, .wordRef Primitive.drop.reference]
  | tuck =>
      [.wordRef Primitive.swap.reference, .int 1, .wordRef Primitive.pick.reference]
  | twoDup =>
      [.int 1, .wordRef Primitive.pick.reference, .int 1, .wordRef Primitive.pick.reference]
  | twoDrop => [.wordRef Primitive.drop.reference, .wordRef Primitive.drop.reference]
  | neg =>
      [.int 0, .wordRef Primitive.swap.reference, .wordRef Primitive.subtract.reference]

/-- How many operands a word takes. -/
def operands : PreludeWord → Nat
  | dup | neg => 1
  | overTop | nip | tuck | twoDup | twoDrop => 2

/-- The documented effect of a word on a stack, top first, where it finds its operands. -/
def effect? : PreludeWord → List Value → Option (List Value)
  | dup, a :: rest => some (a :: a :: rest)
  | overTop, b :: a :: rest => some (a :: b :: a :: rest)
  | nip, b :: _ :: rest => some (b :: rest)
  | tuck, b :: a :: rest => some (b :: a :: b :: rest)
  | twoDup, b :: a :: rest => some (b :: a :: b :: a :: rest)
  | twoDrop, _ :: _ :: rest => some rest
  | neg, .int number :: rest => some (.int (-number) :: rest)
  | _, _ => none

/-- The dictionary in which the words of the prelude are defined, and no others. -/
def dictionary : Dictionary :=
  let define (dictionary : Dictionary) (word : PreludeWord) : Dictionary :=
    (dictionary.define word.name word.body).toOption.getD dictionary
  all.foldl define .initial

variable {word : PreludeWord} {value : Value}

/-! ## Bodies -/

/-- The bodies are made of two numerals and of primitives that call nothing. -/
theorem eq_of_mem_body (present : value ∈ word.body) :
    (value = .int 0 ∨ value = .int 1) ∨
      ∃ primitive : Primitive, primitive ∉ [.branch, .call] ∧
        value = .wordRef primitive.reference := by
  cases word <;> simp only [body, List.mem_cons, List.not_mem_nil, or_false] at present <;>
    grind

theorem isStraight_of_mem_body (present : value ∈ word.body) : value.IsStraight := by
  obtain (rfl | rfl) | ⟨primitive, calls, rfl⟩ := eq_of_mem_body present
  · exact Value.isStraight_int 0
  · exact Value.isStraight_int 1
  · exact Primitive.isStraight_reference calls

/-- Whatever a dictionary holds, the bodies are read back from their written form. -/
theorem resolves_of_mem_body
    (dictionary : Dictionary)
    (present : value ∈ word.body) :
    Reader.Resolves dictionary value := by
  have resolves : ∀ spelling, value.spelling? = some spelling →
      Reader.resolve dictionary spelling = .ok value := by
    intro spelling spelling_eq
    obtain (rfl | rfl) | ⟨primitive, -, rfl⟩ := eq_of_mem_body present
    · obtain rfl := Option.some.inj spelling_eq
      rfl
    · obtain rfl := Option.some.inj spelling_eq
      rfl
    · obtain rfl := Option.some.inj spelling_eq
      exact Reader.resolve_name dictionary primitive
  have atomic : ∀ content, value ≠ .quotation content := by
    obtain (rfl | rfl) | ⟨primitive, -, rfl⟩ := eq_of_mem_body present <;> simp
  have all : ∀ part : Value, part.Within value → ∀ spelling, part.spelling? = some spelling →
      Reader.resolve dictionary spelling = .ok part :=
    Value.forall_within_of_atomic resolves atomic
  exact all

/-! ## Definitions -/

/-- A line is read as the definition of a word. -/
def IsDefinedBy (word : PreludeWord) (line : String) : Prop :=
  Lexer.tokens line = .ok (.header word.name :: (Value.tokensEach word.body ++ [.terminator]))

/-- The lines of the prelude define its words, comments apart. -/
theorem isDefinedBy_preludeLines :
    List.Forall₂ (fun line word => IsDefinedBy word line) Session.preludeLines all := by
  have read : ∀ {line : String} {word : PreludeWord},
      (Lexer.tokens line).toOption =
        some (.header word.name :: (Value.tokensEach word.body ++ [.terminator])) →
      IsDefinedBy word line := eq_ok_of_toOption
  exact .cons (read (by decide +kernel)) <| .cons (read (by decide +kernel)) <|
    .cons (read (by decide +kernel)) <| .cons (read (by decide +kernel)) <|
    .cons (read (by decide +kernel)) <| .cons (read (by decide +kernel)) <|
    .cons (read (by decide +kernel)) .nil

/-- A line that defines a word of the prelude is accepted in every session. -/
theorem IsDefinedBy.execute
    {line : String}
    (defined : IsDefinedBy word line)
    (session : Session)
    (environment : Session.Environment)
    (source : String) :
    (session.execute environment source line).result = .ok () ∧
      session.dictionary.define word.name word.body =
        .ok (session.execute environment source line).state.dictionary := by
  have unread : Reader.isLiteral word.name = false := by
    cases word <;> decide
  have free : Primitive.ofName? word.name = none := by
    cases word <;> decide
  exact Session.execute_definition_of_resolves defined unread free fun value present =>
    resolves_of_mem_body session.dictionary present

/-- Lines that define words, one after the other, lead to the dictionary with the words. -/
theorem dictionary_foldl_execute
    {lines : List String}
    {words : List PreludeWord}
    (defined : List.Forall₂ (fun line word => IsDefinedBy word line) lines words)
    (environment : Session.Environment)
    (source : String)
    {session : Session}
    {last : Dictionary}
    (last_eq : words.foldlM (fun dictionary word => dictionary.define word.name word.body)
      session.dictionary = .ok last) :
    (lines.foldl (fun session line => (session.execute environment source line).state)
      session).dictionary = last := by
  induction defined generalizing session with
  | nil => exact Except.ok.inj last_eq
  | cons first _ inductionHypothesis =>
      have define_eq := (first.execute session environment source).2
      rw [List.foldlM_cons, define_eq] at last_eq
      exact inductionHypothesis last_eq

/-- A session with the prelude starts with its words, whatever the limit on calls. -/
theorem dictionary_start
    (environment : Session.Environment)
    (limit : DepthLimit) :
    (Session.start environment true limit).dictionary = dictionary := by
  have defined : all.foldlM (fun dictionary word => dictionary.define word.name word.body)
      (Session.initial limit).dictionary = .ok dictionary := by
    change all.foldlM (fun dictionary word => dictionary.define word.name word.body)
      Dictionary.initial = .ok dictionary
    rfl
  have executed := dictionary_foldl_execute isDefinedBy_preludeLines environment "<prelude>" defined
  rw [Session.start, if_pos rfl]
  exact executed

/-! ## Effects -/

section Effects

variable {workspace : Workspace}

/-- A word does to the stack what is documented, and nothing else. -/
theorem reactEach_of_effect?
    {after : List Value}
    (effect_eq : word.effect? workspace.stack = some after) :
    Workspace.reactEach word.body workspace = .done { workspace with stack := after } () := by
  obtain ⟨stack, dictionary, output⟩ := workspace
  dsimp only at effect_eq
  unfold effect? at effect_eq
  split at effect_eq
  case h_7 number rest =>
    obtain rfl := Option.some.inj effect_eq
    have negated : 0 - number = -number := Int.zero_sub number
    rw [← negated]
    simp only [body, Workspace.reactEach, Workspace.react_reference]
    rfl
  case h_8 => nomatch effect_eq
  all_goals
    obtain rfl := Option.some.inj effect_eq
    simp only [body, Workspace.reactEach, Workspace.react_reference]
    rfl

/-- Without enough operands a word fails for want of them. -/
theorem reactEach_of_length_lt
    (short : workspace.stack.length < word.operands) :
    ∃ after needed held, needed < 10 ∧
      Workspace.reactEach word.body workspace = .failed after (.underflow needed held) := by
  obtain ⟨stack, dictionary, output⟩ := workspace
  match stack with
  | [] =>
      cases word <;> simp only [body, Workspace.reactEach, Workspace.react_reference] <;>
        exact ⟨_, _, _, by decide, rfl⟩
  | [top] =>
      cases word with
      | dup | neg => exact absurd short (by simp [operands])
      | overTop | nip | tuck | twoDup | twoDrop =>
          simp only [body, Workspace.reactEach, Workspace.react_reference]
          exact ⟨_, _, _, by decide, rfl⟩
  | second :: top :: rest =>
      have atMost : word.operands ≤ 2 := by cases word <;> decide
      simp only [List.length_cons] at short
      omega

end Effects

/-- The number that a session with the prelude gives a word. -/
def number : PreludeWord → Nat
  | dup => 1
  | overTop => 2
  | nip => 3
  | tuck => 4
  | twoDup => 5
  | twoDrop => 6
  | neg => 7

theorem lookup_dictionary (word : PreludeWord) :
    dictionary.lookup word.name = some (.compiled word.number ⟨word.name, [some word.body]⟩) := by
  cases word <;> rfl

/-- The words stay words of all later dictionaries, and so do their first layers. -/
theorem exists_entry_of_extends
    {later : Dictionary}
    (extends_later : dictionary.Extends later)
    (wellFormed : later.WellFormed)
    (word : PreludeWord) :
    ∃ entry, later.lookup word.name = some entry ∧
      later.bodyAt? ⟨entry.id, 0⟩ = some word.body := by
  have keeps := extends_later.keepsHistory wellFormed
  obtain ⟨-, entry, lookup_eq, id_eq⟩ := keeps.words word.name _ word.lookup_dictionary
  refine ⟨entry, lookup_eq, ?_⟩
  rw [id_eq]
  apply extends_later.bodyAt?_eq
  cases word <;> rfl

end PreludeWord

namespace Session

/--
Whatever is done to a session with the prelude, also to the names of the prelude words, these
stay words, and their first layers keep the documented effects.  Below the limit on calls,
executing one replaces its operands, of whatever kinds, and changes nothing else, and it fails
for want of operands where there are too few.
-/
theorem prelude_keeps_effects
    (environment : Environment)
    (limit : DepthLimit)
    (operations : List Operation)
    (word : PreludeWord) :
    let session := (start environment true limit).after operations
    ∃ entry, session.dictionary.lookup word.name = some entry ∧
      ∀ machine : Machine,
        Dictionary.SameNames session.dictionary machine.dictionary →
        machine.calls.depth < machine.limit.value →
        ∃ steps, ∀ fuel, steps ≤ fuel →
          (∀ after, word.effect? machine.stack = some after →
            machine.dispatch fuel (.wordRef ⟨entry.id, word.name, 0⟩) =
              .done { machine with stack := after } ()) ∧
          (machine.stack.length < word.operands →
            ∃ failure, failure.cause.kind = .stackUnderflow ∧
              (machine.dispatch fuel (.wordRef ⟨entry.id, word.name, 0⟩)).result =
                .error (.failure failure)) := by
  intro session
  have extends_later : PreludeWord.dictionary.Extends session.dictionary := by
    rw [← PreludeWord.dictionary_start environment limit]
    exact extends_after _ operations
  have wellFormed := wellFormed_after environment true limit operations
  obtain ⟨entry, lookup_eq, first_eq⟩ :=
    PreludeWord.exists_entry_of_extends extends_later wellFormed word
  refine ⟨entry, lookup_eq, fun machine same below => ?_⟩
  have body_eq : machine.dictionary.bodyAt? (WordRef.mk entry.id word.name 0).place =
      some word.body := by
    rw [Dictionary.bodyAt?, same.entry?_eq]
    exact first_eq
  have straight : ∀ value ∈ word.body, value.IsStraight :=
    fun value present => PreludeWord.isStraight_of_mem_body present
  obtain ⟨steps, dispatch_eq⟩ :=
    Machine.exists_dispatch_eq_of_isStraight below body_eq straight
  refine ⟨steps, fun fuel enough => ⟨fun after effect_eq => ?_, fun short => ?_⟩⟩
  · rw [dispatch_eq fuel enough, PreludeWord.reactEach_of_effect? effect_eq]
    rfl
  · obtain ⟨after, needed, held, small, react_eq⟩ := PreludeWord.reactEach_of_length_lt short
    have writable : (Error.Cause.underflow needed held).isWritable = true :=
      Numeral.isWritable_of_natAbs_lt small
    refine ⟨{ cause := .underflow needed held }, rfl, ?_⟩
    rw [dispatch_eq fuel enough, react_eq, Outcome.failed, Stop.ofCause, if_pos writable]
    rfl

/--
One word of the prelude is defined again and another one reserved, and a frame is open below
the limit of two.
-/
theorem prelude_keeps_effects_redefinition :
    ∃ (session : Session) (machine : Machine) (steps : Nat),
      session.dictionary.reference? "tuck" = some ⟨4, "tuck", 1⟩ ∧
      session.dictionary.deferred = ["tuck"] ∧
      machine.dictionary = session.dictionary ∧
      machine.stack = [.text "top", .int 4, .nil] ∧
      machine.calls.depth = 1 ∧
      machine.dispatch steps (.wordRef ⟨4, "tuck", 0⟩) =
        .done { machine with stack := [.text "top", .int 4, .text "top", .nil] } () := by
  let environment : Environment := ⟨.empty [], 9⟩
  let limit : DepthLimit := ⟨2, by decide⟩
  let operations : List Operation :=
    [.execute environment "<input>" ": dup 1 ; :defer tuck", .change (.define "dup" [])]
  let session := (start environment true limit).after operations
  let machine : Machine :=
    { stack := [.text "top", .int 4, .nil]
      dictionary := session.dictionary
      output := ""
      calls := CallStack.empty.push (.ofBody [.int 1, .int 2])
      limit := limit }
  obtain ⟨entry, lookup_eq, effects⟩ :=
    prelude_keeps_effects environment limit operations .tuck
  have reference_eq : session.dictionary.reference? "tuck" = some ⟨4, "tuck", 1⟩ := by
    decide +kernel
  have id_eq : entry.id = 4 := by
    rw [Dictionary.reference?, show session.dictionary.lookup "tuck" = some entry from lookup_eq]
      at reference_eq
    exact (WordRef.mk.inj (Option.some.inj reference_eq)).1
  obtain ⟨steps, effect⟩ := effects machine (.refl session.dictionary) (by decide)
  have dispatched := (effect steps (Nat.le_refl steps)).1 _ rfl
  rw [id_eq] at dispatched
  exact ⟨session, machine, steps, reference_eq, by decide +kernel, rfl, rfl, rfl, dispatched⟩

end Session
end Concatenative
