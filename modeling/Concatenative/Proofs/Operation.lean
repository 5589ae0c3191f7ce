import Concatenative.Proofs.Forms
import Concatenative.Proofs.Rendering
import Concatenative.Proofs.StaticError
import Concatenative.Session.Repl
import Concatenative.Session.Start

/-!
# Operations on sessions

A session is started, and then texts and files are loaded into it, one after the other or
line by line in the interactive loop.  Whatever happens on the way, a machine is changed
in four ways only: a word is defined, a word is reserved, a variable is declared, and a
value is run.  So a property of machines that these keep is kept by every operation, also
by one that fails.

A property of sessions may also be about what a session notes.  It is kept by every
operation if it is kept by these changes with the notes that are taken of them, and by the
notes that are about what is being loaded.
-/

namespace Concatenative

/-- A change made to a dictionary. -/
inductive Dictionary.Change where
  | define (name : String) (body : Body)
  | defer (name : String)
  | declareVariable (name : String)

namespace Dictionary.Change

/-- The name that a change is about. -/
def name : Change → String
  | define name _ | defer name | declareVariable name => name

/-- Carries out a change. -/
def apply (change : Change) (dictionary : Dictionary) : Except Error.Cause Dictionary :=
  match change with
  | define name body => dictionary.define name body
  | defer name => dictionary.defer name
  | declareVariable name => dictionary.declareVariable name

theorem isCompiling_of_apply
    {change : Change}
    {dictionary : Dictionary}
    {cause : Error.Cause}
    (apply_eq : change.apply dictionary = .error cause) :
    cause.isCompiling = true := by
  cases change with
  | define name body => exact isCompiling_of_revise apply_eq
  | defer name => exact isCompiling_of_revise apply_eq
  | declareVariable name => exact isCompiling_of_declareVariable apply_eq

end Dictionary.Change

namespace Machine

/-- The machine with another dictionary. -/
def withDictionary (machine : Machine) (dictionary : Dictionary) : Machine :=
  { machine with dictionary }

/-- The machine with another text printed. -/
def withOutput (machine : Machine) (output : String) : Machine :=
  { machine with output }

end Machine

namespace Session

/-! ## What loading keeps -/

/-- A change to the dictionary that a program may bring about. -/
inductive Loads (dictionary : Dictionary) : Dictionary.Change → Prop
  /-- The definition of a word has been read. -/
  | define {name : String} {tokens rest : List Token} {body : Body} :
      (∀ token ∈ Token.header name :: tokens, token.IsWellFormed) →
      Reader.readDefinition dictionary name tokens = .ok (body, rest) →
      Loads dictionary (.define name body)
  /-- The name of a word to be reserved has been checked. -/
  | defer {name : String} :
      (Token.word name).IsWellFormed →
      Reader.checkName name = .ok () →
      Loads dictionary (.defer name)
  /-- The name of a variable has been checked. -/
  | declareVariable {name : String} :
      (Token.word name).IsWellFormed →
      Reader.checkName name = .ok () →
      Loads dictionary (.declareVariable name)

/--
A property of machines that loading keeps, with the causes of failures that a machine of
this property accounts for.
-/
structure IsKept
    (holds : Machine → Prop)
    (accounts : Machine → Error.Cause → Prop) : Prop where
  /-- What is printed does not matter. -/
  printed : ∀ machine output, holds machine → holds (machine.withOutput output)
  changed : ∀ machine change dictionary,
    holds machine →
    Loads machine.dictionary change →
    change.apply machine.dictionary = .ok dictionary →
    holds (machine.withDictionary dictionary)
  dispatched : ∀ machine token tokens value rest fuel,
    holds machine →
    (∀ member ∈ token :: tokens, member.IsWellFormed) →
    Reader.readValue machine.dictionary token tokens = .ok (value, rest) →
    (machine.dispatch fuel value).Keeps holds accounts
  /-- Errors of reading are always accounted for. -/
  static : ∀ machine cause, holds machine → cause.isDynamic = false → accounts machine cause

/-- An operation on a session keeps a property of its machine. -/
def KeepsMachine
    {α : Type}
    (holds : Machine → Prop)
    (accounts : Machine → Error.Cause → Prop)
    (outcome : Outcome Session α) : Prop :=
  outcome.Keeps (fun session => holds session.machine) fun session => accounts session.machine

/-- Whether a note tells of no change to the dictionary. -/
def Note.isIncidental : Note → Bool
  | loading _ _ | including _ | loadingFile _ => true
  | directive keyword _ => keyword == Directive.includeFile.keyword
  | defined _ _ _ => false

/--
A property of sessions that loading keeps, which may be about their notes too, with the
causes of failures that a session of this property accounts for.
-/
structure IsMaintained
    (holds : Session → Prop)
    (accounts : Session → Error.Cause → Prop) : Prop where
  /-- What is being loaded does not matter. -/
  surrounded : ∀ session source loading, holds session → holds { session with source, loading }
  accounted : ∀ session source loading cause,
    accounts session cause → accounts { session with source, loading } cause
  noted : ∀ session note, holds session → note.isIncidental = true → holds (session.note note)
  printed : ∀ session text, holds session → holds (session.print text)
  defined : ∀ session name tokens body rest,
    holds session →
    (∀ token ∈ Token.header name :: tokens, token.IsWellFormed) →
    Reader.readDefinition session.dictionary name tokens = .ok (body, rest) →
    (session.define name body).Keeps holds accounts
  directed : ∀ session inclusion directive name,
    holds session →
    (Token.word name).IsWellFormed →
    directive ≠ .includeFile →
    ((session.note (.directive directive.keyword name)).applyDirective inclusion directive
      name).Keeps holds accounts
  dispatched : ∀ session token tokens value rest fuel,
    holds session →
    (∀ member ∈ token :: tokens, member.IsWellFormed) →
    Reader.readValue session.dictionary token tokens = .ok (value, rest) →
    (session.onMachine fun machine => machine.dispatch fuel value).Keeps holds accounts
  /-- Errors of reading are always accounted for. -/
  static : ∀ session cause, holds session → cause.isDynamic = false → accounts session cause

section Loading

variable {holds : Session → Prop} {accounts : Session → Error.Cause → Prop} {session : Session}

/-- A session that stops for an error of reading keeps the property. -/
theorem IsMaintained.stopped
    {α : Type}
    (maintained : IsMaintained holds accounts)
    (held : holds session)
    {stop : Stop}
    (static : stop.IsStatic) :
    (.stopped session stop : Outcome Session α).Keeps holds accounts :=
  Outcome.keeps_stopped_iff.mpr ⟨held, fun failure stop_eq =>
    maintained.static _ _ held (static failure stop_eq)⟩

/-- A session that fails with an error of reading keeps the property. -/
theorem IsMaintained.failed
    {α : Type}
    (maintained : IsMaintained holds accounts)
    (held : holds session)
    {cause : Error.Cause}
    (static : cause.isDynamic = false) :
    (.failed session cause : Outcome Session α).Keeps holds accounts :=
  Outcome.keeps_failed held (maintained.static _ _ held static)

/-- The argument of a directive that accepts words only is a word. -/
theorem isWellFormed_of_checkDirective
    {keyword argument : String}
    {tokens : List Token}
    {directive : Directive}
    (check_eq : checkDirective keyword tokens.head? = .ok (directive, argument))
    (written : ∀ token ∈ tokens, token.IsWellFormed)
    (accepts_eq : directive.accepts = [.word]) :
    (Token.word argument).IsWellFormed := by
  obtain ⟨-, token, head_eq, accepted, rfl⟩ := checkDirective_eq_ok check_eq
  have wellFormed := written token (List.mem_of_mem_head? head_eq)
  rw [accepts_eq, List.mem_singleton] at accepted
  cases token with
  | word characters => exact wellFormed
  | directive _ | header _ | terminator | literal _ | openQuotation | closeQuotation =>
      nomatch accepted

/-- What inclusions and other directives keep, a directive with its note keeps. -/
theorem IsMaintained.direct
    (maintained : IsMaintained holds accounts)
    (held : holds session)
    {inclusion : Inclusion}
    (included : ∀ path session, holds session → (inclusion path session).Keeps holds accounts)
    {directive : Directive}
    {argument : String}
    (written : directive.accepts = [.word] → (Token.word argument).IsWellFormed) :
    ((session.note (.directive directive.keyword argument)).applyDirective inclusion directive
      argument).Keeps holds accounts := by
  cases directive with
  | includeFile => exact included argument _ (maintained.noted _ _ held rfl)
  | declareVariable | deferWord =>
      exact maintained.directed _ _ _ _ held (written rfl) (by decide)

/-- What definitions, directives and values keep, loading a form keeps. -/
theorem IsMaintained.loadForm
    (maintained : IsMaintained holds accounts)
    (held : holds session)
    (fuel : Nat)
    {inclusion : Inclusion}
    (included : ∀ path session, holds session → (inclusion path session).Keeps holds accounts)
    {token : Token}
    {rest : List Token}
    (written : ∀ member ∈ token :: rest, member.IsWellFormed) :
    (session.loadForm fuel inclusion token rest).Keeps holds accounts := by
  have handed : ∀ {outcome : Outcome Session Unit} (later : List Token),
      outcome.Keeps holds accounts →
        (outcome.andThen fun session _ => .done session later).Keeps holds accounts :=
    fun later keeps => keeps.andThen fun after _ afterHeld => Outcome.keeps_done afterHeld later
  unfold Session.loadForm
  split
  · split
    · rename_i read_eq
      exact maintained.stopped held (Reader.arises_of_readDefinition read_eq).isStatic
    · rename_i body remaining read_eq
      exact handed remaining (maintained.defined _ _ _ _ _ held written read_eq)
  · rename_i keyword
    split
    · rename_i check_eq
      have compiling := isCompiling_of_checkDirective check_eq
      exact maintained.failed held (Error.Cause.isDynamic_of_isCompiling compiling)
    · rename_i directive argument check_eq
      have named := isWellFormed_of_checkDirective check_eq
        fun member present => written member (.tail _ present)
      obtain ⟨rfl, -⟩ := checkDirective_eq_ok check_eq
      exact handed rest.tail (maintained.direct held included named)
  · split
    · rename_i read_eq
      exact maintained.stopped held (Reader.arises_of_readValue read_eq).isStatic
    · rename_i value remaining read_eq
      exact handed remaining (maintained.dispatched _ _ _ _ _ fuel held written read_eq)

/-- What loading a form keeps, loading the tokens of a program keeps. -/
theorem IsMaintained.loadTokens
    (maintained : IsMaintained holds accounts)
    (held : holds session)
    (fuel : Nat)
    {inclusion : Inclusion}
    (included : ∀ path session, holds session → (inclusion path session).Keeps holds accounts)
    {tokens : List Token}
    (written : ∀ token ∈ tokens, token.IsWellFormed) :
    (session.loadTokens fuel inclusion tokens).Keeps holds accounts := by
  induction tokens using formInduction generalizing session with
  | nil =>
      rw [loadTokens_nil]
      exact Outcome.keeps_done held ()
  | cons token rest inductionHypothesis =>
      have form := maintained.loadForm held fuel included written
      rw [loadTokens_cons]
      rcases (session.loadForm fuel inclusion token rest).done_or_stopped with
        ⟨after, later, form_eq⟩ | ⟨after, stop, form_eq⟩
      · have suffix := suffix_of_loadForm (congrArg Outcome.result form_eq)
        rw [form_eq] at form ⊢
        refine inductionHypothesis later suffix form.1 fun member present => ?_
        exact written member (.tail token (suffix.subset present))
      · rw [form_eq] at form ⊢
        exact Outcome.keeps_stopped_iff.mpr (Outcome.keeps_stopped_iff.mp form)

theorem IsMaintained.loadSource
    (maintained : IsMaintained holds accounts)
    (held : holds session)
    (fuel : Nat)
    {inclusion : Inclusion}
    (included : ∀ path session, holds session → (inclusion path session).Keeps holds accounts)
    (name : String)
    {tokens : List Token}
    (written : ∀ token ∈ tokens, token.IsWellFormed) :
    (session.loadSource fuel inclusion name tokens).Keeps holds accounts := by
  have inside := maintained.noted _ (.loading name tokens.length)
    (maintained.surrounded session (some name) session.loading held) rfl
  refine ((maintained.loadTokens inside fuel included written).within name).mapState ?_ ?_
  · exact fun after => maintained.surrounded after session.source after.loading
  · exact fun after => maintained.accounted after session.source after.loading

/-- Inclusions keep what loading the included files keeps. -/
theorem IsMaintained.includeBy
    (maintained : IsMaintained holds accounts)
    (files : Files.Tree)
    {load : Inclusion}
    (loaded : ∀ path session, holds session → (load path session).Keeps holds accounts)
    (path : String)
    (session : Session)
    (held : holds session) :
    (includeBy files load path session).Keeps holds accounts :=
  loaded _ _ (maintained.noted _ _ held rfl)

/-- The tokens of a file are well formed. -/
theorem isWellFormed_of_readFile
    {files : Files.Tree}
    {path : String}
    {tokens : List Token}
    (read_eq : readFile files path = .ok tokens) :
    ∀ token ∈ tokens, token.IsWellFormed := by
  obtain ⟨text, -, tokenize_eq⟩ := readFile_eq_ok read_eq
  exact Lexer.isWellFormed_of_tokenize tokenize_eq

theorem IsMaintained.loadNested
    (maintained : IsMaintained holds accounts)
    (environment : Environment)
    (nesting : Nat)
    (path : String)
    (session : Session)
    (held : holds session) :
    (Session.loadNested environment nesting path session).Keeps holds accounts := by
  induction nesting generalizing path session with
  | zero => exact maintained.stopped held (by simp [Stop.IsStatic])
  | succ nesting inductionHypothesis =>
      simp only [Session.loadNested]
      split
      · refine maintained.stopped held fun failure stop_eq => ?_
        simp only [Stop.failure.injEq] at stop_eq
        simp [← stop_eq, Error.Cause.isDynamic]
      · split
        · rename_i stop read_eq
          refine maintained.stopped held fun failure stop_eq => ?_
          exact Error.Cause.isDynamic_of_isOpening (readFile_eq_failure (stop_eq ▸ read_eq)).1
        · rename_i tokens read_eq
          have included := maintained.includeBy environment.files inductionHypothesis
          let address := Files.Path.address environment.files.home path
          have inside := maintained.surrounded session session.source
            (address :: session.loading) held
          have written := isWellFormed_of_readFile read_eq
          refine (maintained.loadSource inside environment.fuel included path written).mapState
            ?_ ?_
          · exact fun after => maintained.surrounded after after.source after.loading.tail
          · exact fun after => maintained.accounted after after.source after.loading.tail

theorem IsMaintained.execute
    (maintained : IsMaintained holds accounts)
    (held : holds session)
    (environment : Environment)
    (name text : String) :
    (session.execute environment name text).Keeps holds accounts := by
  unfold Session.execute
  split
  · rename_i read_eq
    refine maintained.stopped held fun failure stop_eq => ?_
    simp only [Stop.failure.injEq] at stop_eq
    exact stop_eq ▸ Error.Cause.isDynamic_of_isOpening (Lexer.isOpening_of_tokenize read_eq)
  · rename_i tokens read_eq
    have included := maintained.includeBy environment.files
      (maintained.loadNested environment environment.nesting)
    exact maintained.loadSource held environment.fuel included name
      (Lexer.isWellFormed_of_tokenize read_eq)

theorem IsMaintained.loadFile
    (maintained : IsMaintained holds accounts)
    (held : holds session)
    (environment : Environment)
    (path : String) :
    (session.loadFile environment path).Keeps holds accounts :=
  maintained.loadNested environment environment.nesting path _ (maintained.noted _ _ held rfl)

theorem IsMaintained.loadInit
    (maintained : IsMaintained holds accounts)
    (held : holds session)
    (environment : Environment)
    (path : Option String) :
    (session.loadInit environment path).Keeps holds accounts := by
  unfold Session.loadInit
  split
  · exact Outcome.keeps_done held false
  · exact (maintained.loadFile held environment _).andThen fun after _ afterHeld =>
      Outcome.keeps_done afterHeld true

/-! ## What the interactive loop keeps -/

theorem IsMaintained.invite
    (maintained : IsMaintained holds accounts)
    (held : holds session)
    (environment : Environment)
    (shown : Bool) :
    (session.invite environment shown).Keeps holds accounts := by
  have shownKept : (session.showStack environment shown).Keeps holds accounts := by
    unfold Session.showStack
    split
    · exact maintained.execute (maintained.printed _ _ held) environment _ _
    · exact Outcome.keeps_done held ()
  exact shownKept.andThen fun after _ afterHeld =>
    Outcome.keeps_done (maintained.printed _ _ afterHeld) ()

theorem IsMaintained.answer
    (maintained : IsMaintained holds accounts)
    (held : holds session)
    (environment : Environment)
    (line : Option String) :
    (session.answer environment line).Keeps holds accounts := by
  unfold Session.answer
  split
  · exact Outcome.keeps_done (maintained.printed _ _ held) true
  · rename_i text
    have executed := maintained.execute held environment "<repl>" text
    simp only
    split
    · exact Outcome.keeps_done executed.1 true
    · exact Outcome.keeps_done executed.1 false
    · exact Outcome.keeps_done (maintained.printed _ _ executed.1) true
    · rename_i stop _ notFailure result_eq
      refine maintained.stopped executed.1 fun failure stop_eq => ?_
      exact absurd stop_eq (notFailure failure)

theorem IsMaintained.converse
    (maintained : IsMaintained holds accounts)
    (held : holds session)
    (environment : Environment)
    (shown : Bool)
    (lines : List (Option String)) :
    (session.converse environment shown lines).Keeps holds accounts := by
  induction lines generalizing session with
  | nil => exact maintained.invite held environment shown
  | cons line lines inductionHypothesis =>
      simp only [Session.converse]
      refine (maintained.invite held environment shown).andThen fun invited _ invitedHeld => ?_
      refine (maintained.answer invitedHeld environment line).andThen
        fun answered goesOn answeredHeld => ?_
      split
      · exact inductionHypothesis answeredHeld
      · exact Outcome.keeps_done answeredHeld ()

theorem IsMaintained.repl
    (maintained : IsMaintained holds accounts)
    (held : holds session)
    (environment : Environment)
    (shown : Bool)
    (lines : List (Option String)) :
    (session.repl environment shown lines).Keeps holds accounts :=
  (maintained.converse held environment shown lines).andThen fun _ _ afterHeld =>
    Outcome.keeps_done (maintained.printed _ _ afterHeld) ()

end Loading

/-! ## Properties of the machine -/

section Machines

variable {holds : Machine → Prop} {accounts : Machine → Error.Cause → Prop} {session : Session}

/-- A change that a program brings about keeps the property. -/
theorem IsKept.changeDictionary
    (kept : IsKept holds accounts)
    (held : holds session.machine)
    {change : Dictionary.Change}
    (loads : Loads session.dictionary change) :
    KeepsMachine holds accounts
      (session.changeDictionary (change.apply session.dictionary)) := by
  unfold Session.changeDictionary
  split
  · rename_i cause apply_eq
    have compiling := Dictionary.Change.isCompiling_of_apply apply_eq
    exact Outcome.keeps_failed held
      (kept.static _ _ held (Error.Cause.isDynamic_of_isCompiling compiling))
  · rename_i dictionary apply_eq
    exact Outcome.keeps_done (kept.changed _ change dictionary held loads apply_eq) ()

theorem IsKept.define
    (kept : IsKept holds accounts)
    (held : holds session.machine)
    {name : String}
    {tokens rest : List Token}
    {body : Body}
    (written : ∀ token ∈ Token.header name :: tokens, token.IsWellFormed)
    (read_eq : Reader.readDefinition session.dictionary name tokens = .ok (body, rest)) :
    KeepsMachine holds accounts (session.define name body) := by
  refine (kept.changeDictionary held (.define written read_eq)).andThen fun after _ afterHeld => ?_
  split <;> exact Outcome.keeps_done afterHeld ()

theorem IsKept.applyDirective
    (kept : IsKept holds accounts)
    (held : holds session.machine)
    (inclusion : Inclusion)
    {directive : Directive}
    (otherwise : directive ≠ .includeFile)
    {name : String}
    (written : (Token.word name).IsWellFormed) :
    KeepsMachine holds accounts (session.applyDirective inclusion directive name) := by
  have refused : ∀ {stop : Stop}, Reader.checkName name = .error stop →
      KeepsMachine holds accounts (.stopped session stop : Outcome Session Unit) :=
    fun check_eq => Outcome.keeps_stopped_iff.mpr ⟨held, fun failure stop_eq =>
      kept.static _ _ held ((Reader.arises_of_checkName check_eq).isStatic failure stop_eq)⟩
  unfold Session.applyDirective
  split
  · exact absurd rfl otherwise
  · split
    · exact refused ‹_›
    · exact kept.changeDictionary held (.declareVariable written ‹_›)
  · split
    · exact refused ‹_›
    · exact kept.changeDictionary held (.defer written ‹_›)

/-- What surrounds the machine does not matter to a property of the machine. -/
theorem IsKept.isMaintained (kept : IsKept holds accounts) :
    IsMaintained (fun session => holds session.machine) fun session => accounts session.machine where
  surrounded _ _ _ held := held
  accounted _ _ _ _ accounted := accounted
  noted _ _ held _ := held
  printed _ _ held := kept.printed _ _ held
  defined _ _ _ _ _ held written read_eq := kept.define held written read_eq
  directed session inclusion directive name held written otherwise :=
    @IsKept.applyDirective _ _ (session.note (.directive directive.keyword name)) kept held
      inclusion _ otherwise _ written
  dispatched _ _ _ _ _ fuel held written read_eq :=
    (kept.dispatched _ _ _ _ _ fuel held written read_eq).mapState (fun _ held => held)
      fun _ _ accounted => accounted
  static _ _ held static := kept.static _ _ held static

end Machines

/-! ## Sequences of operations -/

/-- What is done to a session from outside. -/
inductive Operation where
  /-- Loads a text under a name. -/
  | execute (environment : Environment) (name text : String)
  | loadFile (environment : Environment) (path : String)
  | loadInit (environment : Environment) (path : Option String)
  /-- The interactive loop on given lines. -/
  | repl (environment : Environment) (shown : Bool) (lines : List (Option String))
  /-- The first half of a turn of the loop: the stack and the prompt are shown. -/
  | invite (environment : Environment) (shown : Bool)
  /-- The second half of a turn of the loop: a line is loaded. -/
  | answer (environment : Environment) (line : Option String)
  /-- The dictionary is changed past the loader. -/
  | change (change : Dictionary.Change)

namespace Operation

/-- Whether an operation changes the dictionary through the loader only. -/
def isLoading : Operation → Bool
  | change _ => false
  | _ => true

end Operation

/-- Carries an operation out. -/
def perform (session : Session) : Operation → Outcome Session Unit
  | .execute environment name text => session.execute environment name text
  | .loadFile environment path => session.loadFile environment path
  | .loadInit environment path => (session.loadInit environment path).void
  | .repl environment shown lines => session.repl environment shown lines
  | .invite environment shown => session.invite environment shown
  | .answer environment line => (session.answer environment line).void
  | .change change => session.changeDictionary (change.apply session.dictionary)

/-- The session after operations, whether they fail or not. -/
def after (session : Session) (operations : List Operation) : Session :=
  operations.foldl (fun session operation => (session.perform operation).state) session

/-- A session that is reached from a new one by loading. -/
def IsReached (session : Session) : Prop :=
  ∃ environment withPrelude limit operations,
    (∀ operation ∈ operations, operation.isLoading = true) ∧
      session = (start environment withPrelude limit).after operations

section Sequences

variable {holds : Session → Prop} {accounts : Session → Error.Cause → Prop} {session : Session}

/-- What is reached by loading is reached by loading further. -/
theorem IsReached.after
    (reached : session.IsReached)
    {operations : List Operation}
    (loading : ∀ operation ∈ operations, operation.isLoading = true) :
    (session.after operations).IsReached := by
  obtain ⟨environment, withPrelude, limit, earlier, loadingEarlier, rfl⟩ := reached
  refine ⟨environment, withPrelude, limit, earlier ++ operations, ?_, ?_⟩
  · intro operation present
    exact (List.mem_append.mp present).elim (loadingEarlier operation) (loading operation)
  · simp only [Session.after, List.foldl_append]

/-- What loading keeps, every operation that loads keeps. -/
theorem IsMaintained.perform
    (maintained : IsMaintained holds accounts)
    (held : holds session)
    {operation : Operation}
    (loading : operation.isLoading = true) :
    (session.perform operation).Keeps holds accounts := by
  cases operation with
  | execute environment name text => exact maintained.execute held environment name text
  | loadFile environment path => exact maintained.loadFile held environment path
  | loadInit environment path => exact (maintained.loadInit held environment path).void
  | repl environment shown lines => exact maintained.repl held environment shown lines
  | invite environment shown => exact maintained.invite held environment shown
  | answer environment line => exact (maintained.answer held environment line).void
  | change change => simp [Operation.isLoading] at loading

/-- What each of a sequence of operations keeps, the sequence keeps. -/
theorem holds_after
    {operations : List Operation}
    (held : holds session)
    (performed : ∀ operation ∈ operations, ∀ session : Session,
      holds session → holds (session.perform operation).state) :
    holds (session.after operations) := by
  induction operations generalizing session with
  | nil => exact held
  | cons operation operations inductionHypothesis =>
      refine inductionHypothesis (performed operation List.mem_cons_self session held) ?_
      exact fun other present => performed other (List.mem_cons_of_mem operation present)

/-- What loading keeps holds of a started session if it holds of a new one. -/
theorem IsMaintained.start
    (maintained : IsMaintained holds accounts)
    {limit : DepthLimit}
    (initially : holds (.initial limit))
    (environment : Environment)
    (withPrelude : Bool) :
    holds (start environment withPrelude limit) := by
  unfold Session.start
  generalize (if withPrelude then preludeLines else []) = lines
  suffices steps : ∀ session : Session, holds session →
      holds (lines.foldl (fun session line =>
        (session.execute environment "<prelude>" line).state) session) from
    steps _ initially
  induction lines with
  | nil => exact fun session held => held
  | cons line lines inductionHypothesis =>
      intro session held
      exact inductionHypothesis _ (maintained.execute held environment "<prelude>" line).1

/-- What loading keeps holds of every session that loading reaches. -/
theorem IsMaintained.of_isReached
    (maintained : IsMaintained holds accounts)
    (initially : ∀ limit, holds (.initial limit))
    (reached : session.IsReached) :
    holds session := by
  obtain ⟨environment, withPrelude, limit, operations, loading, rfl⟩ := reached
  refine holds_after (maintained.start (initially limit) environment withPrelude) ?_
  intro operation present session held
  exact (maintained.perform held (loading operation present)).1

end Sequences

section MachineSequences

variable {holds : Machine → Prop} {accounts : Machine → Error.Cause → Prop} {session : Session}

theorem IsKept.perform
    (kept : IsKept holds accounts)
    (held : holds session.machine)
    {operation : Operation}
    (loading : operation.isLoading = true) :
    KeepsMachine holds accounts (session.perform operation) :=
  kept.isMaintained.perform held loading

/-- What loading and every change keep, all operations keep. -/
theorem IsKept.after
    (kept : IsKept holds accounts)
    (changed : ∀ machine change dictionary,
      holds machine →
      Dictionary.Change.apply change machine.dictionary = .ok dictionary →
      holds (machine.withDictionary dictionary))
    (held : holds session.machine)
    (operations : List Operation) :
    holds (session.after operations).machine := by
  refine @holds_after (fun session => holds session.machine) _ _ held
    fun operation _ session held => ?_
  cases operation with
  | change change =>
      simp only [Session.perform, Session.changeDictionary]
      split
      · exact held
      · rename_i dictionary apply_eq
        exact changed _ change dictionary held apply_eq
  | execute | loadFile | loadInit | repl | invite | answer =>
      exact (kept.perform held rfl).1

theorem IsKept.start
    (kept : IsKept holds accounts)
    {limit : DepthLimit}
    (initially : holds (.initial limit))
    (environment : Environment)
    (withPrelude : Bool) :
    holds (start environment withPrelude limit).machine :=
  kept.isMaintained.start initially environment withPrelude

theorem IsKept.of_isReached
    (kept : IsKept holds accounts)
    (initially : ∀ limit, holds (.initial limit))
    (reached : session.IsReached) :
    holds session.machine :=
  kept.isMaintained.of_isReached initially reached

end MachineSequences

end Session
end Concatenative
