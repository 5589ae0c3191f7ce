import Concatenative.Proofs.Inclusion
import Mathlib.Logic.Relation

/-!
# The moments of a load

While a source is loaded, files that it includes are opened, loaded and left again, and
values are run in between.  The moments of a load are the sessions that it passes through,
each with the sources that are being loaded and with what is to be done next; one moment
leads to another.  What runs of values do is told by their outcomes, whatever number of
steps they take, so that a load that never ends has its moments too.

At every moment the session has the addresses of the files among the sources being loaded,
and no address is among them twice.  So with every file that is opened there is one address
less to be opened, and moments do not lead on for ever.
-/

namespace Concatenative
namespace Session

/-! ## Sources -/

/-- What is loaded into a session. -/
inductive Source where
  /-- A text under a name. -/
  | text (name characters : String)
  | file (path : String)

namespace Source

/-- The name under which a source is loaded. -/
def name : Source → String
  | text name _ => name
  | file path => path

/-- The address of a file. -/
def address? (home : Files.Location) : Source → Option Files.Address
  | text _ _ => none
  | file path => some (Files.Path.address home path)

/-- The tokens of a source. -/
def read (files : Files.Tree) : Source → Except Stop (List Token)
  | text name characters => (Lexer.tokenize name characters).mapError .failure
  | file path => readFile files path

/-- A text that cannot be split into tokens stops with the failure of that. -/
theorem stop_of_read_text
    {files : Files.Tree}
    {name characters : String}
    {stop : Stop}
    (read_eq : (text name characters).read files = .error stop) :
    ∃ failure, stop = .failure failure ∧ Lexer.tokenize name characters = .error failure := by
  simp only [read] at read_eq
  cases tokenize_eq : Lexer.tokenize name characters with
  | ok tokens =>
      rw [tokenize_eq] at read_eq
      cases read_eq
  | error failure =>
      rw [tokenize_eq] at read_eq
      exact ⟨failure, (Except.error.inj read_eq).symm, rfl⟩

/-- The tokens of a text are those that it is split into. -/
theorem tokenize_of_read
    {files : Files.Tree}
    {name characters : String}
    {tokens : List Token}
    (read_eq : (text name characters).read files = .ok tokens) :
    Lexer.tokenize name characters = .ok tokens := by
  simp only [read] at read_eq
  cases tokenize_eq : Lexer.tokenize name characters with
  | ok found =>
      rw [tokenize_eq] at read_eq
      rw [Except.ok.inj read_eq]
  | error failure =>
      rw [tokenize_eq] at read_eq
      cases read_eq

/--
A source that cannot be opened or split into tokens has a NUL character in its path or is
named by the failure.
-/
theorem read_eq_error
    {files : Files.Tree}
    {source : Source}
    {stop : Stop}
    (read_eq : source.read files = .error stop) :
    stop = .embeddedNul ∨
      ∃ failure, stop = .failure failure ∧ failure.cause.isOpening = true ∧
        failure.source = some source.name := by
  cases source with
  | text name characters =>
      obtain ⟨failure, rfl, tokenize_eq⟩ := stop_of_read_text read_eq
      exact .inr ⟨failure, rfl, Lexer.isOpening_of_tokenize tokenize_eq,
        (Lexer.tokenize_eq_error tokenize_eq).2⟩
  | file path => exact readFile_eq_error read_eq

/-- A source that cannot be read does not use up any steps. -/
theorem ended_of_read_eq_error
    {files : Files.Tree}
    {source : Source}
    {stop : Stop}
    (read_eq : source.read files = .error stop)
    (session : Session) :
    (Outcome.stopped session stop : Outcome Session Unit).Ended := by
  rcases read_eq_error read_eq with rfl | ⟨failure, rfl, -⟩
  · simp
  · simp

theorem read_eq_failure
    {files : Files.Tree}
    {source : Source}
    {failure : Error.Failure}
    (read_eq : source.read files = .error (.failure failure)) :
    failure.cause.isOpening = true ∧ failure.source = some source.name := by
  rcases read_eq_error read_eq with nul | ⟨other, same, opening, named⟩
  · cases nul
  · obtain rfl := Stop.failure.inj same
    exact ⟨opening, named⟩

end Source

/-- The source is a file that is being loaded. -/
def IsLoading (session : Session) (home : Files.Location) (source : Source) : Prop :=
  ∃ address ∈ source.address? home, address ∈ session.loading

/-- The session in which the tokens of a source are loaded. -/
def entering (session : Session) (home : Files.Location) (source : Source) (count : Nat) :
    Session :=
  { session with
    source := some source.name
    loading := (source.address? home).toList ++ session.loading }.note
      (.loading source.name count)

/-- Loads a source. -/
def load (session : Session) (environment : Environment) : Source → Outcome Session Unit
  | .text name characters => session.execute environment name characters
  | .file path => session.loadPath environment path

section Loading

variable
  {session : Session}
  {files : Files.Tree}
  {fuel : Nat}
  {source : Source}

/-- A file that is being loaded is refused. -/
theorem load_of_isLoading
    (nests : session.NestsIn files)
    (loading : session.IsLoading files.home source) :
    session.load ⟨files, fuel⟩ source =
      .stopped session (.failure ⟨.circular source.name, session.source⟩) := by
  obtain ⟨address, located, present⟩ := loading
  cases source with
  | text name characters => nomatch located
  | file path =>
      cases located
      rw [load, loadPath_eq nests, if_pos present]
      rfl

/-- A source that cannot be opened or split into tokens changes nothing. -/
theorem load_of_read_eq_error
    (nests : session.NestsIn files)
    (absent : ¬ session.IsLoading files.home source)
    {stop : Stop}
    (read_eq : source.read files = .error stop) :
    session.load ⟨files, fuel⟩ source = .stopped session stop := by
  cases source with
  | text name characters =>
      obtain ⟨failure, rfl, tokenize_eq⟩ := Source.stop_of_read_text read_eq
      simp only [load, execute, tokenize_eq]
  | file path =>
      have notLoaded : Files.Path.address files.home path ∉ session.loading :=
        fun present => absent ⟨_, rfl, present⟩
      simp only [Source.read] at read_eq
      rw [load, loadPath_eq nests, if_neg notLoaded, read_eq]

/-- The tokens of a source are loaded, and what surrounded it is restored. -/
theorem load_of_read_eq_ok
    (nests : session.NestsIn files)
    (absent : ¬ session.IsLoading files.home source)
    {tokens : List Token}
    (read_eq : source.read files = .ok tokens) :
    session.load ⟨files, fuel⟩ source =
      (((session.entering files.home source tokens.length).loadTokens
        fuel (Environment.inclusion ⟨files, fuel⟩) tokens).mapStop
          (Stop.within source.name)).mapState fun after =>
            { after with source := session.source, loading := session.loading } := by
  let inside := session.entering files.home source tokens.length
  have loading_eq : (inside.loadTokens fuel (Environment.inclusion ⟨files, fuel⟩)
      tokens).state.loading = inside.loading :=
    congrArg Ambience.loading
      (isAmbient_ambience.loadTokens (leaves_inclusion ⟨files, fuel⟩) tokens)
  cases source with
  | text name characters =>
      have tokenize_eq := Source.tokenize_of_read read_eq
      have load_eq : session.load ⟨files, fuel⟩ (.text name characters) =
          session.loadSource fuel (Environment.inclusion ⟨files, fuel⟩) name tokens := by
        simp only [load, execute, tokenize_eq]
        rfl
      rw [load_eq]
      exact congrArg (fun loading => Outcome.mk (Session.mk _ _ loading _) _) loading_eq
  | file path =>
      have notLoaded : Files.Path.address files.home path ∉ session.loading :=
        fun present => absent ⟨_, rfl, present⟩
      simp only [Source.read] at read_eq
      rw [load, loadPath_eq nests, if_neg notLoaded, read_eq]
      exact congrArg (fun loading => Outcome.mk (Session.mk _ _ (List.tail loading) _) _)
        loading_eq

/-- Sources that are opened nest. -/
theorem NestsIn.entering
    (nests : session.NestsIn files)
    (absent : ¬ session.IsLoading files.home source)
    {tokens : List Token}
    (read_eq : source.read files = .ok tokens)
    (count : Nat) :
    (session.entering files.home source count).NestsIn files := by
  cases source with
  | text name characters => exact nests.of_loading_eq rfl
  | file path =>
      exact nests.cons (fun present => absent ⟨_, rfl, present⟩) (isReadable_of_readFile read_eq)
        rfl

end Loading

/-! ## Moments -/

/-- What is to be done next. -/
inductive Work where
  /-- A source is to be loaded. -/
  | load (source : Source)
  /-- Tokens of the innermost source are to be loaded. -/
  | tokens (tokens : List Token)
  /-- A value is being run. -/
  | run

/-- Where a load stands. -/
structure Moment where
  session : Session
  /-- The sources being loaded, innermost first. -/
  sources : List Source
  work : Work

namespace Moment

/-- One moment of a load leads to another. -/
inductive Leads (files : Files.Tree) : Moment → Moment → Prop
  /-- A source is opened. -/
  | opened {session : Session} {sources : List Source} {source : Source} {tokens : List Token} :
      ¬ session.IsLoading files.home source →
      source.read files = .ok tokens →
      Leads files ⟨session, sources, .load source⟩
        ⟨session.entering files.home source tokens.length, source :: sources, .tokens tokens⟩
  /-- A file is included. -/
  | included {session : Session} {sources : List Source} {keyword argument path : String}
      {rest : List Token} :
      checkDirective keyword rest.head? = .ok (.includeFile, argument) →
      locateIncluded files session.source argument = path →
      Leads files ⟨session, sources, .tokens (.directive keyword :: rest)⟩
        ⟨(session.note (.directive keyword argument)).note (.including path), sources,
          .load (.file path)⟩
  /-- A value is run. -/
  | ran {session : Session} {sources : List Source} {token : Token} {rest later : List Token}
      {value : Value} {visited : Machine} :
      Reader.readValue session.dictionary token rest = .ok (value, later) →
      session.machine.Passes [value] visited →
      Leads files ⟨session, sources, .tokens (token :: rest)⟩
        ⟨{ session with machine := visited }, sources, .run⟩
  /-- A form has been loaded, whatever number of steps that takes. -/
  | passed {session after : Session} {sources : List Source} {token : Token}
      {rest later : List Token} {fuel : Nat} :
      session.loadForm fuel (Environment.inclusion ⟨files, fuel⟩) token rest =
        .done after later →
      Leads files ⟨session, sources, .tokens (token :: rest)⟩ ⟨after, sources, .tokens later⟩

/-- A load comes from one moment to another. -/
abbrev Reaches (files : Files.Tree) : Moment → Moment → Prop :=
  Relation.ReflTransGen (Leads files)

/--
The session knows which sources are being loaded, on top of what was being loaded before:
the addresses of the files among them, each once, and the name of the innermost one.
-/
structure IsSound (files : Files.Tree) (origin : Session) (moment : Moment) : Prop where
  nests : moment.session.NestsIn files
  loading_eq : moment.session.loading =
    moment.sources.filterMap (Source.address? files.home) ++ origin.loading
  source_eq : moment.session.source =
    (moment.sources.head?.map Source.name).or origin.source
  /-- Only the first source is loaded from outside of every source. -/
  opened : moment.sources = [] → ∃ source, moment.work = .load source

section Soundness

variable {files : Files.Tree} {origin : Session} {moment later : Moment}

/-- What is done within the sources being loaded leaves them alone. -/
theorem IsSound.of_ambience_eq
    (sound : moment.IsSound files origin)
    (loading_eq : later.session.loading = moment.session.loading)
    (source_eq : later.session.source = moment.session.source)
    (sources_eq : later.sources = moment.sources)
    (inside : moment.sources ≠ []) :
    later.IsSound files origin where
  nests := sound.nests.of_loading_eq loading_eq
  loading_eq := by rw [loading_eq, sources_eq, sound.loading_eq]
  source_eq := by rw [source_eq, sources_eq, sound.source_eq]
  opened empty := absurd (sources_eq ▸ empty) inside

theorem IsSound.leads
    (sound : moment.IsSound files origin)
    (leads : Leads files moment later) :
    later.IsSound files origin := by
  have inside : ∀ {session : Session} {sources : List Source} {tokens : List Token},
      IsSound files origin ⟨session, sources, .tokens tokens⟩ → sources ≠ [] := by
    intro session sources tokens sound empty
    obtain ⟨source, work_eq⟩ := sound.opened empty
    nomatch work_eq
  cases leads with
  | @opened session sources source tokens absent read_eq =>
      constructor
      · exact sound.nests.entering absent read_eq _
      · have loading_eq := sound.loading_eq
        cases source with
        | text name characters => exact loading_eq
        | file path =>
            exact congrArg (Files.Path.address files.home path :: ·) loading_eq
      · rfl
      · exact fun empty => nomatch empty
  | included => exact sound.of_ambience_eq rfl rfl rfl (inside sound)
  | ran => exact sound.of_ambience_eq rfl rfl rfl (inside sound)
  | @passed session after sources token rest later fuel form_eq =>
      have same : after.ambience = session.ambience :=
        (congrArg (·.state.ambience) form_eq).symm.trans
          (isAmbient_ambience.loadForm (leaves_inclusion ⟨files, fuel⟩) token rest)
      exact sound.of_ambience_eq (congrArg Ambience.loading same)
        (congrArg Ambience.source same) rfl (inside sound)

/-- What each moment hands on to the next is true of all moments of a load. -/
theorem IsSound.reaches
    (sound : moment.IsSound files origin)
    (reaches : Reaches files moment later) :
    later.IsSound files origin := by
  induction reaches with
  | refl => exact sound
  | tail _ leads inductionHypothesis => exact inductionHypothesis.leads leads

end Soundness

end Moment

/-- Loads a source that is asked for from outside. -/
def request (session : Session) (environment : Environment) : Source → Outcome Session Unit
  | .text name characters => session.execute environment name characters
  | .file path => session.loadFile environment path

/-- The moment at which a source that is asked for from outside is to be loaded. -/
def beginning (session : Session) (source : Source) : Moment where
  session :=
    match source with
    | .text _ _ => session
    | .file path => session.note (.loadingFile path)
  sources := []
  work := .load source

theorem request_eq (session : Session) (environment : Environment) (source : Source) :
    session.request environment source =
      (session.beginning source).session.load environment source := by
  cases source <;> rfl

theorem isSound_beginning
    {files : Files.Tree}
    {session : Session}
    (nests : session.NestsIn files)
    (source : Source) :
    (session.beginning source).IsSound files session := by
  cases source with
  | text name characters => exact ⟨nests, rfl, rfl, fun _ => ⟨_, rfl⟩⟩
  | file path => exact ⟨nests.of_loading_eq rfl, rfl, rfl, fun _ => ⟨_, rfl⟩⟩

/-! ## Moments do not lead on for ever -/

/-- How far the work at a moment is from being done, apart from the files to be opened. -/
def Work.rank : Work → Nat × Nat
  | .load (.text _ _) => (2, 0)
  | .tokens left => (1, left.length)
  | .load (.file _) | .run => (0, 0)

namespace Moment

/-- The addresses that are not being loaded, then how far the work is from being done. -/
def rank (files : Files.Tree) (moment : Moment) : Nat × Nat × Nat :=
  (2 * files.readable.length - moment.session.loading.length, moment.work.rank)

section Descent

variable {files : Files.Tree} {origin : Session} {moment later : Moment}

/-- With each file that is opened there is one address less to be opened, and else less work. -/
theorem IsSound.rank_lt
    (sound : moment.IsSound files origin)
    (leads : Leads files moment later) :
    Prod.Lex (· < ·) (Prod.Lex (· < ·) (· < ·)) (later.rank files) (moment.rank files) := by
  have length_le := (sound.leads leads).nests.length_le
  cases leads with
  | @opened session sources source tokens absent read_eq =>
      cases source with
      | text name characters => exact .right _ (.left _ _ (Nat.lt_succ_self 1))
      | file path =>
          have length_eq : (session.entering files.home (.file path) tokens.length).loading.length =
              session.loading.length + 1 := rfl
          refine .left _ _ ?_
          simp only [length_eq] at length_le ⊢
          omega
  | included | ran => exact .right _ (.left _ _ Nat.zero_lt_one)
  | @passed session after sources token rest later fuel form_eq =>
      have same : after.ambience = session.ambience :=
        (congrArg (·.state.ambience) form_eq).symm.trans
          (isAmbient_ambience.loadForm (leaves_inclusion ⟨files, fuel⟩) token rest)
      have loading_eq : after.loading = session.loading := congrArg Ambience.loading same
      have suffix := suffix_of_loadForm (congrArg Outcome.result form_eq)
      simp only [rank, loading_eq]
      exact .right _ (.right _ (Nat.lt_succ_of_le suffix.length_le))

/--
Moments do not lead on for ever, so what holds of a moment if it holds of those that it
leads to holds of every moment.
-/
theorem IsSound.induction
    {motive : ∀ moment : Moment, moment.IsSound files origin → Prop}
    (step : ∀ moment (sound : moment.IsSound files origin),
      (∀ later (leads : Leads files moment later), motive later (sound.leads leads)) →
        motive moment sound)
    (moment : Moment)
    (sound : moment.IsSound files origin) :
    motive moment sound :=
  step moment sound fun later leads =>
    IsSound.induction step later (sound.leads leads)
termination_by moment.rank files
decreasing_by exact sound.rank_lt leads

end Descent

/-- What is left to be done at a moment, with a number of steps allowed to each run. -/
def goOn (files : Files.Tree) (fuel : Nat) (moment : Moment) : Outcome Session Unit :=
  match moment.work with
  | .load source => moment.session.load ⟨files, fuel⟩ source
  | .tokens tokens =>
      moment.session.loadTokens fuel (Environment.inclusion ⟨files, fuel⟩) tokens
  | .run => .done moment.session ()

end Moment

end Session
end Concatenative
