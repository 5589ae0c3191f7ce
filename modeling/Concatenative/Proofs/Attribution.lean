import Concatenative.Proofs.Moment
import Concatenative.Proofs.Stopping

/-!
# The sources of errors

An error arises in the source that is being loaded, at whatever depth of calls and wherever
the words that are called were defined, and takes the name of that source on its way out.
An error about a source that cannot be opened or split into tokens has the name of that
source from the start.  A source that is left with an error which has a name leaves the
name alone, so that every error that comes out of a load names the source it arose in.
-/

namespace Concatenative

/-- A source that is left with an error names it, unless it has a name. -/
theorem Outcome.result_within_eq_failure_iff
    {σ α : Type}
    {outcome : Outcome σ α}
    {source : String}
    {failure : Error.Failure} :
    (outcome.mapStop (Stop.within source)).result = .error (.failure failure) ↔
      ∃ inner, outcome.result = .error (.failure inner) ∧ failure = inner.within source := by
  rcases outcome.done_or_stopped with ⟨state, result, rfl⟩ | ⟨state, stop, rfl⟩
  · rw [mapStop_done]
    simp [done]
  · rw [mapStop_stopped]
    cases stop <;> simp [stopped, Stop.within, eq_comm]

namespace Session
namespace Moment

/-- An error arises at a moment. -/
inductive Raises (files : Files.Tree) : Moment → Error.Cause → Prop
  /-- A file is to be loaded that is being loaded. -/
  | refused {session : Session} {sources : List Source} {source : Source} :
      session.IsLoading files.home source →
      Raises files ⟨session, sources, .load source⟩ (.circular source.name)
  /-- A source cannot be opened or split into tokens. -/
  | unread {session : Session} {sources : List Source} {source : Source}
      {failure : Error.Failure} :
      ¬ session.IsLoading files.home source →
      source.read files = .error (.failure failure) →
      Raises files ⟨session, sources, .load source⟩ failure.cause
  /-- A form fails by itself, and not in a file that it includes. -/
  | failed {session : Session} {sources : List Source} {token : Token} {rest : List Token}
      {fuel : Nat} {failure : Error.Failure} :
      (session.loadForm fuel includeNothing token rest).result = .error (.failure failure) →
      Raises files ⟨session, sources, .tokens (token :: rest)⟩ failure.cause

/--
The source that an error is put down to: the one that is to be loaded if that cannot be
opened or split into tokens, and the innermost one that is being loaded otherwise.
-/
def blamed (moment : Moment) (cause : Error.Cause) : Option Source :=
  if cause.isOpening then
    match moment.work with
    | .load source => some source
    | .tokens _ | .run => none
  else moment.sources.head?

/-- What is left to be done fails, with the given error once the innermost source is left. -/
def Fails (files : Files.Tree) (moment : Moment) (failure : Error.Failure) : Prop :=
  ∃ fuel inner, (moment.goOn files fuel).result = .error (.failure inner) ∧
    failure = ⟨inner.cause, inner.source.or (moment.sources.head?.map Source.name)⟩

section Attribution

variable
  {files : Files.Tree}
  {origin : Session}
  {moment later : Moment}
  {failure : Error.Failure}

/-- A form that fails by itself does so in a source that is open, and names none. -/
theorem arises_of_failed
    {session : Session}
    {fuel : Nat}
    {token : Token}
    {rest : List Token}
    (failed_eq : (session.loadForm fuel includeNothing token rest).result =
      .error (.failure failure)) :
    failure.cause.isOpening = false ∧ failure.source = none := by
  rcases arises_of_loadForm failed_eq with arises | ⟨cut, -⟩
  · obtain ⟨loaded, unnamed⟩ := arises.failure rfl
    exact ⟨by simpa using loaded, unnamed⟩
  · cases cut

/-- The session is named after the innermost source. -/
theorem IsSound.source_of_head
    {session : Session}
    {sources : List Source}
    {work : Work}
    {innermost : Source}
    (sound : IsSound files origin ⟨session, sources, work⟩)
    (head_eq : sources.head? = some innermost) :
    session.source = some innermost.name := by
  simpa [head_eq] using sound.source_eq

/-- An error that arises later comes out of what is left to be done now. -/
theorem Leads.fails
    (leads : Leads files moment later)
    (nests : moment.session.NestsIn files)
    (laterNests : later.session.NestsIn files)
    (fails : later.Fails files failure) :
    moment.Fails files failure := by
  obtain ⟨fuel, inner, result_eq, rfl⟩ := fails
  cases leads with
  | @opened session sources source tokens absent read_eq =>
      refine ⟨fuel, inner.within source.name, ?_, ?_⟩
      · simp only [goOn] at result_eq ⊢
        rw [load_of_read_eq_ok nests absent read_eq]
        exact Outcome.result_within_eq_failure_iff.mpr ⟨inner, result_eq, rfl⟩
      · simp [Error.Failure.within]
  | included check_eq path_eq =>
      refine ⟨fuel, inner, ?_, rfl⟩
      simp only [goOn, loadTokens_cons, loadForm, check_eq, applyDirective] at result_eq ⊢
      subst path_eq
      refine Outcome.result_andThen_eq_error_iff.mpr (.inl ?_)
      exact Outcome.result_andThen_eq_error_iff.mpr (.inl result_eq)
  | ran => cases result_eq
  | @passed session after sources token rest remaining more form_eq =>
      refine ⟨more + fuel, inner, ?_, rfl⟩
      have formEnded : (session.loadForm more (Environment.inclusion ⟨files, more⟩) token
          rest).Ended := by simp [form_eq]
      simp only [goOn, loadTokens_cons] at result_eq ⊢
      have remainingEnded : (after.loadTokens fuel (Environment.inclusion ⟨files, fuel⟩)
          remaining).Ended := by simp [Outcome.Ended, result_eq]
      rw [loadForm_add_of_ended nests formEnded fuel, form_eq, Outcome.andThen_done,
        Nat.add_comm, loadTokens_add_of_ended laterNests remainingEnded more]
      exact result_eq

theorem IsSound.fails_of_reaches
    (sound : moment.IsSound files origin)
    (reaches : Reaches files moment later)
    (fails : later.Fails files failure) :
    moment.Fails files failure := by
  induction reaches with
  | refl => exact fails
  | tail reaches leads inductionHypothesis =>
      have before := sound.reaches reaches
      exact inductionHypothesis (leads.fails before.nests (before.leads leads).nests fails)

/-- An error that arises comes out of what is left to be done, put down to its source. -/
theorem Raises.fails
    {cause : Error.Cause}
    {culprit : Source}
    (raises : moment.Raises files cause)
    (sound : moment.IsSound files origin)
    (blamed_eq : moment.blamed cause = some culprit) :
    moment.Fails files ⟨cause, some culprit.name⟩ := by
  cases raises with
  | @refused session sources source loading =>
      have innermost : sources.head? = some culprit := blamed_eq
      have source_eq := sound.source_of_head innermost
      refine ⟨0, ⟨.circular source.name, session.source⟩, ?_, ?_⟩
      · simp only [goOn]
        rw [load_of_isLoading sound.nests loading]
        rfl
      · simp [source_eq]
  | @unread session sources source failure absent read_eq =>
      obtain ⟨opening, named⟩ := Source.read_eq_failure read_eq
      obtain rfl : source = culprit := by simpa [blamed, opening] using blamed_eq
      refine ⟨0, failure, ?_, ?_⟩
      · simp only [goOn]
        rw [load_of_read_eq_error sound.nests absent read_eq]
        rfl
      · simp [named]
  | @failed session sources token rest fuel failure failed_eq =>
      obtain ⟨loaded, unnamed⟩ := arises_of_failed failed_eq
      have innermost : sources.head? = some culprit := by simpa [blamed, loaded] using blamed_eq
      refine ⟨fuel, failure, ?_, by simp [unnamed, innermost]⟩
      rcases loadForm_include_or_not token rest with
        ⟨keyword, argument, -, -, include_eq⟩ | alone_eq
      · rw [include_eq] at failed_eq
        cases failed_eq
      · simp only [goOn, loadTokens_cons, alone_eq]
        exact Outcome.result_andThen_eq_error_iff.mpr (.inl failed_eq)

/-! ## From an error to the moment at which it arises -/

/-- An error is traced to a moment at which it arises, and names the source it is put down to. -/
def Traces (files : Files.Tree) (moment : Moment) (failure : Error.Failure) : Prop :=
  ∃ later culprit,
    Reaches files moment later ∧
      later.Raises files failure.cause ∧
      later.blamed failure.cause = some culprit ∧
      failure.source = some culprit.name

/-- An error that arises now is traced. -/
theorem Raises.traces
    {cause : Error.Cause}
    {culprit : Source}
    {name : Option String}
    (raises : moment.Raises files cause)
    (blamed_eq : moment.blamed cause = some culprit)
    (named : name = some culprit.name) :
    moment.Traces files ⟨cause, name⟩ :=
  ⟨moment, culprit, .refl, raises, blamed_eq, named⟩

/-- An error that is traced from the next moment is traced from this one. -/
theorem Leads.traces
    (leads : Leads files moment later)
    (traces : later.Traces files failure) :
    moment.Traces files failure := by
  obtain ⟨last, culprit, reaches, raised⟩ := traces
  exact ⟨last, culprit, reaches.head leads, raised⟩

section Tracing

variable
  {session : Session}
  {sources : List Source}
  {source : Source}
  {token : Token}
  {rest : List Token}
  {fuel : Nat}
  {inner : Error.Failure}

/-- The file that is refused while nothing but the sources is loaded is included by one. -/
theorem IsSound.exists_innermost_of_isLoading
    (sound : IsSound files origin ⟨session, sources, .load source⟩)
    (idle : origin.loading = [])
    (loading : session.IsLoading files.home source) :
    ∃ innermost, sources.head? = some innermost := by
  cases sources with
  | nil =>
      obtain ⟨address, -, present⟩ := loading
      rw [sound.loading_eq, idle] at present
      cases present
  | cons innermost outer => exact ⟨innermost, rfl⟩

/-- Tokens are those of a source. -/
theorem IsSound.exists_innermost_of_tokens
    {tokens : List Token}
    (sound : IsSound files origin ⟨session, sources, .tokens tokens⟩) :
    ∃ innermost, sources.head? = some innermost := by
  cases sources with
  | nil =>
      obtain ⟨source, work_eq⟩ := sound.opened rfl
      cases work_eq
  | cons innermost outer => exact ⟨innermost, rfl⟩

/-- An error of a source that is to be loaded is that of a moment from there on. -/
theorem IsSound.traces_of_load
    (sound : IsSound files origin ⟨session, sources, .load source⟩)
    (idle : origin.loading = [])
    (follow : ∀ next, Leads files ⟨session, sources, .load source⟩ next →
      next.Fails files failure → next.Traces files failure)
    (fails : Fails files ⟨session, sources, .load source⟩ failure) :
    Traces files ⟨session, sources, .load source⟩ failure := by
  obtain ⟨fuel, inner, result_eq, rfl⟩ := fails
  simp only [goOn] at result_eq
  by_cases loading : session.IsLoading files.home source
  · rw [load_of_isLoading sound.nests loading] at result_eq
    obtain rfl := Stop.failure.inj (Except.error.inj result_eq)
    obtain ⟨innermost, head_eq⟩ := sound.exists_innermost_of_isLoading idle loading
    have source_eq := sound.source_of_head head_eq
    exact Raises.traces (.refused loading) head_eq (by simp [source_eq])
  cases read_eq : source.read files with
  | error stop =>
      rw [load_of_read_eq_error sound.nests loading read_eq] at result_eq
      obtain rfl : stop = .failure inner := Except.error.inj result_eq
      obtain ⟨opening, named⟩ := Source.read_eq_failure read_eq
      have raised : Raises files ⟨session, sources, .load source⟩ inner.cause :=
        .unread loading read_eq
      have blamed_eq : blamed ⟨session, sources, .load source⟩ inner.cause = some source := by
        simp [blamed, opening]
      exact raised.traces blamed_eq (by simp [named])
  | ok tokens =>
      rw [load_of_read_eq_ok sound.nests loading read_eq] at result_eq
      obtain ⟨raw, raw_eq, rfl⟩ := Outcome.result_within_eq_failure_iff.mp result_eq
      have opens : Leads files ⟨session, sources, .load source⟩ _ := .opened loading read_eq
      exact opens.traces (follow _ opens ⟨fuel, raw, raw_eq, by simp [Error.Failure.within]⟩)

/-- An error of a form by itself arises there, in the innermost source. -/
theorem IsSound.traces_of_failed
    (sound : IsSound files origin ⟨session, sources, .tokens (token :: rest)⟩)
    (failed_eq : (session.loadForm fuel includeNothing token rest).result =
      .error (.failure inner)) :
    Traces files ⟨session, sources, .tokens (token :: rest)⟩
      ⟨inner.cause, inner.source.or (sources.head?.map Source.name)⟩ := by
  obtain ⟨loaded, unnamed⟩ := arises_of_failed failed_eq
  obtain ⟨innermost, head_eq⟩ := sound.exists_innermost_of_tokens
  have raised : Raises files ⟨session, sources, .tokens (token :: rest)⟩ inner.cause :=
    .failed failed_eq
  have blamed_eq : blamed ⟨session, sources, .tokens (token :: rest)⟩ inner.cause =
      some innermost := by
    simp [blamed, loaded, head_eq]
  exact raised.traces blamed_eq (by simp [unnamed, head_eq])

/-- An error of tokens arises in the first form, in a file that it includes, or behind it. -/
theorem IsSound.traces_of_tokens
    (sound : IsSound files origin ⟨session, sources, .tokens (token :: rest)⟩)
    (follow : ∀ next, Leads files ⟨session, sources, .tokens (token :: rest)⟩ next →
      next.Fails files failure → next.Traces files failure)
    (fails : Fails files ⟨session, sources, .tokens (token :: rest)⟩ failure) :
    Traces files ⟨session, sources, .tokens (token :: rest)⟩ failure := by
  obtain ⟨fuel, inner, result_eq, rfl⟩ := fails
  simp only [goOn, loadTokens_cons] at result_eq
  rcases Outcome.result_andThen_eq_error_iff.mp result_eq with
    form_eq | ⟨after, remaining, form_eq, remaining_eq⟩
  · rcases loadForm_include_or_not token rest with
      ⟨keyword, argument, rfl, check_eq, include_eq⟩ | alone_eq
    · rw [include_eq] at form_eq
      rcases Outcome.result_andThen_eq_error_iff.mp form_eq with
        included_eq | ⟨_, _, _, done_eq⟩
      · have includes : Leads files ⟨session, sources, .tokens (_ :: rest)⟩ _ :=
          .included check_eq rfl
        exact includes.traces (follow _ includes ⟨fuel, inner, included_eq, rfl⟩)
      · cases done_eq
    · rw [alone_eq] at form_eq
      exact sound.traces_of_failed form_eq
  · have passes : Leads files ⟨session, sources, .tokens (token :: rest)⟩ _ := .passed form_eq
    exact passes.traces (follow _ passes ⟨fuel, inner, remaining_eq, rfl⟩)

end Tracing

/-- An error that comes out has arisen, and names the source that it is put down to. -/
theorem IsSound.traces
    (sound : moment.IsSound files origin)
    (idle : origin.loading = [])
    (fails : moment.Fails files failure) :
    moment.Traces files failure := by
  induction moment, sound using IsSound.induction with
  | step moment sound inductionHypothesis =>
      obtain ⟨session, sources, work⟩ := moment
      cases work with
      | load source => exact sound.traces_of_load idle inductionHypothesis fails
      | tokens tokens =>
          cases tokens with
          | nil =>
              obtain ⟨fuel, inner, result_eq, -⟩ := fails
              simp only [goOn, loadTokens_nil] at result_eq
              cases result_eq
          | cons token rest => exact sound.traces_of_tokens inductionHypothesis fails
      | run =>
          obtain ⟨fuel, inner, result_eq, -⟩ := fails
          cases result_eq

end Attribution

end Moment

/--
A load that starts with no file being loaded fails with an error if and only if the error
arises at one of its moments, and the error names the source that it is put down to there:
the source that is to be loaded, if that cannot be opened or split into tokens, and the
innermost source being loaded otherwise, whatever sources are around it.
-/
theorem request_fails_iff
    {files : Files.Tree}
    {session : Session}
    (idle : session.loading = [])
    (source : Source)
    (failure : Error.Failure) :
    (∃ fuel, (session.request ⟨files, fuel⟩ source).result = .error (.failure failure)) ↔
      ∃ moment culprit,
        Moment.Reaches files (session.beginning source) moment ∧
          moment.Raises files failure.cause ∧
          moment.blamed failure.cause = some culprit ∧
          failure.source = some culprit.name := by
  have nests : session.NestsIn files := nestsIn_of_idle idle
  have begun := isSound_beginning nests source
  have fails_iff : (session.beginning source).Fails files failure ↔
      ∃ fuel, (session.request ⟨files, fuel⟩ source).result = .error (.failure failure) := by
    simp [Moment.Fails, Moment.goOn, request_eq, beginning]
  rw [← fails_iff]
  constructor
  · exact begun.traces idle
  · rintro ⟨moment, culprit, reaches, raises, blamed_eq, source_eq⟩
    obtain ⟨cause, named⟩ := failure
    obtain rfl : named = some culprit.name := source_eq
    exact begun.fails_of_reaches reaches (raises.fails (begun.reaches reaches) blamed_eq)

/--
A word of a text fails when a file that the text includes calls it, and the error is put
down to the file.
-/
theorem request_fails_iff_included :
    ∃ (files : Files.Tree) (session : Session) (moment : Moment) (failure : Error.Failure),
      session.loading = [] ∧
      Moment.Reaches files
        (session.beginning (.text "main" ": lose drop ; :include a")) moment ∧
      moment.Raises files failure.cause ∧
      failure.cause.kind = .stackUnderflow ∧
      failure.source = some "a" := by
  let files := (Files.Tree.empty []).put "a" (.file "lose".toUTF8)
  let session := initial .standard
  let source := Source.text "main" ": lose drop ; :include a"
  have fails : ((session.request ⟨files, 9⟩ source).failure?.any fun failure =>
      failure.cause.kind == .stackUnderflow && failure.source == some "a") = true := by
    decide +kernel
  obtain ⟨failure, failure_eq, described⟩ := (Option.any_eq_true _ _).mp fails
  simp only [Bool.and_eq_true, beq_iff_eq] at described
  obtain ⟨moment, culprit, reaches, raises, -, -⟩ :=
    (request_fails_iff rfl source failure).mp ⟨9, Outcome.failure?_eq_some_iff.mp failure_eq⟩
  exact ⟨files, session, moment, failure, rfl, reaches, raises, described⟩

end Session
end Concatenative
