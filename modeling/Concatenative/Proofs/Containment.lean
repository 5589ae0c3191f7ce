import Concatenative.CommandLine.Console
import Concatenative.CommandLine.Run
import Concatenative.Proofs.Conversation
import Concatenative.Proofs.Prelude

/-!
# What the command line lets out

The program loads the prelude, then the init file and the source file, and ends with the
listings of the stack and of the dictionary, or it converses.  Only the loading in the
middle answers for errors and for the end of the session, so nothing may stop the rest.
The prelude is accepted wherever it is loaded.  The listings need one frame, which is there
because loading gives back all frames however it ends, and they run primitives, whose names
no program takes over.  What is left are numerals over the limit, paths with a NUL character
and a lack of steps.
-/

namespace Concatenative

/-! ## Being cut short -/

/-- The stop comes from a limit on the interpreter or its system, which no program handles. -/
def Stop.cutsShort : Stop → Bool
  | overlong _ | embeddedNul | exhausted => true
  | failure _ | leave => false

/-- A program has two ways to stop by itself: it fails, or it ends the session. -/
theorem Stop.cutsShort_of_ne
    {stop : Stop}
    (notLeft : stop ≠ .leave)
    (notFailed : ∀ failure, stop ≠ .failure failure) :
    stop.cutsShort = true := by
  cases stop with
  | failure failure => exact absurd rfl (notFailed failure)
  | leave => exact absurd rfl notLeft
  | overlong | embeddedNul | exhausted => rfl

namespace Outcome

variable {σ α : Type} {outcome : Outcome σ α} {state : σ}

/-- The state that an operation left behind by ending the session, if it did. -/
def left? (outcome : Outcome σ α) : Option σ :=
  match outcome with
  | ⟨state, .error .leave⟩ => some state
  | _ => none

theorem left?_eq_some_iff : outcome.left? = some state ↔ outcome = .stopped state .leave := by
  unfold left?
  split
  · simp [stopped]
  · rename_i notLeft
    refine iff_of_false (by simp) fun outcome_eq => ?_
    exact notLeft state outcome_eq

end Outcome

namespace Session

variable {session : Session} {environment : Environment} {shown : Bool}

/-! ## Containing -/

/-- Where there is room for a frame a listing is not stopped, unless it is cut short. -/
theorem execute_listing_cases
    (primitive : Primitive)
    (concludes : primitive.isConclusion = true)
    (room : session.HasRoom)
    (environment : Environment) :
    session.execute environment "<input>" primitive.name = .done (session.listed primitive) () ∨
      ∃ after stop, stop.cutsShort = true ∧
        session.execute environment "<input>" primitive.name = .stopped after stop := by
  cases fuel_eq : environment.fuel with
  | zero =>
      right
      rw [execute_primitive, fuel_eq, Machine.dispatch, Machine.run_eq,
        Machine.enter_of_depth_lt room, Outcome.andThen_done, Machine.runAbove_zero (by simp)]
      exact ⟨_, .exhausted, rfl, rfl⟩
  | succ fuel =>
      rw [execute_primitive_eq (Primitive.calls_of_isConclusion concludes) room fuel_eq]
      rcases Primitive.effect_of_isConclusion concludes session.machine.toWorkspace with
        effect_eq | ⟨after, effect_eq⟩
      · left
        rw [effect_eq]
        rfl
      · right
        rw [effect_eq]
        exact ⟨_, .overlong .write, rfl, rfl⟩

/-- An operation gives back all frames and does not stop, unless it is cut short. -/
structure IsContained (session : Session) {α : Type} (outcome : Outcome Session α) : Prop where
  ambience_eq : outcome.state.ambience = session.ambience
  cut : ∀ stop, outcome.result = .error stop → stop.cutsShort = true

section Outcomes

variable {α β : Type} {after : Session} {outcome : Outcome Session α}

theorem isContained_done
    (ambience_eq : after.ambience = session.ambience)
    (result : α) :
    session.IsContained (.done after result) where
  ambience_eq := ambience_eq
  cut _ result_eq := nomatch result_eq

theorem isContained_stopped
    {stop : Stop}
    (ambience_eq : after.ambience = session.ambience)
    (cut : stop.cutsShort = true) :
    session.IsContained (.stopped after stop : Outcome Session α) where
  ambience_eq := ambience_eq
  cut _ result_eq := Except.error.inj result_eq ▸ cut

/-- What is contained one after the other is contained as a whole. -/
theorem IsContained.andThen
    {next : Session → α → Outcome Session β}
    (contained : session.IsContained outcome)
    (goesOn : ∀ (after : Session) (result : α),
      after.ambience = session.ambience → after.IsContained (next after result)) :
    session.IsContained (outcome.andThen next) := by
  rcases outcome.done_or_stopped with ⟨after, result, rfl⟩ | ⟨after, stop, rfl⟩
  · have later := goesOn after result contained.ambience_eq
    exact ⟨later.ambience_eq.trans contained.ambience_eq, later.cut⟩
  · exact isContained_stopped contained.ambience_eq (contained.cut stop rfl)

end Outcomes

theorem isContained_listing
    (primitive : Primitive)
    (concludes : primitive.isConclusion = true)
    (room : session.HasRoom)
    (environment : Environment) :
    session.IsContained (session.execute environment "<input>" primitive.name) where
  ambience_eq := ambience_execute environment "<input>" primitive.name
  cut stop result_eq := by
    rcases execute_listing_cases primitive concludes room environment with
      done_eq | ⟨after, cutting, cut, stopped_eq⟩
    · rw [done_eq] at result_eq
      nomatch result_eq
    · rw [stopped_eq] at result_eq
      rw [← Except.error.inj result_eq]
      exact cut

/-! ## The loop -/

/-- What is printed does not surround a program. -/
theorem ambience_print (session : Session) (text : String) :
    (session.print text).ambience = session.ambience := rfl

/-- The stack and the prompt are shown where there is room for a frame. -/
theorem isContained_invite (room : session.HasRoom) :
    session.IsContained (session.invite environment shown) := by
  have shows : session.IsContained (session.showStack environment shown) := by
    cases shown with
    | false => exact isContained_done rfl ()
    | true =>
        have printed : (session.print "\n").HasRoom := room
        have lists := isContained_listing .printStack rfl printed environment
        exact ⟨lists.ambience_eq, lists.cut⟩
  exact shows.andThen fun after _ _ => isContained_done (after.ambience_print prompt) ()

/-- A line is answered whether it ends, fails or ends the session. -/
theorem isContained_answer
    (session : Session)
    (environment : Environment)
    (line : Option String) :
    session.IsContained (session.answer environment line) := by
  cases line with
  | none => exact isContained_done (session.ambience_print _) true
  | some text =>
      have kept : (session.execute environment "<repl>" text).state.ambience = session.ambience :=
        ambience_execute environment "<repl>" text
      simp only [answer]
      split
      · exact isContained_done kept true
      · exact isContained_done kept false
      · exact isContained_done ((ambience_print _ _).trans kept) true
      · rename_i stop notLeft notFailed result_eq
        exact isContained_stopped kept (Stop.cutsShort_of_ne notLeft notFailed)

theorem isContained_converse
    (room : session.HasRoom)
    (lines : List (Option String)) :
    session.IsContained (session.converse environment shown lines) := by
  induction lines generalizing session with
  | nil => exact isContained_invite room
  | cons line lines inductionHypothesis =>
      refine (isContained_invite room).andThen fun invited _ invited_eq => ?_
      refine (isContained_answer invited environment line).andThen
        fun answered goesOn answered_eq => ?_
      cases goesOn with
      | false => exact isContained_done rfl ()
      | true =>
          exact inductionHypothesis (room.of_ambience_eq (answered_eq.trans invited_eq))

/-- The loop lets out neither errors nor the end of the session. -/
theorem isContained_repl
    (room : session.HasRoom)
    (lines : List (Option String)) :
    session.IsContained (session.repl environment shown lines) :=
  (isContained_converse room lines).andThen fun after _ _ =>
    isContained_done (after.ambience_print farewell) ()

/-! ## Starting -/

/-- A session starts with all frames given back. -/
theorem ambience_start
    (environment : Environment)
    (withPrelude : Bool)
    (limit : DepthLimit) :
    (start environment withPrelude limit).ambience = (initial limit).ambience := by
  unfold start
  generalize (if withPrelude then preludeLines else []) = lines
  generalize initial limit = session
  induction lines generalizing session with
  | nil => rfl
  | cons line lines inductionHypothesis =>
      rw [List.foldl_cons, inductionHypothesis]
      exact ambience_execute environment "<prelude>" line

/-- No session refuses a line of the prelude. -/
theorem result_execute_of_mem_preludeLines
    {line : String}
    (present : line ∈ preludeLines)
    (session : Session)
    (environment : Environment)
    (source : String) :
    (session.execute environment source line).result = .ok () := by
  have accepted := PreludeWord.isDefinedBy_preludeLines.imp fun line word defined =>
    And.intro (defined.execute session environment source).1 defined
  exact ((List.forall₂_and_left _ _).mp accepted).1 line present

end Session

namespace CommandLine

variable {settings : Settings} {environment : Session.Environment} {session : Session}

/-! ## Loading -/

/-- Loads what the settings name: the init file, and then the source file after its tokens. -/
def load (settings : Settings) (environment : Session.Environment) (session : Session) :
    Outcome Session Unit :=
  (loadInit settings environment session).andThen fun opened _ =>
    match settings.file with
    | none => .done opened ()
    | some path => runFile settings environment opened path

theorem ambience_loadInit
    (settings : Settings)
    (environment : Session.Environment)
    (session : Session) :
    (loadInit settings environment session).state.ambience = session.ambience := by
  have loaded : (session.loadInit environment settings.init.path?).state.ambience =
      session.ambience := by
    unfold Session.loadInit
    split
    · rfl
    · exact @Session.view_andThen _ Session.ambience _ _ _ _ _
        (Session.ambience_loadFile environment _) fun _ _ _ => rfl
  unfold loadInit
  split
  · rfl
  · exact @Session.view_andThen _ Session.ambience _ _ _ _ _ loaded fun _ _ _ => rfl

theorem ambience_runFile
    (settings : Settings)
    (environment : Session.Environment)
    (session : Session)
    (path : String) :
    (runFile settings environment session path).state.ambience = session.ambience := by
  have listed : (listTokens session environment.files path).state.ambience = session.ambience := by
    unfold listTokens
    split <;> rfl
  unfold runFile
  refine @Session.view_andThen _ Session.ambience _ _ _ _ _ ?_ fun listed _ _ =>
    Session.ambience_loadFile environment path
  split
  · exact listed
  · rfl

/-- Loading gives back all frames, also where it fails or ends the session. -/
theorem ambience_load
    (settings : Settings)
    (environment : Session.Environment)
    (session : Session) :
    (load settings environment session).state.ambience = session.ambience := by
  refine @Session.view_andThen _ Session.ambience _ _ _ _ _
    (ambience_loadInit settings environment session) fun opened _ _ => ?_
  split
  · rfl
  · exact ambience_runFile settings environment opened _

/-! ## Concluding -/

/-- The session after a summary. -/
def summarized (session : Session) : Session :=
  (session.listed .printStack).listed .printWords

/-- A summary is made of listings. -/
theorem summarize_eq (environment : Session.Environment) (session : Session) :
    summarize environment session =
      (session.execute environment "<input>" Primitive.printStack.name).andThen
        fun session _ => session.execute environment "<input>" Primitive.printWords.name := rfl

/-- Where there is room for a frame a summary is not stopped, unless it is cut short. -/
theorem summarize_cases
    (room : session.HasRoom)
    (environment : Session.Environment) :
    summarize environment session = .done (summarized session) () ∨
      ∃ after stop, stop.cutsShort = true ∧
        summarize environment session = .stopped after stop := by
  have later : (session.listed .printStack).HasRoom := room
  have stack := Session.execute_listing_cases .printStack rfl room environment
  have words := Session.execute_listing_cases .printWords rfl later environment
  rw [summarize_eq]
  rcases stack with stack_eq | ⟨after, stop, cut, stack_eq⟩
  · rw [stack_eq, Outcome.andThen_done]
    exact words
  · right
    rw [stack_eq, Outcome.andThen_stopped]
    exact ⟨after, stop, cut, rfl⟩

/-- The summary ends where all values and all words can be written. -/
theorem summarize_of_isListable
    (room : session.HasRoom)
    (steps : 0 < environment.fuel)
    (displayable : ∀ value ∈ session.machine.stack, value.isDisplayable = true)
    (listable : session.dictionary.IsListable) :
    summarize environment session = .done (summarized session) () := by
  have later : (session.listed .printStack).HasRoom := room
  have stackWritten : (Primitive.printStack.effect session.machine.toWorkspace).result =
      .ok [] :=
    Primitive.result_listStack_of_isDisplayable _ displayable
  have wordsWritten :
      (Primitive.printWords.effect (session.listed .printStack).machine.toWorkspace).result =
        .ok [] :=
    (Primitive.result_listWords_eq_ok_iff _).mpr listable
  rw [summarize_eq, Session.execute_listing_of_ok rfl room steps stackWritten,
    Outcome.andThen_done, Session.execute_listing_of_ok rfl later steps wordsWritten]
  rfl

/-- The program goes on to the summary: it left while it was loaded, or its file ended. -/
abbrev SumsUp (settings : Settings) (loaded : Outcome Session Unit) : Prop :=
  loaded.result = .error .leave ∨ loaded.result = .ok () ∧ settings.file.isSome = true

/-- How a program ends that has loaded what its settings name. -/
inductive Course (settings : Settings) (environment : Session.Environment)
    (loaded : Outcome Session Unit) : Outcome Session (Nat × String) → Prop
  | reported
      {failure : Error.Failure}
      (current : String) :
      loaded.result = .error (.failure failure) →
      Course settings environment loaded
        (.done loaded.state (1, failureText current failure))
  | concluded :
      SumsUp settings loaded →
      summarize environment loaded.state = .done (summarized loaded.state) () →
      Course settings environment loaded (.done (summarized loaded.state) (0, ""))
  | conversed
      {after : Session} :
      loaded.result = .ok () →
      settings.file = none →
      Course settings environment loaded (.done after (0, ""))
  | cut
      {after : Session}
      {stop : Stop} :
      stop.cutsShort = true →
      Course settings environment loaded (.stopped after stop)

/-- A program without a loop reports what failed and sums up what did not. -/
theorem course_conclude
    {loaded : Outcome Session Unit}
    (room : loaded.state.HasRoom)
    (filed : loaded.result = .ok () → settings.file.isSome = true)
    (environment : Session.Environment)
    (current : String) :
    Course settings environment loaded (conclude environment current loaded) := by
  have sumsUp : SumsUp settings loaded →
      Course settings environment loaded ((summarize environment loaded.state).andThen
        fun session _ => .done session (0, "")) := by
    intro finished
    rcases summarize_cases room environment with done_eq | ⟨after, stop, cut, stopped_eq⟩
    · rw [done_eq]
      exact .concluded finished done_eq
    · rw [stopped_eq]
      exact .cut cut
  simp only [conclude]
  split
  · rename_i result_eq
    exact sumsUp (.inr ⟨result_eq, filed result_eq⟩)
  · rename_i result_eq
    exact sumsUp (.inl result_eq)
  · rename_i failure result_eq
    exact .reported current result_eq
  · rename_i stop notLeft notFailed result_eq
    exact .cut (Stop.cutsShort_of_ne notLeft notFailed)

/-- A program that converses ends normally, unless it is cut short. -/
theorem course_converse
    {opened : Session}
    (room : opened.HasRoom)
    (file_eq : settings.file = none)
    (environment : Session.Environment)
    (lines : List (Option String)) :
    Course settings environment (.done opened ())
      (let conversed := (opened.print welcome).repl environment true lines
      match conversed.result with
      | .ok () => .done conversed.state (0, "")
      | _ => conclude environment (initName settings) conversed) := by
  have greeted : (opened.print welcome).HasRoom := room
  have contained : (opened.print welcome).IsContained
      ((opened.print welcome).repl environment true lines) :=
    Session.isContained_repl greeted lines
  rcases ((opened.print welcome).repl environment true lines).done_or_stopped with
    ⟨after, _, repl_eq⟩ | ⟨after, stop, repl_eq⟩
  · rw [repl_eq]
    exact .conversed rfl file_eq
  · rw [repl_eq] at contained ⊢
    have cut := contained.cut stop rfl
    cases stop with
    | failure | leave => nomatch cut
    | overlong | embeddedNul | exhausted => exact .cut cut

/-- A program with a source file concludes, and one without converses if it has not left. -/
theorem course_work
    (room : session.HasRoom)
    (settings : Settings)
    (environment : Session.Environment)
    (lines : List (Option String)) :
    Course settings environment (load settings environment session)
      (work settings environment session lines) := by
  have loadedRoom : (load settings environment session).state.HasRoom :=
    room.of_ambience_eq (ambience_load settings environment session)
  have openedRoom : (loadInit settings environment session).state.HasRoom :=
    room.of_ambience_eq (ambience_loadInit settings environment session)
  unfold load at loadedRoom ⊢
  unfold work
  rcases (loadInit settings environment session).done_or_stopped with
    ⟨opened, _, opened_eq⟩ | ⟨opened, stop, opened_eq⟩
  · rw [opened_eq] at openedRoom loadedRoom ⊢
    rw [Outcome.andThen_done] at loadedRoom ⊢
    cases file_eq : settings.file with
    | none =>
        exact course_converse openedRoom file_eq environment lines
    | some path =>
        rw [file_eq] at loadedRoom
        exact course_conclude loadedRoom (fun _ => by rw [file_eq]; rfl) environment path
  · rw [opened_eq, Outcome.andThen_stopped] at loadedRoom ⊢
    exact course_conclude loadedRoom (fun result_eq => nomatch result_eq) environment
      (initName settings)

/-- A program that is not cut short ends with code 1 if its loading failed, and else with 0. -/
theorem Course.exists_eq_done
    {loaded : Outcome Session Unit}
    {worked : Outcome Session (Nat × String)}
    (course : Course settings environment loaded worked)
    (uncut : ∀ after stop, worked = .stopped after stop → stop.cutsShort = false) :
    ∃ after report,
      worked = .done after (if loaded.failure?.isSome then 1 else 0, report) ∧
      (SumsUp settings loaded →
        summarize environment loaded.state = .done (summarized loaded.state) () ∧
          summarized loaded.state = after ∧ "" = report) := by
  cases course with
  | @reported failure current failed_eq =>
      have failed : loaded.failure?.isSome = true := by
        rw [Outcome.failure?, failed_eq]
        rfl
      refine ⟨loaded.state, failureText current failure, by rw [if_pos failed], ?_⟩
      intro finished
      simp [SumsUp, failed_eq] at finished
  | concluded finished summarize_eq =>
      have unfailed : loaded.failure? = none := by
        rcases finished with left_eq | ⟨done_eq, -⟩
        · rw [Outcome.failure?, left_eq]
        · rw [Outcome.failure?, done_eq]
      refine ⟨summarized loaded.state, "", by rw [unfailed]; rfl, ?_⟩
      exact fun _ => ⟨summarize_eq, rfl, rfl⟩
  | @conversed after done_eq file_eq =>
      have unfailed : loaded.failure? = none := by rw [Outcome.failure?, done_eq]
      refine ⟨after, "", by rw [unfailed]; rfl, ?_⟩
      intro finished
      simp [SumsUp, done_eq, file_eq] at finished
  | cut cut =>
      have notCut := uncut _ _ rfl
      rw [cut] at notCut
      cases notCut

/-! ## Running -/

/-- No switch lacks a value that the program needs. -/
def Settings.isComplete (settings : Settings) : Bool :=
  settings.limit.isSome && (settings.noInit || !(settings.init matches .unnamed))

/-- A session is opened where no value is missing, and only there. -/
theorem openSession_cases (settings : Settings) (environment : Session.Environment) :
    (settings.isComplete = true ∧
        ∃ limit, openSession settings environment =
          .ok (.start environment (!settings.noPrelude) limit)) ∨
      settings.isComplete = false ∧
        ∃ value notes, openSession settings environment = .error (value, notes) := by
  unfold Settings.isComplete openSession
  cases settings.limit with
  | none => exact .inr ⟨rfl, .depthLimit, [], rfl⟩
  | some limit =>
      cases settings.noInit with
      | true => exact .inl ⟨rfl, limit, rfl⟩
      | false =>
          cases settings.init with
          | standard | named path => exact .inl ⟨rfl, limit, rfl⟩
          | unnamed => exact .inr ⟨rfl, .initPath, _, rfl⟩

@[simp] theorem shown_empty (settings : Settings) (terminal : Terminal) :
    shown settings terminal "" = some "" := rfl

/-- A console that shows every text shows all that is printed. -/
theorem exists_shown
    {terminal : Terminal}
    (total : ∀ text, (terminal.strip text).isSome = true)
    (settings : Settings)
    (text : String) :
    ∃ output, shown settings terminal text = some output := by
  unfold shown
  split
  · exact Option.isSome_iff_exists.mp (total text)
  · exact ⟨text, rfl⟩

section Presenting

variable {terminal : Terminal} {after : Session} {worked : Outcome Session (Nat × String)}

/-- What is presented of work that ended is shown, with its code. -/
theorem present_done
    {code : Nat}
    {report : String}
    (displayed : (present settings terminal (.done after (code, report))).ending ≠
      .error .unshown) :
    ∃ output errors,
      shown settings terminal after.machine.output = some output ∧
      shown settings terminal report = some errors ∧
      present settings terminal (.done after (code, report)) =
        ⟨.ok code, output, logText settings after.notes ++ errors⟩ := by
  simp only [present, Outcome.done] at displayed ⊢
  cases output_eq : shown settings terminal after.machine.output with
  | none => simp [output_eq] at displayed
  | some output =>
      cases report_eq : shown settings terminal report with
      | none => simp [output_eq, report_eq] at displayed
      | some errors => exact ⟨output, errors, rfl, rfl, rfl⟩

/-- What is presented of work that stopped is the stop. -/
theorem ending_present_stopped
    {stop : Stop}
    (displayed : (present settings terminal (.stopped after stop)).ending ≠ .error .unshown) :
    (present settings terminal (.stopped after stop)).ending = .error (.stopped stop) := by
  simp only [present, Outcome.stopped] at displayed ⊢
  cases output_eq : shown settings terminal after.machine.output with
  | none => simp [output_eq] at displayed
  | some output => rfl

end Presenting

section Running

variable {arguments : List String} {terminal : Terminal} {after : Session}

/-- With a session a run is what is presented of the work. -/
theorem run_of_openSession
    (parse_eq : Settings.parse arguments = .ok settings)
    (open_eq : openSession settings environment = .ok session) :
    run arguments environment terminal =
      present settings terminal (work settings environment session terminal.lines) := by
  simp only [run, parse_eq, open_eq]

/-- A program that leaves while the init file is loaded ends normally after the summary. -/
theorem ending_run_of_left
    {left : Session}
    (total : ∀ text, (terminal.strip text).isSome = true)
    (parse_eq : Settings.parse arguments = .ok settings)
    (open_eq : openSession settings environment = .ok session)
    (init_eq : loadInit settings environment session = .stopped left .leave)
    (summary : summarize environment left = .done (summarized left) ()) :
    (run arguments environment terminal).ending = .ok 0 := by
  have work_eq : work settings environment session terminal.lines =
      .done (summarized left) (0, "") := by
    unfold work
    rw [init_eq]
    change (summarize environment left).andThen (fun session _ => .done session (0, "")) = _
    rw [summary]
    rfl
  obtain ⟨output, output_eq⟩ := exists_shown total settings (summarized left).machine.output
  rw [run_of_openSession parse_eq open_eq, work_eq]
  simp only [present, Outcome.done, output_eq, shown_empty]

end Running

/--
Where no value is missing, nothing is cut short and the console shows what is printed, neither
errors nor the end of the session escape the program.  The prelude is accepted by every
session.  The exit code is 1
if the init file, the listing of the tokens or the source file fails, and 0 otherwise.
After a source file that ends and after a program that leaves while it is loaded, all frames
were given back, and the summary prints what the primitives list of the state that was left,
changes nothing else and does not fail.
-/
theorem run_contains_errors
    {arguments : List String}
    {settings : Settings}
    {environment : Session.Environment}
    {terminal : Terminal}
    (parse_eq : Settings.parse arguments = .ok settings)
    (complete : settings.isComplete = true)
    (ended : ∀ stop,
      (run arguments environment terminal).ending = .error (.stopped stop) →
      stop.cutsShort = false)
    (displayed : (run arguments environment terminal).ending ≠ .error .unshown) :
    ∃ session, openSession settings environment = .ok session ∧
      (∀ line ∈ Session.preludeLines, ∀ fresh : Session,
        (fresh.execute environment "<prelude>" line).result = .ok ()) ∧
      let loaded := load settings environment session
      let result := run arguments environment terminal
      result.ending = .ok (if loaded.failure?.isSome then 1 else 0) ∧
      (loaded.result = .error .leave ∨ loaded.result = .ok () ∧ settings.file.isSome = true →
        loaded.state.machine.calls = .empty ∧
        summarize environment loaded.state = .done (summarized loaded.state) () ∧
        shown settings terminal (summarized loaded.state).machine.output = some result.output ∧
        result.errors = logText settings (summarized loaded.state).notes) := by
  have opens : ∃ limit, openSession settings environment =
      .ok (.start environment (!settings.noPrelude) limit) := by
    rcases openSession_cases settings environment with ⟨-, opened⟩ | ⟨incomplete, -⟩
    · exact opened
    · rw [complete] at incomplete
      cases incomplete
  obtain ⟨limit, open_eq⟩ := opens
  have start_eq := Session.ambience_start environment (!settings.noPrelude) limit
  generalize Session.start environment (!settings.noPrelude) limit = session at open_eq start_eq
  have initially : (Session.initial limit).HasRoom := limit.positive
  have room : session.HasRoom := initially.of_ambience_eq start_eq
  have accepted : ∀ line ∈ Session.preludeLines, ∀ fresh : Session,
      (fresh.execute environment "<prelude>" line).result = .ok () := by
    intro line present fresh
    exact Session.result_execute_of_mem_preludeLines present fresh environment "<prelude>"
  have calls_eq : (load settings environment session).state.machine.calls = .empty :=
    congrArg Session.Ambience.calls
      ((ambience_load settings environment session).trans start_eq)
  have run_eq : run arguments environment terminal = _ := run_of_openSession parse_eq open_eq
  rw [run_eq] at ended displayed ⊢
  have course := course_work room settings environment terminal.lines
  have uncut : ∀ after stop,
      work settings environment session terminal.lines = .stopped after stop →
      stop.cutsShort = false := by
    intro after stop work_eq
    rw [work_eq] at ended displayed
    exact ended stop (ending_present_stopped displayed)
  obtain ⟨after, report, work_eq, summary⟩ := course.exists_eq_done uncut
  rw [work_eq] at displayed ⊢
  obtain ⟨output, errors, output_eq, errors_eq, present_eq⟩ := present_done displayed
  rw [present_eq]
  refine ⟨session, open_eq, accepted, rfl, fun finished => ?_⟩
  obtain ⟨summarize_eq, rfl, rfl⟩ := summary finished
  obtain rfl := Option.some.inj (errors_eq.symm.trans (shown_empty settings terminal))
  exact ⟨calls_eq, summarize_eq, output_eq, String.append_empty⟩

/--
The init file includes a file that defines a word and calls it, and the word ends the
session within two frames, with only two allowed.  The stack is summed up with what it held.
-/
theorem run_contains_errors_departure :
    let files := ((Files.Tree.empty []).put "outer" (.file ":include inner 1".toUTF8)).put "inner"
      (.file ": deep [ 5 bye 6 ] call 3 ; deep 4".toUTF8)
    let environment : Session.Environment := ⟨files, 20⟩
    let arguments := ["--init", "outer", "--max-depth=2"]
    let terminal : Terminal := ⟨[some "7"], false, fun text => some (Console.strip text)⟩
    let result := run arguments environment terminal
    ∃ settings session,
      Settings.parse arguments = .ok settings ∧
      settings.isComplete = true ∧
      (∀ stop, result.ending = .error (.stopped stop) → stop.cutsShort = false) ∧
      result.ending ≠ .error .unshown ∧
      openSession settings environment = .ok session ∧
      let loaded := load settings environment session
      loaded.result = .error .leave ∧
      (loaded.state.machine.stack matches [.int 5]) = true ∧
      result.ending = .ok 0 ∧
      loaded.state.machine.calls = .empty ∧
      summarize environment loaded.state = .done (summarized loaded.state) () ∧
      shown settings terminal (summarized loaded.state).machine.output =
        some result.output := by
  intro files environment arguments terminal result
  have checked :
      ((Settings.parse arguments).toOption.bind fun settings =>
        (openSession settings environment).toOption.bind fun session =>
          (loadInit settings environment session).left?.map fun left =>
            settings.isComplete && (left.machine.stack matches [.int 5]) &&
              left.machine.stack.all Value.isDisplayable &&
              left.dictionary.entries.all Entry.isDisplayable &&
              decide (left.machine.calls.depth < left.machine.limit.value)) = some true := by
    decide +kernel
  obtain ⟨settings, parsed_eq, checked⟩ := Option.bind_eq_some_iff.mp checked
  obtain ⟨session, opened_eq, checked⟩ := Option.bind_eq_some_iff.mp checked
  obtain ⟨left, left_eq, checked⟩ := Option.map_eq_some_iff.mp checked
  have parse_eq := eq_ok_of_toOption parsed_eq
  have open_eq := eq_ok_of_toOption opened_eq
  have init_eq := Outcome.left?_eq_some_iff.mp left_eq
  simp only [Bool.and_eq_true, List.all_eq_true, decide_eq_true_eq] at checked
  obtain ⟨⟨⟨⟨complete, pushed⟩, displayable⟩, listable⟩, room⟩ := checked
  have steps : 0 < environment.fuel := Nat.succ_pos 19
  have summary := summarize_of_isListable room steps displayable listable
  have ending_eq : result.ending = .ok 0 :=
    ending_run_of_left (fun _ => rfl) parse_eq open_eq init_eq summary
  have ended : ∀ stop, result.ending = .error (.stopped stop) → stop.cutsShort = false := by
    intro stop stopped_eq
    rw [ending_eq] at stopped_eq
    cases stopped_eq
  have displayed : result.ending ≠ .error .unshown := by
    rw [ending_eq]
    simp
  have load_eq : load settings environment session = .stopped left .leave := by
    unfold load
    rw [init_eq]
    rfl
  obtain ⟨other, other_eq, -, -, summed⟩ := run_contains_errors parse_eq complete ended displayed
  obtain rfl := Except.ok.inj (open_eq.symm.trans other_eq)
  rw [load_eq] at summed
  have general := summed (.inl rfl)
  refine ⟨settings, session, parse_eq, complete, ended, displayed, open_eq, ?_⟩
  rw [load_eq]
  exact ⟨rfl, pushed, ending_eq, general.1, general.2.1, general.2.2.1⟩

/-- The command line is accepted, and the run breaks down for want of a value. -/
def BreaksDown
    (arguments : List String)
    (environment : Session.Environment)
    (terminal : Terminal) : Prop :=
  ∃ settings value,
    Settings.parse arguments = .ok settings ∧
      (run arguments environment terminal).ending = .error (.missingValue value)

/-- A run breaks down wherever a value is missing that the program needs. -/
theorem breaksDown_of_incomplete
    {arguments : List String}
    (parse_eq : Settings.parse arguments = .ok settings)
    (incomplete : settings.isComplete = false)
    (environment : Session.Environment)
    (terminal : Terminal) :
    BreaksDown arguments environment terminal := by
  have refused : ∃ value notes, openSession settings environment = .error (value, notes) := by
    rcases openSession_cases settings environment with ⟨complete, -⟩ | ⟨-, refused⟩
    · rw [incomplete] at complete
      cases complete
    · exact refused
  obtain ⟨value, notes, open_eq⟩ := refused
  refine ⟨settings, value, parse_eq, ?_⟩
  simp only [run, parse_eq, open_eq]

/--
A double dash leaves the limit on calls or the path of the init file without a value, and a
file that includes a path with a NUL character is not answered for.
-/
theorem breaksDown_double_dash :
    let files := ((Files.Tree.empty []).put "prog.qf" (.file "1".toUTF8)).put "nul.qf"
      (.file ":include \"a\x00b\"".toUTF8)
    let environment : Session.Environment := ⟨files, 20⟩
    let terminal : Terminal := ⟨[], false, fun text => some (Console.strip text)⟩
    BreaksDown ["--max-depth=--", "--no-prelude", "prog.qf"] environment terminal ∧
      BreaksDown ["--init=--", "--no-prelude", "prog.qf"] environment terminal ∧
      (Settings.parse ["--no-prelude", "nul.qf"]).toOption.isSome = true ∧
      ((run ["--no-prelude", "nul.qf"] environment terminal).ending matches
        .error (.stopped .embeddedNul)) = true := by
  intro files environment terminal
  have breaks : ∀ {arguments : List String},
      (Settings.parse arguments).toOption.map Settings.isComplete = some false →
      BreaksDown arguments environment terminal := by
    intro arguments parsed
    obtain ⟨settings, parsed_eq, incomplete⟩ := Option.map_eq_some_iff.mp parsed
    exact breaksDown_of_incomplete (eq_ok_of_toOption parsed_eq) incomplete environment _
  exact ⟨breaks (by decide +kernel), breaks (by decide +kernel), by decide +kernel,
    by decide +kernel⟩

end CommandLine
end Concatenative
