import Concatenative.CommandLine.Settings
import Concatenative.Session.Repl
import Concatenative.Session.Start

/-!
# Running the command line

The program loads the init file, then either loads a source file and lists the stack
and the dictionary, or starts the interactive loop.  An error of the language is
reported and ends the program with code 1.
-/

namespace Concatenative
namespace CommandLine

/-- What the program is run on. -/
structure Terminal where
  /-- The lines of input, where `none` is one that the user interrupted. -/
  lines : List (Option String)
  /-- Whether the output is shown on a screen with colours. -/
  isScreen : Bool
  /--
  What the console shows of a text that is to have no colours, if it can show it.  The
  program leaves the colours to the console and relies on no more than an answer.
  -/
  strip : String → Option String

/-- A switch that was given without its value, in a run that needs the value. -/
inductive MissingValue where
  | initPath
  | depthLimit
  deriving DecidableEq

/-- What is said about a missing value. -/
def MissingValue.message : MissingValue → String
  | .initPath => "expected str, bytes or os.PathLike object, not list"
  | .depthLimit => "\x27<\x27 not supported between instances of \x27list\x27 and \x27int\x27"

/-- What ends a run without an exit code. -/
inductive Breakdown where
  /-- The session stopped for a reason that the program does not handle. -/
  | stopped (stop : Stop)
  | missingValue (value : MissingValue)
  /-- The console could not show a text. -/
  | unshown

/-- What a run of the program leaves behind. -/
structure Result where
  /-- The exit code, unless the run broke down. -/
  ending : Except Breakdown Nat
  output : String
  errors : String

/-- The greeting of the interactive loop. -/
def welcome : String :=
  "Welcome to " ++ Text.Color.white.paint programName ++ ". Type "
    ++ Text.Color.yellow.paint "words" ++ " for available words, "
    ++ Text.Color.yellow.paint "bye" ++ " to leave.\n"

/-- The line of a token in the listing of the tokens. -/
def tokenLine (token : Token) : String :=
  let kind := token.kind.label
  let padding := String.ofList (List.replicate (10 - kind.length) ' ')
  Text.Color.gray.paint ("token " ++ kind ++ padding) ++ " " ++ token.text ++ "\n"

/-- Lists the tokens of a file. -/
def listTokens (session : Session) (files : Files.Tree) (path : String) : Outcome Session Unit :=
  match Session.readFile files path with
  | .error stop => .stopped session stop
  | .ok tokens => .done (session.print (String.join (tokens.map tokenLine))) ()

/-- Loads the init file, unless none is wanted. -/
def loadInit (settings : Settings) (environment : Session.Environment) (session : Session) :
    Outcome Session Unit :=
  if settings.noInit then .done session ()
  else
    (session.loadInit environment settings.init.path?).andThen fun session _ => .done session ()

/-- Loads a source file, after listing its tokens if that is wanted. -/
def runFile (settings : Settings) (environment : Session.Environment) (session : Session)
    (path : String) : Outcome Session Unit :=
  let listed :=
    if settings.tokens then listTokens session environment.files path else .done session ()
  listed.andThen fun session _ => session.loadFile environment path

/-- Lists the stack and the dictionary. -/
def summarize (environment : Session.Environment) (session : Session) : Outcome Session Unit :=
  (session.execute environment "<input>" "stack").andThen fun session _ =>
    session.execute environment "<input>" "words"

/-- The lines of the log for notes that are given newest first, if a log is wanted. -/
def logText (settings : Settings) (notes : List Session.Note) : String :=
  if settings.debug then String.join (notes.reverse.map fun note => note.line ++ "\n") else ""

/-- What is told about a failure on a source. -/
def failureText (current : String) (failure : Error.Failure) : String :=
  "Error encountered while processing " ++ Error.Cause.cite current ++ "\n"
    ++ failure.report.full ++ "\n"

/--
How texts are shown, if they can be: without colours unless they go to a screen and are
wanted.  The console is given no empty text.
-/
def shown (settings : Settings) (terminal : Terminal) (text : String) : Option String :=
  if !text.isEmpty && (settings.noColor || !terminal.isScreen) then terminal.strip text
  else some text

/--
Ends the program after the work on a source: with a summary if the work ended or the
program left, and with a report if it failed.
-/
def conclude (environment : Session.Environment) (current : String)
    (outcome : Outcome Session Unit) : Outcome Session (Nat × String) :=
  let summary (session : Session) : Outcome Session (Nat × String) :=
    (summarize environment session).andThen fun session _ => .done session (0, "")
  match outcome.result with
  | .ok () => summary outcome.state
  | .error .leave => summary outcome.state
  | .error (.failure failure) => .done outcome.state (1, failureText current failure)
  | .error stop => .stopped outcome.state stop

/-- The name of the init file in reports: an empty one counts as not given. -/
def initName (settings : Settings) : String :=
  (settings.init.path?.filter fun path => !path.isEmpty).getD Session.initFile

/-- Works as the settings say, up to the exit code and the report of a failure. -/
def work (settings : Settings) (environment : Session.Environment) (session : Session)
    (lines : List (Option String)) : Outcome Session (Nat × String) :=
  let opened := loadInit settings environment session
  match opened.result, settings.file with
  | .ok (), none =>
      let greeted := opened.state.print welcome
      let conversed := greeted.repl environment true lines
      match conversed.result with
      | .ok () => .done conversed.state (0, "")
      | _ => conclude environment (initName settings) conversed
  | .ok (), some path => conclude environment path (runFile settings environment opened.state path)
  | _, _ => conclude environment (initName settings) opened

/-- What is told about a command line that is wrong. -/
def misuseText (reason : String) : String :=
  usage ++ programName ++ ": error: " ++ reason ++ "\n"

/--
A new session as the settings ask for it.  It breaks down if a value is missing that is
needed: the limit on calls always is, and the path of the init file unless none is
wanted.
-/
def openSession (settings : Settings) (environment : Session.Environment) :
    Except (MissingValue × List Session.Note) Session :=
  match settings.limit with
  | none => .error (.depthLimit, [])
  | some limit =>
      let session := Session.start environment (!settings.noPrelude) limit
      match settings.noInit, settings.init with
      | false, .unnamed => .error (.initPath, (session.note (.loadingFile "[]")).notes)
      | _, _ => .ok session

/-- What the work of the program leaves behind on a terminal. -/
def present (settings : Settings) (terminal : Terminal)
    (worked : Outcome Session (Nat × String)) : Result :=
  let log := logText settings worked.state.notes
  match shown settings terminal worked.state.machine.output with
  | none => ⟨.error .unshown, "", log⟩
  | some output =>
      match worked.result with
      | .error stop => ⟨.error (.stopped stop), output, log⟩
      | .ok (code, report) =>
          match shown settings terminal report with
          | none => ⟨.error .unshown, output, log⟩
          | some report => ⟨.ok code, output, log ++ report⟩

/-- Runs the program with the given arguments. -/
def run (arguments : List String) (environment : Session.Environment) (terminal : Terminal) :
    Result :=
  match Settings.parse arguments with
  | .error .help => ⟨.ok 0, helpText, ""⟩
  | .error (.misuse reason) => ⟨.ok 2, "", misuseText reason⟩
  | .ok settings =>
      match openSession settings environment with
      | .error (value, notes) => ⟨.error (.missingValue value), "", logText settings notes⟩
      | .ok session =>
          present settings terminal (work settings environment session terminal.lines)

end CommandLine
end Concatenative
