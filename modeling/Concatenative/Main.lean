import Concatenative.CommandLine.Console
import Concatenative.CommandLine.Run
import Concatenative.CommandLine.Snapshot

/-!
# The program

Reads the files and the lines that a run needs, and writes what it prints.
-/

namespace Concatenative
namespace CommandLine

/-- The number of steps allowed to each value that is run. -/
def patience : Nat :=
  Nat.pow 2 62

/-- What the disk has at a path. -/
def lookAt (path : String) : IO (Option Files.Node) := do
  let place := (← IO.currentDir) / path
  if ← place.isDir then
    return some .directory
  else if ← place.pathExists then
    return some (.file (← IO.FS.readBinFile place))
  else
    return none

/-- The tree with what the disk has at a path and on the way to it. -/
def visit (tree : Files.Tree) (path : String) : IO Files.Tree :=
  (pathsOnTheWay path).foldlM
    (fun tree place => do
      match ← lookAt place with
      | some node => return tree.put place node
      | none => return tree)
    tree

/-- The tree with what the disk has at paths, and at those that they include. -/
partial def snapshot (tree : Files.Tree) : List String → IO Files.Tree
  | [] => return tree
  | path :: rest => do
      if tree.isFile path then
        snapshot tree rest
      else
        let tree ← visit tree path
        match Session.readFile tree path with
        | .ok tokens => snapshot tree (openedPaths path tokens ++ rest)
        | .error _ => snapshot tree rest

/-- The terminal that the program is run on, but for the lines of input. -/
def liveTerminal (isScreen : Bool) : Terminal :=
  ⟨[], isScreen, fun text => some (Console.strip text)⟩

/-- How a text is written: nothing is written of one that cannot be shown. -/
def shownLive (settings : Settings) (isScreen : Bool) (text : String) : String :=
  (shown settings (liveTerminal isScreen) text).getD ""

/-- Writes what a session printed and noted, and forgets it. -/
def publish (settings : Settings) (isScreen : Bool) (session : Session) : IO Session := do
  let errors ← IO.getStderr
  errors.putStr (logText settings session.notes)
  let (output, session) := session.takeOutput
  let screen ← IO.getStdout
  screen.putStr (shownLive settings isScreen output)
  screen.flush
  return { session with notes := [] }

/-- Reads a line of input without its line end, or nothing at the end of the input. -/
def readLine : IO (Option String) := do
  let line ← (← IO.getStdin).getLine
  if line.isEmpty then
    return none
  else
    return some (line.dropEndWhile (· == '\n')).toString

/-- Converses until the input ends or the session does. -/
partial def converseLive (settings : Settings) (environment : Session.Environment)
    (isScreen : Bool) (session : Session) : IO (Outcome Session Unit) := do
  let invited := session.invite environment true
  let session ← publish settings isScreen invited.state
  match invited.result, ← readLine with
  | .ok (), some line =>
      let known := (Lexer.tokens line).toOption.getD []
      let files ← snapshot environment.files (openedPaths "" known)
      let environment := { environment with files }
      let answered := session.answer environment (some line)
      let session ← publish settings isScreen answered.state
      match answered.result with
      | .ok true => converseLive settings environment isScreen session
      | .ok false => return .done (session.print Session.farewell) ()
      | .error stop => return .stopped session stop
  | .ok (), none => return .done (session.print Session.farewell) ()
  | .error stop, _ => return .stopped session stop

/-- Writes the report of a run and gives its exit code. -/
def close (settings : Settings) (isScreen : Bool) (outcome : Outcome Session (Nat × String)) :
    IO UInt32 := do
  let _ ← publish settings isScreen outcome.state
  match outcome.result with
  | .ok (code, report) =>
      (← IO.getStderr).putStr (shownLive settings isScreen report)
      return UInt32.ofNat code
  | .error (.overlong excess) =>
      (← IO.getStderr).putStrLn excess.message
      return 1
  | .error .embeddedNul =>
      (← IO.getStderr).putStrLn Stop.embeddedNulMessage
      return 1
  | .error _ => return 1

/-- Works on the disk and the terminal. -/
def workLive (settings : Settings) (environment : Session.Environment) (session : Session) :
    IO UInt32 := do
  let isScreen ← (← IO.getStdout).isTty
  if settings.file.isSome then
    close settings isScreen (work settings environment session [])
  else
    let opened := loadInit settings environment session
    match opened.result with
    | .ok () =>
        let session ← publish settings isScreen (opened.state.print welcome)
        let conversed ← converseLive settings environment isScreen session
        close settings isScreen
          (match conversed.result with
          | .ok () => .done conversed.state (0, "")
          | .error _ => conclude environment (initName settings) conversed)
    | .error _ =>
        close settings isScreen (conclude environment (initName settings) opened)

/-- Runs the program on the disk and the terminal. -/
def runLive (settings : Settings) : IO UInt32 := do
  let home := Files.Path.locate [] (← IO.currentDir).toString
  let files ← snapshot (.empty home) (startingPaths settings)
  let environment : Session.Environment := ⟨files, patience⟩
  match openSession settings environment with
  | .error (value, notes) =>
      (← IO.getStderr).putStr (logText settings notes ++ value.message ++ "\n")
      return 1
  | .ok session => workLive settings environment session

end CommandLine
end Concatenative

open Concatenative in
/-- Runs the program with the arguments of the command line. -/
def main (arguments : List String) : IO UInt32 := do
  match CommandLine.Settings.parse arguments with
  | .error .help =>
      IO.print CommandLine.helpText
      return 0
  | .error (.misuse reason) =>
      (← IO.getStderr).putStr (CommandLine.misuseText reason)
      return 2
  | .ok settings => CommandLine.runLive settings
