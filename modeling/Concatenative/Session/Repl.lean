import Concatenative.Session.Loader

/-!
# The interactive loop

The loop shows the stack, asks for a line, and loads it.  A line that fails is reported
and the loop goes on; it ends with the session or with the input.
-/

namespace Concatenative
namespace Session

/-- What is printed in front of each line of input. -/
def prompt : String :=
  Text.Color.white.paint ">> "

/-- The last words of the loop. -/
def farewell : String :=
  "\nSee you soon !\n\n"

/-- Prints the report of a failure. -/
def printFailure (session : Session) (failure : Error.Failure) : Session :=
  session.print (failure.report.line ++ "\n")

/-- Shows the stack, if that is asked for. -/
def showStack (session : Session) (environment : Environment) (shown : Bool) :
    Outcome Session Unit :=
  if shown then (session.print "\n").execute environment "<input>" "stack"
  else .done session ()

/--
Loads a line of input, where `none` is a line that the user interrupted, and tells
whether the loop goes on.
-/
def answer (session : Session) (environment : Environment) (line : Option String) :
    Outcome Session Bool :=
  match line with
  | none => .done (session.printFailure { cause := .interrupted }) true
  | some text =>
      let outcome := session.execute environment "<repl>" text
      match outcome.result with
      | .ok () => .done outcome.state true
      | .error .leave => .done outcome.state false
      | .error (.failure failure) => .done (outcome.state.printFailure failure) true
      | .error stop => .stopped outcome.state stop

/-- Shows the stack and the prompt for a line. -/
def invite (session : Session) (environment : Environment) (shown : Bool) :
    Outcome Session Unit :=
  (session.showStack environment shown).andThen fun session _ =>
    .done (session.print prompt) ()

/-- Loads lines of input until the last one, or until one ends the session. -/
def converse (session : Session) (environment : Environment) (shown : Bool) :
    List (Option String) → Outcome Session Unit
  | [] => session.invite environment shown
  | line :: lines =>
      (session.invite environment shown).andThen fun session _ =>
        (session.answer environment line).andThen fun session goesOn =>
          if goesOn then session.converse environment shown lines else .done session ()

/-- The whole loop on given lines of input. -/
def repl (session : Session) (environment : Environment) (shown : Bool)
    (lines : List (Option String)) : Outcome Session Unit :=
  (session.converse environment shown lines).andThen fun session _ =>
    .done (session.print farewell) ()

end Session
end Concatenative
