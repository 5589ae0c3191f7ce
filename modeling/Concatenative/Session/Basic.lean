import Concatenative.Files.Path
import Concatenative.Machine.Basic
import Concatenative.Session.Note

/-!
# Sessions

A machine, with what is being loaded into it.
-/

namespace Concatenative

/-- A machine with the sources being loaded. -/
structure Session where
  machine : Machine
  /-- The name of the source being loaded. -/
  source : Option String
  /-- The addresses of the files being loaded, innermost first. -/
  loading : List Files.Address
  /-- The notes taken so far, newest first. -/
  notes : List Session.Note

namespace Session

/-- A session that loads nothing, on a new machine. -/
def initial (limit : DepthLimit) : Session where
  machine := .initial limit
  source := none
  loading := []
  notes := []

/-- The words and variables of a session. -/
def dictionary (session : Session) : Dictionary :=
  session.machine.dictionary

/-- The session with another dictionary. -/
def withDictionary (session : Session) (dictionary : Dictionary) : Session :=
  { session with machine := { session.machine with dictionary } }

/-- Takes a note. -/
def note (session : Session) (note : Note) : Session :=
  { session with notes := note :: session.notes }

/-- Prints a text as it stands. -/
def print (session : Session) (text : String) : Session :=
  let machine := session.machine
  { session with machine := { machine with output := machine.output ++ text } }

/-- Carries out an operation of the machine. -/
@[inline] def onMachine {α : Type} (session : Session) (operation : Machine → Outcome Machine α) :
    Outcome Session α :=
  (operation session.machine).mapState fun machine => { session with machine }

/-- The text printed so far, and the session with nothing printed. -/
def takeOutput (session : Session) : String × Session :=
  let machine := session.machine
  (machine.output, { session with machine := { machine with output := "" } })

end Session
end Concatenative
