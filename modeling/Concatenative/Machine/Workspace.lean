import Concatenative.Dictionary.Basic
import Concatenative.Machine.Operands
import Concatenative.Outcome

/-!
# The workspace

The part of the machine that primitives see and change: the operand stack, the
dictionary with its variables, and the text printed so far.
-/

namespace Concatenative

/-- What primitives work on. -/
structure Workspace where
  /-- The operand stack, top first. -/
  stack : List Value
  dictionary : Dictionary
  /-- The text printed so far. -/
  output : String

/--
What executing a value leads to: a changed workspace, and a body to be run next, which
is empty for everything but calls.
-/
abbrev Reaction := Outcome Workspace Body

namespace Workspace

/-- Puts a value on the stack. -/
def push (workspace : Workspace) (value : Value) : Workspace :=
  { workspace with stack := value :: workspace.stack }

/-- Prints a line. -/
def printLine (workspace : Workspace) (line : String) : Workspace :=
  { workspace with output := workspace.output ++ line ++ "\n" }

/-- Nothing is left to be run. -/
def settled (workspace : Workspace) : Reaction :=
  .done workspace []

/-- Takes operands off the stack and goes on with them, or fails and leaves all as it was. -/
def withOperands (workspace : Workspace) (specs : List Value.Spec) (uniform : Bool)
    (next : Workspace → List Value → Reaction) : Reaction :=
  match Operands.pop specs uniform workspace.stack with
  | .error cause => .failed workspace cause
  | .ok (operands, rest) => next { workspace with stack := rest } operands

/--
Prints a line for each of the items in order, up to the first whose line would hold a
numeral over the limit.
-/
def printEach {α : Type} (isWritable : α → Bool) (line : α → String) :
    List α → Workspace → Reaction
  | [], workspace => workspace.settled
  | item :: rest, workspace =>
      if isWritable item then printEach isWritable line rest (workspace.printLine (line item))
      else .stopped workspace (.overlong .write)

end Workspace
end Concatenative
