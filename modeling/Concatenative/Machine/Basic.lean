import Concatenative.Machine.CallStack
import Concatenative.Machine.DepthLimit
import Concatenative.Machine.Effect

/-!
# The machine

The machine runs bodies without recursion: each body being run has a frame, and each
step takes the next value of the innermost frame.  A frame is dropped as soon as its
last value is taken, so that calls in tail position do not nest, and the number of
frames is limited.

A run opens a frame above those that are there and ends when all frames above them are
gone.  It may go on for ever, so it is given the number of steps that it may take.
-/

namespace Concatenative

/-- A workspace and the bodies being run on it. -/
structure Machine extends Workspace where
  calls : CallStack
  limit : DepthLimit

namespace Workspace

/-- Executes a reference: a primitive has its effect, a compiled word hands its body over. -/
def invoke (workspace : Workspace) (reference : WordRef) : Reaction :=
  match workspace.dictionary.entry? reference.id with
  | none => .failed workspace (.unknownWord reference.name)
  | some (.primitive primitive) => primitive.effect workspace
  | some (.compiled _ word) =>
      match word.body? reference.layer with
      | none => .failed workspace (.neverDefined reference.name)
      | some body => .done workspace body

/-- Executes a value: references are invoked, and all else is pushed. -/
def react (workspace : Workspace) : Value → Reaction
  | .wordRef reference => workspace.invoke reference
  | value => (workspace.push value).settled

end Workspace

namespace Machine

/-- A machine with an empty stack and the primitives only. -/
def initial (limit : DepthLimit) : Machine where
  stack := []
  dictionary := .initial
  output := ""
  calls := .empty
  limit := limit

/-- Opens a frame for a body that is not empty. -/
def enter (machine : Machine) (body : Body) : Outcome Machine Unit :=
  if body.isEmpty then .done machine ()
  else if machine.limit.value ≤ machine.calls.depth then
    .failed machine (.depthExceeded machine.limit.value)
  else .done { machine with calls := machine.calls.push (.ofBody body) } ()

/-- Executes a value and opens a frame for the body it hands over. -/
def execute (machine : Machine) (value : Value) : Outcome Machine Unit :=
  let reaction := machine.toWorkspace.react value
  (reaction.mapState fun workspace => { machine with toWorkspace := workspace }).andThen enter

/-- Takes the next value and executes it. -/
def step (machine : Machine) : Outcome Machine Unit :=
  match machine.calls.take? with
  | none => .done machine ()
  | some (value, calls) => { machine with calls }.execute value

/-- Steps until no more than `base` frames are left. -/
def runAbove (base : Nat) (fuel : Nat) (machine : Machine) : Outcome Machine Unit :=
  if machine.calls.depth ≤ base then .done machine ()
  else
    match fuel with
    | 0 => .stopped machine .exhausted
    | fuel + 1 => machine.step.andThen fun machine _ => runAbove base fuel machine

/-- Runs a body, in at most the given number of steps, above the frames that are there. -/
def run (fuel : Nat) (machine : Machine) (body : Body) : Outcome Machine Unit :=
  let base := machine.calls.depth
  let outcome := (machine.enter body).andThen fun machine _ => machine.runAbove base fuel
  outcome.mapState fun machine => { machine with calls := machine.calls.truncate base }

/-- Runs a single value. -/
def dispatch (fuel : Nat) (machine : Machine) (value : Value) : Outcome Machine Unit :=
  machine.run fuel [value]

end Machine
end Concatenative
