import Concatenative.Error.Cause

/-!
# Operands

Operands are taken from the top of the stack, and only after all of them are checked:
first that there are enough, then each against its specification from the top down,
and last, where that is asked, that all are of one kind.  Stacks are lists with the top
first.
-/

namespace Concatenative
namespace Operands

open Error (Cause)

/-- Asks for a number of values on the stack. -/
def require (needed : Nat) (stack : List Value) : Except Cause Unit :=
  if stack.length < needed then .error (.underflow needed stack.length) else .ok ()

/-- The value at a distance from the top. -/
def peek (distance : Nat) (stack : List Value) : Except Cause Value :=
  match stack[distance]? with
  | some value => .ok value
  | none => .error (.underflow (distance + 1) stack.length)

/-- Asks for a value to meet a specification. -/
def check (expected : Value.Spec) (value : Value) : Except Cause Unit :=
  if expected.admits value then .ok () else .error (.mismatch expected value)

/-- Checks values against specifications, from the first on. -/
def checkEach : List Value.Spec → List Value → Except Cause Unit
  | expected :: specs, value :: values =>
      if expected.admits value then checkEach specs values else .error (.mismatch expected value)
  | _, _ => .ok ()

/-- Whether all values are of the kind of the first one. -/
def areUniform : List Value → Bool
  | [] => true
  | first :: rest => rest.all fun value => value.kind == first.kind

/--
The operands that meet the specifications, top first, and the stack below them.  With
`uniform`, all of them have to be of one kind.
-/
def pop (specs : List Value.Spec) (uniform : Bool) (stack : List Value) :
    Except Cause (List Value × List Value) :=
  let operands := stack.take specs.length
  if operands.length < specs.length then .error (.underflow specs.length stack.length)
  else
    match checkEach specs operands with
    | .error cause => .error cause
    | .ok () =>
        if uniform && !areUniform operands then .error (.mixedKinds operands)
        else .ok (operands, stack.drop specs.length)

end Operands
end Concatenative
