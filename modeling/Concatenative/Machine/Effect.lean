import Concatenative.Machine.Division
import Concatenative.Machine.Workspace

/-!
# The effects of the primitives

Each primitive changes the workspace and settles, or fails.  The two that call a
quotation take their operands and hand its content over to be run next.
-/

namespace Concatenative
namespace Primitive

open Value (Spec)

/-! ## Families of primitives -/

/-- A primitive on two integers, given bottom first. -/
def onIntegers (workspace : Workspace)
    (next : Workspace → (bottom top : Int) → Reaction) : Reaction :=
  workspace.withOperands [.only .number, .only .number] false fun rest operands =>
    match operands with
    | [.int top, .int bottom] => next rest bottom top
    | _ => rest.settled

/-- A primitive that pushes a value made of two integers. -/
def ofIntegers (workspace : Workspace) (operation : (bottom top : Int) → Value) : Reaction :=
  onIntegers workspace fun rest bottom top => (rest.push (operation bottom top)).settled

/-- A primitive that divides two integers and pushes a part of the result. -/
def ofDivision (workspace : Workspace) (part : Division → Int) : Reaction :=
  onIntegers workspace fun rest bottom top =>
    match Division.ofIntegers bottom top with
    | .error cause => .failed rest cause
    | .ok division => (rest.push (.int (part division))).settled

/-- The kinds of values that can be compared. -/
def comparable : Spec :=
  .anyOf [.boolean, .number, .string]

/-- A primitive that compares two values of one kind. -/
def ofComparison (workspace : Workspace) (verdict : (same : Bool) → Bool) : Reaction :=
  workspace.withOperands [comparable, comparable] true fun rest operands =>
    match operands with
    | [top, bottom] => (rest.push (.bool (verdict (bottom.sameAs top)))).settled
    | _ => rest.settled

/-- A primitive on two truth values, given bottom first. -/
def ofTruths (workspace : Workspace) (operation : (bottom top : Bool) → Bool) : Reaction :=
  workspace.withOperands [.only .boolean, .only .boolean] false fun rest operands =>
    match operands with
    | [.bool top, .bool bottom] => (rest.push (.bool (operation bottom top))).settled
    | _ => rest.settled

/-! ## Primitives that move operands -/

/-- Exchanges the two topmost values. -/
def swapTop (workspace : Workspace) : Reaction :=
  match workspace.stack with
  | b :: a :: rest => { workspace with stack := a :: b :: rest }.settled
  | stack => .failed workspace (.underflow 2 stack.length)

/-- Exchanges the two topmost pairs of values. -/
def swapPairs (workspace : Workspace) : Reaction :=
  match workspace.stack with
  | d :: c :: b :: a :: rest => { workspace with stack := b :: a :: d :: c :: rest }.settled
  | stack => .failed workspace (.underflow 4 stack.length)

/-- Brings the third value to the top. -/
def rotateUp (workspace : Workspace) : Reaction :=
  match workspace.stack with
  | c :: b :: a :: rest => { workspace with stack := a :: c :: b :: rest }.settled
  | stack => .failed workspace (.underflow 3 stack.length)

/-- Puts the top below the next two values. -/
def rotateDown (workspace : Workspace) : Reaction :=
  match workspace.stack with
  | c :: b :: a :: rest => { workspace with stack := b :: a :: c :: rest }.settled
  | stack => .failed workspace (.underflow 3 stack.length)

/-- Replaces an index on top by the value at that distance below it. -/
def pickValue (workspace : Workspace) : Reaction :=
  match workspace.stack with
  | [] => .failed workspace (.underflow 1 0)
  | .int (.ofNat index) :: rest =>
      match rest[index]? with
      | some value => { workspace with stack := value :: rest }.settled
      | none => .failed workspace (.underflow (index + 2) (rest.length + 1))
  | .int (.negSucc index) :: _ => .failed workspace (.negativeIndex (.negSucc index))
  | top :: _ => .failed workspace (.mismatch (.only .number) top)

/-! ## Primitives on variables -/

/-- Stores the value below a reference into the variable. -/
def storeVariable (workspace : Workspace) : Reaction :=
  match workspace.stack with
  | .variableRef name :: value :: rest =>
      let dictionary := workspace.dictionary
      if dictionary.store.contains name then
        { workspace with
          stack := rest
          dictionary := { dictionary with store := dictionary.store.set name value } }.settled
      else .failed workspace (.undefinedVariable name)
  | top :: _ :: _ => .failed workspace (.mismatch (.only .variableRef) top)
  | stack => .failed workspace (.underflow 2 stack.length)

/-- Replaces a reference by the content of the variable. -/
def fetchVariable (workspace : Workspace) : Reaction :=
  match workspace.stack with
  | .variableRef name :: rest =>
      match workspace.dictionary.store.get? name with
      | some content => { workspace with stack := content :: rest }.settled
      | none => .failed workspace (.undefinedVariable name)
  | top :: _ => .failed workspace (.mismatch (.only .variableRef) top)
  | [] => .failed workspace (.underflow 1 0)

/-! ## Primitives that call quotations -/

/-- Takes a condition and two quotations, and calls the first or the second of them. -/
def callBranch (workspace : Workspace) : Reaction :=
  workspace.withOperands [.only .quotation, .only .quotation, .only .boolean] false
    fun rest operands =>
      match operands with
      | [.quotation otherwise, .quotation consequence, .bool condition] =>
          .done rest (if condition then consequence else otherwise)
      | _ => rest.settled

/-- Takes a quotation and calls it. -/
def callQuotation (workspace : Workspace) : Reaction :=
  workspace.withOperands [.only .quotation] false fun rest operands =>
    match operands with
    | [.quotation content] => .done rest content
    | _ => rest.settled

/-! ## Primitives that print -/

/-- The header of a listing. -/
def heading (title : String) : String :=
  Text.Color.gray.paint title

/-- The line of a value in the listing of the stack. -/
def stackLine : Value × Nat → String
  | (value, distance) =>
      Text.Color.gray.paint ("  " ++ Numeral.write distance ++ " :") ++ "\t" ++ value.display

/-- The line of an entry in the listing of the dictionary. -/
def entryLine (entry : Entry) : String :=
  "  : " ++ Text.Color.yellow.paint entry.name ++ " " ++ entry.describe ++ " ;"

/-- The line of a variable in the listing of the variables. -/
def variableLine : String × Value → String
  | (name, content) => "  " ++ (Value.variableRef name).display ++ " = " ++ content.display

/-- Lists the stack, top first. -/
def listStack (workspace : Workspace) : Reaction :=
  let size := Numeral.write workspace.stack.length
  (workspace.printLine (heading ("STACK (size: " ++ size ++ ")"))).printEach
    (fun (value, _) => value.isDisplayable) stackLine workspace.stack.zipIdx

/-- Lists the dictionary, by name. -/
def listWords (workspace : Workspace) : Reaction :=
  let count := Numeral.write (workspace.dictionary.nextId - 1)
  (workspace.printLine (heading ("WORDS (compiled: " ++ count ++ ")"))).printEach
    Entry.isDisplayable entryLine workspace.dictionary.sortedEntries

/-- Lists the variables, by name. -/
def listVariables (workspace : Workspace) : Reaction :=
  (workspace.printLine (heading "VARIABLES")).printEach
    (fun (_, content) => content.isDisplayable) variableLine
    workspace.dictionary.store.sorted

/-- Takes a value and prints it. -/
def printTop (workspace : Workspace) : Reaction :=
  workspace.withOperands [.only .any] false fun rest operands =>
    rest.printEach Value.isDisplayable (fun value => "  = " ++ value.display) operands

/-! ## All primitives -/

/-- The effect of a primitive. -/
def effect (primitive : Primitive) (workspace : Workspace) : Reaction :=
  match primitive with
  | printStack => listStack workspace
  | clear => { workspace with stack := [] }.settled
  | printWords => listWords workspace
  | branch => callBranch workspace
  | drop => workspace.withOperands [.only .any] false fun rest _ => rest.settled
  | swap => swapTop workspace
  | twoSwap => swapPairs workspace
  | store => storeVariable workspace
  | fetch => fetchVariable workspace
  | rotate => rotateUp workspace
  | rotateBack => rotateDown workspace
  | pick => pickValue workspace
  | add => ofIntegers workspace fun bottom top => .int (bottom + top)
  | subtract => ofIntegers workspace fun bottom top => .int (bottom - top)
  | multiply => ofIntegers workspace fun bottom top => .int (bottom * top)
  | divide => ofDivision workspace Division.quotient
  | modulo => ofDivision workspace Division.remainder
  | lowerThan => ofIntegers workspace fun bottom top => .bool (bottom < top)
  | greaterThan => ofIntegers workspace fun bottom top => .bool (bottom > top)
  | lowerOrEqual => ofIntegers workspace fun bottom top => .bool (bottom ≤ top)
  | greaterOrEqual => ofIntegers workspace fun bottom top => .bool (bottom ≥ top)
  | equals => ofComparison workspace fun same => same
  | notEquals => ofComparison workspace fun same => !same
  | not =>
      workspace.withOperands [.only .boolean] false fun rest operands =>
        match operands with
        | [.bool truth] => (rest.push (.bool !truth)).settled
        | _ => rest.settled
  | and => ofTruths workspace fun bottom top => bottom && top
  | or => ofTruths workspace fun bottom top => bottom || top
  | xor => ofTruths workspace fun bottom top => bottom != top
  | print => printTop workspace
  | call => callQuotation workspace
  | depth => (workspace.push (.int workspace.stack.length)).settled
  | printVariables => listVariables workspace
  | bye => .stopped workspace .leave

end Primitive
end Concatenative
