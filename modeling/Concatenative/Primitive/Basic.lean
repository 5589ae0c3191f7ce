import Concatenative.Primitive.Card

/-!
# Primitives

The words that need no definition.  Each has a fixed negative number, from -1 down in
the order below.
-/

namespace Concatenative

/-- The primitive words. -/
inductive Primitive where
  | printStack
  | clear
  | printWords
  | branch
  | drop
  | swap
  | twoSwap
  | store
  | fetch
  | rotate
  | rotateBack
  | pick
  | add
  | subtract
  | multiply
  | divide
  | modulo
  | lowerThan
  | greaterThan
  | lowerOrEqual
  | greaterOrEqual
  | equals
  | notEquals
  | not
  | and
  | or
  | xor
  | print
  | call
  | depth
  | printVariables
  | bye
  deriving DecidableEq

namespace Primitive

/-- The name, the number, the comment and the label of each primitive. -/
def card : Primitive → Card
  | printStack => ⟨"stack", -1, some "print stack, top first", "PrintStack", by decide⟩
  | clear => ⟨"cls", -2, some "a1 .. an --", "Clear", by decide⟩
  | printWords => ⟨"words", -3, some "print dictionary", "PrintWords", by decide⟩
  | branch => ⟨"if", -4, some "c [a] [b] -- a if c, b otherwise", "EvaluateIf", by decide⟩
  | drop => ⟨"drop", -5, some "a --", "Drop", by decide⟩
  | swap => ⟨"swap", -6, some "a b -- b a", "Swap", by decide⟩
  | twoSwap => ⟨"2swap", -7, some "a b c d -- c d a b", "TwoSwap", by decide⟩
  | store => ⟨"!", -8, some "a var --  , set variable var to value a", "Store", by decide⟩
  | fetch => ⟨"@", -9, some "var -- a  , value of variable var", "Fetch", by decide⟩
  | rotate => ⟨"rot", -10, some "a b c -- b c a", "Rotate", by decide⟩
  | rotateBack => ⟨"-rot", -11, some "a b c -- c a b", "RotateBack", by decide⟩
  | pick => ⟨"pick", -12, some "an .. a0 n -- an .. a0 an", "Pick", by decide⟩
  | add => ⟨"+", -13, some "a b -- a+b", "Add", by decide⟩
  | subtract => ⟨"-", -14, some "a b -- a-b", "Substract", by decide⟩
  | multiply => ⟨"*", -15, some "a b -- a*b", "Multiply", by decide⟩
  | divide => ⟨"/", -16, some "a b -- a/b, rounded toward zero", "Divide", by decide⟩
  | modulo => ⟨"mod", -17, some "a b -- remainder of a/b", "Modulo", by decide⟩
  | lowerThan => ⟨"<", -18, some "a b -- a<b", "LowerThan", by decide⟩
  | greaterThan => ⟨">", -19, some "a b -- a>b", "GreaterThan", by decide⟩
  | lowerOrEqual => ⟨"<=", -20, some "a b -- a<=b", "LowerOrEqual", by decide⟩
  | greaterOrEqual => ⟨">=", -21, some "a b -- a>=b", "GreaterOrEqual", by decide⟩
  | equals => ⟨"==", -22, some "a b -- a=b", "Equals", by decide⟩
  | notEquals => ⟨"<>", -23, some "a b -- a<>b", "NotEquals", by decide⟩
  | not => ⟨"not", -24, some "a -- not a", "Not", by decide⟩
  | and => ⟨"and", -25, some "a b -- a and b", "And", by decide⟩
  | or => ⟨"or", -26, some "a b -- a or b", "Or", by decide⟩
  | xor => ⟨"xor", -27, some "a b -- a xor b", "Xor", by decide⟩
  | print => ⟨".", -28, some "a --  , print a", "Print", by decide⟩
  | call => ⟨"call", -29, some "[a] -- eval of a", "Call", by decide⟩
  | depth => ⟨"depth", -30, some "a1 .. an -- a1 .. an n", "Depth", by decide⟩
  | printVariables => ⟨"vars", -31, some "print variables", "PrintVariables", by decide⟩
  | bye => ⟨"bye", -32, some "ends the session", "Bye", by decide⟩

/-- The name of a primitive. -/
def name (primitive : Primitive) : String :=
  primitive.card.name

/-- The number of a primitive. -/
def id (primitive : Primitive) : Int :=
  primitive.card.id

/-- The primitives, in the order of their numbers from -1 down. -/
def all : List Primitive :=
  [printStack, clear, printWords, branch, drop, swap, twoSwap, store, fetch, rotate,
    rotateBack, pick, add, subtract, multiply, divide, modulo, lowerThan, greaterThan,
    lowerOrEqual, greaterOrEqual, equals, notEquals, not, and, or, xor, print, call, depth,
    printVariables, bye]

theorem mem_all (primitive : Primitive) : primitive ∈ all := by
  cases primitive <;> decide

/-- The primitive with a given name. -/
def ofName? (name : String) : Option Primitive :=
  all.find? fun primitive => primitive.name == name

end Primitive
end Concatenative
