import Concatenative.Value.Basic

/-!
# Kinds of values

Primitives ask for operands of given kinds.  A specification is one kind, or a list of
kinds of which any will do.
-/

namespace Concatenative
namespace Value

/-- The kinds of values, and two broader ones: `any`, which every value has, and `literal`. -/
inductive Kind where
  | any
  /-- Truth values, integers, texts and references to variables. -/
  | literal
  | uninitialized
  | boolean
  | number
  | string
  | variableRef
  | wordRef
  | quotation
  deriving DecidableEq

namespace Kind

/-- The name of a kind in messages. -/
def label : Kind → String
  | any => "value"
  | literal => "literal"
  | uninitialized => "uninitialized"
  | boolean => "boolean"
  | number => "number"
  | string => "string"
  | variableRef => "variableref"
  | wordRef => "wordref"
  | quotation => "quotation"

/-- Whether the values of a kind are literals. -/
def isLiteral : Kind → Bool
  | boolean | number | string | variableRef => true
  | any | literal | uninitialized | wordRef | quotation => false

end Kind

/-- The most specific kind of a value. -/
def kind : Value → Kind
  | nil => .uninitialized
  | bool _ => .boolean
  | int _ => .number
  | text _ => .string
  | variableRef _ => .variableRef
  | wordRef _ => .wordRef
  | quotation _ => .quotation

/-- Whether a value is of a kind. -/
def isOf (value : Value) (expected : Kind) : Bool :=
  match expected with
  | .any => true
  | .literal => value.kind.isLiteral
  | specific => value.kind == specific

/-- What an operand may be. -/
inductive Spec where
  /-- A value of one kind. -/
  | only (kind : Kind)
  /-- A value of any of these kinds. -/
  | anyOf (kinds : List Kind)
  deriving DecidableEq

namespace Spec

/-- Whether a value meets a specification. -/
def admits : Spec → Value → Bool
  | only kind, value => value.isOf kind
  | anyOf kinds, value => kinds.any value.isOf

/-- A specification in messages. -/
def label : Spec → String
  | only kind => kind.label
  | anyOf kinds => "one of " ++ String.intercalate " , " (kinds.map Kind.label)

end Spec

end Value
end Concatenative
