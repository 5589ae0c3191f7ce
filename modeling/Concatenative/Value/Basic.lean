/-!
# Values

The elements of the operand stack, of the body of a word and of a quotation.

A reference to a word is bound to one layer of its definition: the word's number and
the layer settle what it denotes, and the name is kept for display only.
-/

namespace Concatenative

/-- A reference to a layer of a word. -/
structure WordRef where
  /-- The number of the word: negative for a primitive. -/
  id : Int
  /-- The name it was written with. -/
  name : String
  /-- The definition layer it is bound to. -/
  layer : Int
  deriving DecidableEq

namespace WordRef

/-- Two references are the same when they denote the same layer of the same word. -/
def sameAs (left right : WordRef) : Bool :=
  left.id == right.id && left.layer == right.layer

end WordRef

/-- An element of the stack, of a body or of a quotation. -/
inductive Value where
  /-- The content of a variable that nothing was stored to. -/
  | nil
  | bool (truth : Bool)
  | int (number : Int)
  | text (characters : String)
  /-- A reference to a variable. -/
  | variableRef (name : String)
  | wordRef (reference : WordRef)
  /-- An unnamed sequence of values. -/
  | quotation (content : List Value)

namespace Value

mutual

/--
Equality of values as programs see it: same kind and same data, where two references
to a word are compared without their names.
-/
def sameAs : Value → Value → Bool
  | nil, nil => true
  | bool left, bool right => left == right
  | int left, int right => left == right
  | text left, text right => left == right
  | variableRef left, variableRef right => left == right
  | wordRef left, wordRef right => left.sameAs right
  | quotation left, quotation right => allSame left right
  | _, _ => false

/-- Equality of sequences, value by value. -/
def allSame : List Value → List Value → Bool
  | [], [] => true
  | left :: lefts, right :: rights => sameAs left right && allSame lefts rights
  | _, _ => false

end

end Value

/-- The body of a word: the values it runs, in order. -/
abbrev Body := List Value

end Concatenative
