import Concatenative.Text.Color
import Concatenative.Text.Numeral
import Concatenative.Text.Quoted
import Concatenative.Value.Basic

/-!
# The two written forms of a value

`display` is what programs print: source text, coloured by kind.  `displayWith` is the same
in whatever colours.  `inspect` names the kind of the value and shows its data without
ambiguity; messages use it.

Both forms are total.  `isWritable` says whether they stay within the limit on
numerals, and every place that shows a value asks it first.
-/

namespace Concatenative

namespace WordRef

/-- A reference as programs print it: the name in yellow. -/
def displayWith (paint : Text.Painting) (reference : WordRef) : String :=
  paint .yellow reference.name

/-- A reference with all its data. -/
def inspect (reference : WordRef) : String :=
  "WordRef(" ++ Numeral.write reference.id ++ ", " ++ Text.quoted reference.name ++ ", "
    ++ Numeral.write reference.layer ++ ")"

/-- Whether the numerals of the inspected form are within the limit. -/
def isWritable (reference : WordRef) : Bool :=
  Numeral.isWritable reference.id && Numeral.isWritable reference.layer

end WordRef

namespace Value

mutual

/-- A value as programs print it, with its texts painted in the given way. -/
def displayWith (paint : Text.Painting) : Value → String
  | nil => paint .gray "nil"
  | bool truth => paint .cyan (if truth then "true" else "false")
  | int number => paint .cyan (Numeral.write number)
  | text characters => paint .green ("\"" ++ characters ++ "\"")
  | variableRef name => paint .magenta name
  | wordRef reference => reference.displayWith paint
  | quotation content => "[ " ++ displayEachWith paint content ++ "]"

/-- The values of a quotation as it prints them, each with a space after it. -/
def displayEachWith (paint : Text.Painting) : List Value → String
  | [] => ""
  | value :: rest => displayWith paint value ++ " " ++ displayEachWith paint rest

end

/-- A value as programs print it. -/
def display : Value → String :=
  displayWith Text.Color.paint

mutual

/-- A value with the name of its kind and its data. -/
def inspect : Value → String
  | nil => "Uninitialized(\x27\x27)"
  | bool truth => "Boolean(" ++ (if truth then "True" else "False") ++ ")"
  | int number => "Number(" ++ Numeral.write number ++ ")"
  | text characters => "String(" ++ Text.quoted characters ++ ")"
  | variableRef name => "VariableRef(" ++ Text.quoted name ++ ")"
  | wordRef reference => reference.inspect
  | quotation content => "Quotation([" ++ String.intercalate ", " (inspectEach content) ++ "])"

/-- The inspected forms of the values of a sequence. -/
def inspectEach : List Value → List String
  | [] => []
  | value :: rest => inspect value :: inspectEach rest

end

mutual

/-- Whether every numeral in a value's printed form is within the limit. -/
def isDisplayable : Value → Bool
  | int number => Numeral.isWritable number
  | quotation content => allDisplayable content
  | _ => true

/-- Whether every value of a sequence is displayable. -/
def allDisplayable : List Value → Bool
  | [] => true
  | value :: rest => isDisplayable value && allDisplayable rest

end

mutual

/-- Whether every numeral in a value's inspected form is within the limit. -/
def isInspectable : Value → Bool
  | int number => Numeral.isWritable number
  | wordRef reference => reference.isWritable
  | quotation content => allInspectable content
  | _ => true

/-- Whether every value of a sequence is inspectable. -/
def allInspectable : List Value → Bool
  | [] => true
  | value :: rest => isInspectable value && allInspectable rest

end

end Value
end Concatenative
