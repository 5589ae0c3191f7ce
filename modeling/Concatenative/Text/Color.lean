/-!
# Coloured text

Output is coloured by terminal control sequences: an escape character, an opening
bracket, a parameter, and a letter.  `Color.paint` puts such sequences around a text.  What
shows values and words takes the way to paint them as an argument, so the same text can be
had in other colours, or in none.
-/

namespace Concatenative
namespace Text

/-- The colours in use. -/
inductive Color where
  | gray
  | red
  | white
  | green
  | yellow
  | magenta
  | cyan
  deriving DecidableEq

namespace Color

/-- The parameter that selects a colour for the characters that follow. -/
def code : Color → String
  | gray => "90"
  | red => "91"
  | white => "97"
  | green => "32"
  | yellow => "33"
  | magenta => "35"
  | cyan => "36"

/-- The control sequence with the given parameter. -/
def sequence (parameter : String) : String :=
  "\x1b[" ++ parameter ++ "m"

/-- The control sequence that goes back to the default colour. -/
def reset : String :=
  sequence "39"

/-- A text in a colour. -/
def paint (color : Color) (text : String) : String :=
  sequence color.code ++ text ++ reset

end Color

/-- A way to paint texts. -/
abbrev Painting := Color → String → String

/-- Leaves texts as they are. -/
def Painting.plain : Painting := fun _ text => text

end Text
end Concatenative
