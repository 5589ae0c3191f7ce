import Concatenative.Text.CodeRanges

/-!
# Blank characters

Blank characters separate the words of a program.  The class has the white space
of every script and the four ASCII separators; the zero width characters are not
in it.
-/

namespace Concatenative
namespace Text

/-- The code points of the blank characters. -/
def blankRanges : CodeRanges where
  ranges := [
    (0x9, 0xd), (0x1c, 0x20), (0x85, 0x85), (0xa0, 0xa0), (0x1680, 0x1680),
    (0x2000, 0x200a), (0x2028, 0x2029), (0x202f, 0x202f), (0x205f, 0x205f), (0x3000, 0x3000)]

/-- Whether a character separates words. -/
def isBlank (character : Char) : Bool :=
  blankRanges.contains character

/-- A boundary is a blank character or an end of the text. -/
def isBoundary : Option Char → Bool
  | none => true
  | some character => isBlank character

@[simp] theorem isBoundary_none : isBoundary none = true := rfl

@[simp] theorem isBoundary_some (character : Char) :
    isBoundary (some character) = isBlank character := rfl

end Text
end Concatenative
