import Concatenative.Text.Printable

/-!
# Quoted text

A text between quotation marks, on one line and made of printable characters only.
Single marks are preferred; double ones enclose a text that holds a single mark and no
double one.  The enclosing mark and the backslash are escaped, and so is every
character that does not show as itself.
-/

namespace Concatenative
namespace Text

/-- The lowercase hexadecimal digits of a number, with zeros in front up to a width. -/
def hexadecimal (width : Nat) (number : Nat) : String :=
  let digits := Nat.toDigits 16 number
  String.ofList (List.replicate (width - digits.length) '0' ++ digits)

/-- The escape of a character by its code point, in the shortest of three widths. -/
def codeEscape (character : Char) : String :=
  let code := character.toNat
  if code < 0x100 then "\\x" ++ hexadecimal 2 code
  else if code < 0x10000 then "\\u" ++ hexadecimal 4 code
  else "\\U" ++ hexadecimal 8 code

/-- How a character is written between two marks. -/
def escapeWithin (mark : Char) (character : Char) : String :=
  if character = mark ∨ character = '\\' then "\\" ++ character.toString
  else if character = '\n' then "\\n"
  else if character = '\r' then "\\r"
  else if character = '\t' then "\\t"
  else if isPrintable character then character.toString
  else codeEscape character

/-- The mark that encloses a text. -/
def quotationMark (text : String) : Char :=
  let characters := text.toList
  if '\x27' ∈ characters ∧ '"' ∉ characters then '"' else '\x27'

/-- A text between quotation marks. -/
def quoted (text : String) : String :=
  let mark := quotationMark text
  mark.toString ++ String.join (text.toList.map (escapeWithin mark)) ++ mark.toString

end Text
end Concatenative
