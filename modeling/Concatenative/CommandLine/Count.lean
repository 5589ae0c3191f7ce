import Concatenative.Text.Blank
import Concatenative.Text.DecimalDigit
import Concatenative.Text.Numeral
import Concatenative.Text.Quoted

/-!
# Counts on the command line

A count is a positive integer.  It is written with digits of any script, has an
optional sign, may have single underscores between digits, and blanks around it.
-/

namespace Concatenative
namespace CommandLine
namespace Count

/-- Why a text is no count. -/
inductive Refusal where
  /-- The text is no integer. -/
  | malformed (text : String)
  /-- The text has more digits than are read. -/
  | overlong (excess : Numeral.Overlong)
  /-- The integer is not positive. -/
  | notPositive (number : Int)

/-- The longest part of a malformed text that is cited. -/
def citationLimit : Nat := 200

/-- What is said about a text that is no count. -/
def Refusal.message : Refusal → String
  | .malformed text =>
      "invalid literal for int() with base 10: "
        ++ String.ofList ((Text.quoted text).toList.take citationLimit)
  | .overlong excess => excess.message
  | .notPositive number => "expected a positive integer, got " ++ Numeral.write number

/-- The blanks that may stand around an integer, which the ASCII separators do not. -/
def isMargin (character : Char) : Bool :=
  Text.isBlank character && !(0x1c ≤ character.toNat && character.toNat ≤ 0x1f)

/-- Whether a character may be part of the digits of an integer. -/
def isDigitOrUnderscore (character : Char) : Bool :=
  character == '_' || (Text.decimalDigit? character).isSome

/-- Underscores are well placed when each stands between two digits. -/
def wellPlaced (afterDigit : Bool) : List Char → Bool
  | [] => afterDigit
  | character :: rest =>
      if character = '_' then afterDigit && wellPlaced false rest else wellPlaced true rest

/-- The sign in front of a text, and what follows it. -/
def splitSign : List Char → Bool × List Char
  | '-' :: rest => (true, rest)
  | '+' :: rest => (false, rest)
  | rest => (false, rest)

/-- The integer that a text is written as. -/
def readInteger (text : String) : Except Refusal Int :=
  let (negative, unsigned) := splitSign (text.toList.dropWhile isMargin)
  let run := unsigned.takeWhile isDigitOrUnderscore
  let rest := unsigned.dropWhile isDigitOrUnderscore
  let digits := run.filterMap Text.decimalDigit?
  if !wellPlaced false run then .error (.malformed text)
  else if Numeral.digitLimit < digits.length then .error (.overlong (.read digits.length))
  else if !rest.all isMargin then .error (.malformed text)
  else
    let magnitude : Int := (digits.foldl (fun number digit => 10 * number + digit) 0 : Nat)
    .ok (if negative then -magnitude else magnitude)

/-- The count that a text is written as. -/
def read (text : String) : Except Refusal { count : Nat // 0 < count } :=
  match readInteger text with
  | .error refusal => .error refusal
  | .ok number =>
      if positive : 0 < number.toNat then .ok ⟨number.toNat, positive⟩
      else .error (.notPositive number)

end Count
end CommandLine
end Concatenative
