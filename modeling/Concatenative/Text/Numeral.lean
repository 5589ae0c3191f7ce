/-!
# Decimal numerals

Integers have any size, but their written form is limited: a numeral of more than
`digitLimit` digits is neither read nor written.  Leading zeros count as digits and
the sign does not.
-/

namespace Concatenative
namespace Numeral

/-- The largest number of digits that is read or written. -/
def digitLimit : Nat := 4300

/-- The least magnitude whose numeral is over the limit. -/
def magnitudeBound : Nat :=
  Nat.pow 10 digitLimit

/-- The two ways to exceed the limit. -/
inductive Overlong where
  /-- A numeral of that many digits was to be read. -/
  | read (digits : Nat)
  /-- An integer of too large a magnitude was to be written. -/
  | write
  deriving DecidableEq

/-- The message about a numeral over the limit. -/
def Overlong.message : Overlong → String
  | .read digits =>
      "Exceeds the limit (4300 digits) for integer string conversion: value has "
        ++ Nat.repr digits ++ " digits; use sys.set_int_max_str_digits() to increase the limit"
  | .write =>
      "Exceeds the limit (4300 digits) for integer string conversion; "
        ++ "use sys.set_int_max_str_digits() to increase the limit"

/-- Whether the numeral of an integer is within the limit. -/
def isWritable (number : Int) : Bool :=
  number.natAbs < magnitudeBound

/-- An integer is within the limit if its numeral has no more digits than the limit. -/
theorem isWritable_iff
    {number : Int} :
    isWritable number = true ↔ (Nat.toDigits 10 number.natAbs).length ≤ digitLimit := by
  have positive : 0 < digitLimit := by decide
  unfold isWritable magnitudeBound
  rw [decide_eq_true_eq]
  generalize digitLimit = limit at positive ⊢
  exact (Nat.length_toDigits_le_iff (by decide) positive).symm

/-- Integers of one digit are within the limit. -/
theorem isWritable_of_natAbs_lt
    {number : Int}
    (small : number.natAbs < 10) :
    isWritable number = true := by
  rw [isWritable_iff, Nat.toDigits_of_lt_base small]
  exact (by decide : 1 ≤ digitLimit)

/-- The numeral of an integer, of whatever length. -/
def write (number : Int) : String :=
  if number < 0 then "-" ++ Nat.repr number.natAbs else Nat.repr number.natAbs

/-- The digits of a numeral without its sign, and whether the sign is there. -/
def splitSign : List Char → Bool × List Char
  | '-' :: digits => (true, digits)
  | digits => (false, digits)

/-- A numeral is a non-empty run of ASCII digits, with an optional minus in front. -/
def isNumeral (text : String) : Bool :=
  let digits := (splitSign text.toList).2
  !digits.isEmpty && digits.all Char.isDigit

/-- The integer with a sign and a run of digits. -/
def ofDigits (negative : Bool) (digits : List Char) : Int :=
  let magnitude : Int := Nat.ofDigitChars 10 digits 0
  if negative then -magnitude else magnitude

/-- The integer that a numeral stands for, unless the numeral is over the limit. -/
def read (text : String) : Except Overlong Int :=
  let (negative, digits) := splitSign text.toList
  if digits.length ≤ digitLimit then .ok (ofDigits negative digits)
  else .error (.read digits.length)

end Numeral
end Concatenative
