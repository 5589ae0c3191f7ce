import Concatenative.Text.DecimalDigit

/-!
# A console without colours

What a plain console shows of a coloured text: the text without its control sequences,
which are an escape character, an opening bracket, parameters made of digits and semicolons,
and a letter.  A run of the program takes the console as a part of its terminal; this is the
one that the program comes with.
-/

namespace Concatenative
namespace CommandLine
namespace Console

/-- A parameter of a control sequence is made of digits of any script and semicolons. -/
def isSequenceParameter (character : Char) : Bool :=
  character = ';' || (Text.decimalDigit? character).isSome

/-- What follows an optional character at the front of a text. -/
def dropOptional (character : Char) : List Char → List Char
  | [] => []
  | first :: rest => if first = character then rest else first :: rest

theorem length_dropOptional_le (character : Char) (text : List Char) :
    (dropOptional character text).length ≤ text.length := by
  cases text with
  | nil => simp [dropOptional]
  | cons first rest =>
      simp only [dropOptional]
      split <;> simp

/--
What follows the control sequence at the front of a text, if there is one.  The
sequence may stand between the two characters that mark it as taking no room.
-/
def afterSequence? (text : List Char) : Option (List Char) :=
  match dropOptional '\x01' text with
  | '\x1b' :: '[' :: body =>
      match body.dropWhile isSequenceParameter with
      | letter :: rest => if letter.isAlpha then some (dropOptional '\x02' rest) else none
      | [] => none
  | _ => none

theorem length_afterSequence?_lt {text rest : List Char}
    (found : afterSequence? text = some rest) : rest.length < text.length := by
  have shorter := length_dropOptional_le '\x01' text
  unfold afterSequence? at found
  split at found
  · rename_i body front_eq
    have dropped := (List.dropWhile_sublist isSequenceParameter (l := body)).length_le
    split at found
    · rename_i letter tail body_eq
      split at found
      · have tail_le := length_dropOptional_le '\x02' tail
        simp only [Option.some.injEq] at found
        subst found
        simp only [front_eq, body_eq, List.length_cons] at *
        omega
      · simp at found
    · simp at found
  · simp at found

/-- The characters of a text that are in no control sequence. -/
def stripSequences (text : List Char) : List Char :=
  match _ : afterSequence? text with
  | some rest => stripSequences rest
  | none =>
      match text with
      | [] => []
      | character :: rest => character :: stripSequences rest
termination_by text.length
decreasing_by
  · exact length_afterSequence?_lt ‹_›
  · simp

/-- A text without its control sequences. -/
def strip (text : String) : String :=
  String.ofList (stripSequences text.toList)

end Console
end CommandLine
end Concatenative
