import Concatenative.CommandLine.Switch
import Concatenative.Text.DecimalDigit

/-!
# Sorting arguments

Before any switch is acted on, each argument is sorted by its spelling alone: what
starts with a dash is a switch, unless it is a lone dash, looks like a negative number
or holds a space.  Everything behind a double dash is plain.

A long switch may be cut short as long as only one switch is meant, and may carry its
value behind an equals sign.  A short one carries whatever is joined to it, with or
without an equals sign in between.
-/

namespace Concatenative
namespace CommandLine

/-- What an argument carries besides the spelling of a switch. -/
inductive Attachment where
  | nothing
  /-- A text behind the equals sign of a long switch. -/
  | assigned (text : List Char)
  /-- A text behind the letter of a short switch. -/
  | joined (text : List Char)

/-- An argument, sorted by its spelling. -/
inductive Argument where
  | plain (text : String)
  /-- The double dash. -/
  | dashes
  | option (switch : Switch) (attachment : Attachment)
  /-- What is spelled as a switch and is none. -/
  | unknown (text : String)

namespace Argument

/-- Whether a text looks like a negative number. -/
def isNegativeNumber (text : List Char) : Bool :=
  let isDigit := fun character => (Text.decimalDigit? character).isSome
  let body := if text.getLast? = some '\n' then text.dropLast else text
  match body with
  | '-' :: rest =>
      (!rest.isEmpty && rest.all isDigit)
        || match rest.dropWhile isDigit with
          | '.' :: fraction => !fraction.isEmpty && fraction.all isDigit
          | _ => false
  | _ => false

/-- Whether a spelling is a dash with a letter. -/
def isShort : List Char → Bool
  | ['-', letter] => letter != '-'
  | _ => false

/-- The text in front of the first equals sign, and what is attached behind it. -/
def splitAssignment (text : List Char) : List Char × Attachment :=
  let start := text.takeWhile (· != '=')
  match text.dropWhile (· != '=') with
  | _ :: value => (start, if isShort start then .joined value else .assigned value)
  | [] => (text, .nothing)

/-- The switches that a shortened or joined spelling may mean. -/
def candidates (text : List Char) : List (String × Switch × Attachment) :=
  match text with
  | '-' :: '-' :: _ =>
      let (start, attachment) := splitAssignment text
      Switch.spellings.filterMap fun (spelling, switch) =>
        if start.isPrefixOf spelling.toList then some (spelling, switch, attachment) else none
  | _ =>
      Switch.spellings.filterMap fun (spelling, switch) =>
        if spelling.toList = text.take 2 then some (spelling, switch, .joined (text.drop 2))
        else if text.isPrefixOf spelling.toList then some (spelling, switch, .nothing)
        else none

/-- What is said about a spelling that may mean several switches. -/
def ambiguityMessage (text : String) (spellings : List String) : String :=
  "ambiguous option: " ++ text ++ " could match " ++ String.intercalate ", " spellings

/-- Sorts an argument with a dash in front that is no exact spelling of a switch. -/
def sortDashed (text : String) : Except String Argument :=
  let characters := text.toList
  let (start, attachment) := splitAssignment characters
  match Switch.ofSpelling? (String.ofList start) with
  | some switch => .ok (.option switch attachment)
  | none =>
      match candidates characters with
      | [(_, switch, attachment)] => .ok (.option switch attachment)
      | [] =>
          if isNegativeNumber characters || characters.contains ' ' then .ok (.plain text)
          else .ok (.unknown text)
      | several => .error (ambiguityMessage text (several.map Prod.fst))

/-- Sorts an argument that is no double dash. -/
def sortOne (text : String) : Except String Argument :=
  match text.toList with
  | ['-'] => .ok (.plain text)
  | '-' :: _ =>
      match Switch.ofSpelling? text with
      | some switch => .ok (.option switch .nothing)
      | none => sortDashed text
  | _ => .ok (.plain text)

/-- Sorts arguments; the first that may mean several switches is an error. -/
def sort : List String → Except String (List Argument)
  | [] => .ok []
  | text :: rest =>
      if text = "--" then .ok (.dashes :: rest.map .plain)
      else do
        let argument ← sortOne text
        let arguments ← sort rest
        return argument :: arguments

end Argument

end CommandLine
end Concatenative
