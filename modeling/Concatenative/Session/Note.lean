import Concatenative.Text.Numeral

/-!
# Notes of a session

What a session notes about its work, for those who ask for a log.
-/

namespace Concatenative
namespace Session

/-- A note about the work of a session. -/
inductive Note where
  /-- A named source with a number of tokens is loaded. -/
  | loading (name : String) (count : Nat)
  | directive (keyword : String) (argument : String)
  | defined (name : String) (id : Int) (layer : Nat)
  | including (path : String)
  | loadingFile (path : String)

namespace Note

/-- The part of the program that takes the note. -/
def channel : Note → String
  | loading _ _ | directive _ _ => "parsing"
  | defined _ _ _ => "execution"
  | including _ => "patterns"
  | loadingFile _ => "interpreter"

/-- The wording of a note. -/
def text : Note → String
  | loading name count => "loading " ++ name ++ " (" ++ Numeral.write count ++ " tokens)"
  | directive keyword argument => "directive " ++ keyword ++ " " ++ argument
  | defined name id layer =>
      "defined " ++ name ++ " (id " ++ Numeral.write id ++ ", layer " ++ Numeral.write layer ++ ")"
  | including path => "including " ++ path
  | loadingFile path => "loading file " ++ path

/-- A note as a line of the log. -/
def line (note : Note) : String :=
  "DEBUG quotaforth." ++ note.channel ++ ": " ++ note.text

end Note

end Session
end Concatenative
