/-!
# Paths

A path is a text whose components are separated by slashes.  A location is a list of
names that leads from the root to a place, outermost first; a path denotes one with
respect to a working directory, also a location.

Two slashes at the front of a path are kept apart from one, as systems may give them a
meaning of their own, while three or more count as one.  So the address of a path, by which
two paths are compared, is more than its location.
-/

namespace Concatenative
namespace Files

/-- The names that lead from the root to a place. -/
abbrev Location := List String

/-- What a path comes to as a text, once it is absolute and has no detours. -/
structure Address where
  /-- Whether it starts with two slashes. -/
  doubled : Bool
  location : Location
  deriving DecidableEq

namespace Path

/-- The parts of a text between its slashes. -/
def splitSlashes : List Char → List (List Char)
  | [] => [[]]
  | character :: rest =>
      if character = '/' then [] :: splitSlashes rest
      else
        match splitSlashes rest with
        | [] => [[character]]
        | part :: parts => (character :: part) :: parts

/-- Whether a path starts from the root. -/
def isAbsolute (path : String) : Bool :=
  path.toList.head? == some '/'

/--
The components of a path, without the empty ones between adjacent slashes.  A slash at
the end asks for a directory, which a last component `.` does as well.
-/
def components (path : String) : List String :=
  let parts := (splitSlashes path.toList).filter fun part => !part.isEmpty
  let closing := if path.toList.getLast? = some '/' then [['.']] else []
  (parts ++ closing).map String.ofList

/-- The place from which a path starts. -/
def start (home : Location) (path : String) : Location :=
  if isAbsolute path then [] else home

/-- Goes from a location to that of a component; the root is its own parent. -/
def follow (location : Location) (component : String) : Location :=
  if component = "." then location
  else if component = ".." then location.dropLast
  else location ++ [component]

/-- The location of a path, read off its text alone. -/
def locate (home : Location) (path : String) : Location :=
  (components path).foldl follow (start home path)

/-- The address of a path. -/
def address (home : Location) (path : String) : Address where
  doubled := (path.toList.takeWhile (· == '/')).length == 2
  location := locate home path

/-- Whether a path can be handed to the system: a NUL character would end it too early. -/
def isProper (path : String) : Bool :=
  !path.toList.contains '\x00'

/-- What precedes the last component of a path, without slashes at its end. -/
def directory (path : String) : String :=
  let head := (path.toList.reverse.dropWhile (· != '/')).reverse
  let trimmed := (head.reverse.dropWhile (· == '/')).reverse
  String.ofList (if trimmed.isEmpty then head else trimmed)

/-- A relative path below a directory. -/
def join (directory path : String) : String :=
  if directory.isEmpty then path
  else if directory.toList.getLast? = some '/' then directory ++ path
  else directory ++ "/" ++ path

end Path
end Files
end Concatenative
