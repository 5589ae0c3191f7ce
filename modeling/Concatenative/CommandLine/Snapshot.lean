import Concatenative.CommandLine.Settings
import Concatenative.Session.Start

/-!
# Snapshots of the disk

Programs are loaded from a file tree in memory.  This module says which paths such a
tree has to know before a source is loaded.
-/

namespace Concatenative
namespace CommandLine

/-- The paths that tokens ask to include. -/
def includedPaths : List Token → List String
  | .directive keyword :: argument :: rest =>
      if keyword = Directive.includeFile.keyword ∧ argument.kind ∈ Directive.includeFile.accepts
      then argument.text :: includedPaths rest
      else includedPaths (argument :: rest)
  | _ :: rest => includedPaths rest
  | [] => []
termination_by tokens => tokens.length

/-- The paths that may be opened for those that a source includes. -/
def openedPaths (source : String) (tokens : List Token) : List String :=
  (includedPaths tokens).flatMap fun path =>
    [path, Files.Path.join (Files.Path.directory source) path]

/-- A path and the paths of the directories on its way, outermost first. -/
def pathsOnTheWay (path : String) : List String :=
  let root := if Files.Path.isAbsolute path then "/" else ""
  let components := Files.Path.components path
  (List.range components.length).map fun count =>
    root ++ String.intercalate "/" (components.take (count + 1))

/-- The paths that are opened first, whatever the sources hold. -/
def startingPaths (settings : Settings) : List String :=
  settings.init.path?.getD Session.initFile :: settings.file.toList

end CommandLine
end Concatenative
