import Concatenative.Files.Path
import Concatenative.Outcome

/-!
# File trees

A finite tree of directories and files, without links, and a working directory in it.
Opening a path walks the tree component by component, so the path fails at the first
component that cannot be followed.  A path with a NUL character is not walked at all: there
is no file at it, and opening it is no failure that a program is told about.
-/

namespace Concatenative
namespace Files

/-- What stands at a location. -/
inductive Node where
  | directory
  | file (bytes : ByteArray)

/-- A working directory, and the nodes below the root. -/
structure Tree where
  home : Location
  nodes : List (Location × Node)

namespace Tree

/-- The longest name of a node, in bytes. -/
def nameLimit : Nat := 255

/-- The longest path, in bytes. -/
def pathLimit : Nat := 4095

/-- What stands at a location; the root is a directory. -/
def node? (tree : Tree) (location : Location) : Option Node :=
  if location = [] then some .directory else tree.nodes.lookup location

/--
The tree with a node at a location.  A file takes the place of a file that is there;
anything else that is there stays.
-/
def insert (tree : Tree) (location : Location) (node : Node) : Tree :=
  match tree.node? location, node with
  | none, _ => { tree with nodes := tree.nodes ++ [(location, node)] }
  | some (.file _), .file _ =>
      let others := tree.nodes.filter fun entry => entry.1 ≠ location
      { tree with nodes := others ++ [(location, node)] }
  | some _, _ => tree

/-- The tree with directories at a location and on the way to it. -/
def insertDirectories (tree : Tree) (location : Location) : Tree :=
  (List.range (location.length + 1)).foldl
    (fun tree depth => tree.insert (location.take depth) .directory) tree

/-- The tree that has only the working directory. -/
def empty (home : Location) : Tree :=
  insertDirectories ⟨home, []⟩ home

/-- The tree with directories at the locations from which components are followed. -/
def insertWay (tree : Tree) (location : Location) : List String → Tree
  | [] => tree
  | component :: rest =>
      (tree.insertDirectories location).insertWay (Path.follow location component) rest

/--
The tree with a node at a path, and with the directories that the path goes through,
also those that it leaves again.
-/
def put (tree : Tree) (path : String) (node : Node) : Tree :=
  (tree.insertWay (Path.start tree.home path) (Path.components path)).insert
    (Path.locate tree.home path) node

/-- Follows components from a location. -/
def walk (tree : Tree) (location : Location) : List String → Except Refusal Location
  | [] => .ok location
  | component :: rest =>
      match tree.node? location with
      | some .directory =>
          if component ≠ "." ∧ component ≠ ".." ∧ nameLimit < component.utf8ByteSize then
            .error .nameTooLong
          else
            let next := Path.follow location component
            match tree.node? next with
            | none => .error .missing
            | some _ => tree.walk next rest
      | some (.file _) => .error .notDirectory
      | none => .error .missing

/-- What a path leads to. -/
def resolve (tree : Tree) (path : String) : Except Refusal Node :=
  if path.isEmpty then .error .missing
  else if pathLimit < path.utf8ByteSize then .error .nameTooLong
  else
    match tree.walk (Path.start tree.home path) (Path.components path) with
    | .error refusal => .error refusal
    | .ok location =>
        match tree.node? location with
        | some node => .ok node
        | none => .error .missing

/-- Whether a path leads to a file. -/
def isFile (tree : Tree) (path : String) : Bool :=
  Path.isProper path && tree.resolve path matches .ok (.file _)

/-- The bytes of the file that a path leads to. -/
def openFile (tree : Tree) (path : String) : Except Refusal ByteArray :=
  match tree.resolve path with
  | .error refusal => .error refusal
  | .ok .directory => .error .isDirectory
  | .ok (.file bytes) => .ok bytes

/-- A text with every line end written as a single line feed. -/
def unifyLineEnds : List Char → List Char
  | [] => []
  | '\r' :: '\n' :: rest => '\n' :: unifyLineEnds rest
  | character :: rest => (if character = '\r' then '\n' else character) :: unifyLineEnds rest

/-- The text of the file that a path leads to.  Failures have the path as their source. -/
def read (tree : Tree) (path : String) : Except Stop String :=
  if Path.isProper path then
    match tree.openFile path with
    | .error refusal => .error (.failure ⟨.unreadable path refusal, some path⟩)
    | .ok bytes =>
        match String.fromUTF8? bytes with
        | none => .error (.failure ⟨.undecodable path, some path⟩)
        | some text => .ok (String.ofList (unifyLineEnds text.toList))
  else .error .embeddedNul

end Tree
end Files
end Concatenative
