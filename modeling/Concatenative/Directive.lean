import Concatenative.Token.Basic

/-!
# Directives

A directive is a keyword with an argument that controls how a program is loaded.
-/

namespace Concatenative

/-- The directives. -/
inductive Directive where
  /-- Reserves a word for a later definition. -/
  | deferWord
  /-- Loads another source file before going on. -/
  | includeFile
  /-- Declares a variable. -/
  | declareVariable
  deriving DecidableEq

namespace Directive

/-- The keyword, with its colon. -/
def keyword : Directive → String
  | deferWord => ":defer"
  | includeFile => ":include"
  | declareVariable => ":variable"

/-- The sort of argument that is expected. -/
def argument : Directive → String
  | deferWord => "a word name"
  | includeFile => "a file path"
  | declareVariable => "a variable name"

/-- What the directive does. -/
def comment : Directive → String
  | deferWord => "reserves a word"
  | includeFile => "loads a source file"
  | declareVariable => "declares a variable"

/-- The kinds of tokens that may be the argument. -/
def accepts : Directive → List Token.Kind
  | includeFile => [.literal, .word]
  | deferWord | declareVariable => [.word]

/-- A directive as it is displayed. -/
def display (directive : Directive) : String :=
  Text.Color.magenta.paint directive.keyword ++ " " ++ directive.argument

/-- The directives, in increasing order of their keywords. -/
def all : List Directive :=
  [deferWord, includeFile, declareVariable]

/-- The directive with a keyword. -/
def ofKeyword? (keyword : String) : Option Directive :=
  all.find? fun directive => directive.keyword == keyword

end Directive
end Concatenative
