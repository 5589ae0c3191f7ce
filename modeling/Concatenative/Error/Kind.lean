/-!
# Kinds of errors

The kinds form a tree: under the root stand the three phases of a program's life and
the access to files, and under each phase its specific kinds.
-/

namespace Concatenative
namespace Error

/-- The kinds of errors. -/
inductive Kind where
  | error
  | parsing
  | malformedMarker
  | unterminatedString
  | compilation
  | unterminatedDefinition
  | unterminatedQuotation
  | unexpectedToken
  | unresolvedToken
  | malformedDirective
  | reservedWord
  | execution
  | stackUnderflow
  | typeMismatch
  | undefinedVariable
  | unresolvedDeferredWord
  | invalidArgument
  | divisionByZero
  | callDepthExceeded
  | fileAccess
  deriving DecidableEq

namespace Kind

/-- The name of a kind in reports. -/
def name : Kind → String
  | error => "Error"
  | parsing => "ParsingError"
  | malformedMarker => "MalformedMarker"
  | unterminatedString => "UnterminatedStringLiteral"
  | compilation => "CompilationError"
  | unterminatedDefinition => "UnterminatedDefinition"
  | unterminatedQuotation => "UnterminatedQuotation"
  | unexpectedToken => "UnexpectedToken"
  | unresolvedToken => "UnresolvedToken"
  | malformedDirective => "MalformedDirective"
  | reservedWord => "ReservedWord"
  | execution => "ExecutionError"
  | stackUnderflow => "StackUnderflow"
  | typeMismatch => "TypeMismatch"
  | undefinedVariable => "UndefinedVariable"
  | unresolvedDeferredWord => "UnresolvedDeferredWord"
  | invalidArgument => "InvalidArgument"
  | divisionByZero => "DivisionByZero"
  | callDepthExceeded => "CallDepthExceeded"
  | fileAccess => "FileAccessFailure"

/-- All kinds. -/
def all : List Kind :=
  [error, parsing, malformedMarker, unterminatedString, compilation, unterminatedDefinition,
    unterminatedQuotation, unexpectedToken, unresolvedToken, malformedDirective, reservedWord,
    execution, stackUnderflow, typeMismatch, undefinedVariable, unresolvedDeferredWord,
    invalidArgument, divisionByZero, callDepthExceeded, fileAccess]

theorem mem_all (kind : Kind) : kind ∈ all := by
  cases kind <;> decide

/-- The kind with a given name. -/
def ofName? (name : String) : Option Kind :=
  all.find? fun kind => kind.name == name

/-- The kinds that a kind is a case of, nearest first. -/
def ancestors : Kind → List Kind
  | error => []
  | parsing | compilation | execution | fileAccess => [error]
  | malformedMarker | unterminatedString => [parsing, error]
  | unterminatedDefinition | unterminatedQuotation | unexpectedToken | unresolvedToken
  | malformedDirective | reservedWord => [compilation, error]
  | stackUnderflow | typeMismatch | undefinedVariable | unresolvedDeferredWord
  | invalidArgument | divisionByZero | callDepthExceeded => [execution, error]

/-- The component that an error of a kind arises in. -/
def component : Kind → String
  | parsing | malformedMarker | unterminatedString => "Tokenizer"
  | fileAccess => "FileReader"
  | _ => "Interpreter"

end Kind

end Error
end Concatenative
