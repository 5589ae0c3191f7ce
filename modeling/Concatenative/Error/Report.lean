import Concatenative.Error.Kind
import Concatenative.Text.Color

/-!
# Reports of errors

An error is reported with its kind, its explanation and the name of the source being
processed, on one line in a session and in full by the command line.
-/

namespace Concatenative
namespace Error

/-- What is told about an error. -/
structure Report where
  kind : Kind
  explanation : String
  /-- The name of the source being processed, where there is one. -/
  source : Option String

namespace Report

/-- The mark in front of every report. -/
def mark : String :=
  Text.Color.red.paint "ERROR:"

/-- The name of the source, unless it is missing or empty. -/
def sourceName? (report : Report) : Option String :=
  report.source.filter fun name => !name.isEmpty

/-- The report on one line. -/
def line (report : Report) : String :=
  let place :=
    match report.sourceName? with
    | some name => " " ++ Text.Color.gray.paint ("(" ++ name ++ ")")
    | none => ""
  mark ++ " " ++ report.explanation ++ place

/-- The report in full, over several lines. -/
def full (report : Report) : String :=
  String.intercalate "\n"
    [ mark ++ " " ++ report.kind.name,
      "\t source: " ++ report.sourceName?.getD "<unknown>",
      "\t component: " ++ report.kind.component,
      "\t explanation: " ++ report.explanation ]

end Report

end Error
end Concatenative
