/-!
# Switches of the command line

The switches with their spellings, and the texts that explain them.
-/

namespace Concatenative
namespace CommandLine

/-- The switches. -/
inductive Switch where
  | help
  | init
  | noInit
  | noPrelude
  | tokens
  | maxDepth
  | noColor
  | debug
  deriving DecidableEq

namespace Switch

/-- The spellings of the switches. -/
def spellings : List (String × Switch) :=
  [ ("-h", help),
    ("--help", help),
    ("--init", init),
    ("--no-init", noInit),
    ("--no-prelude", noPrelude),
    ("--tokens", tokens),
    ("--max-depth", maxDepth),
    ("--no-color", noColor),
    ("-d", debug),
    ("--debug", debug) ]

/-- The switch with a spelling. -/
def ofSpelling? (spelling : String) : Option Switch :=
  spellings.lookup spelling

/-- A switch in messages: all its spellings. -/
def label (switch : Switch) : String :=
  String.intercalate "/" ((spellings.filter fun (_, meant) => meant = switch).map Prod.fst)

/-- Whether a switch is followed by a value. -/
def takesValue : Switch → Bool
  | init | maxDepth => true
  | _ => false

end Switch

/-- The name of the program. -/
def programName : String :=
  "quotaforth"

/-- How the program is called. -/
def usage : String :=
  String.intercalate "\n"
    [ "usage: quotaforth [-h] [--init PATH] [--no-init] [--no-prelude] [--tokens]",
      "                  [--max-depth MAX_DEPTH] [--no-color] [-d]",
      "                  [file]",
      "" ]

/-- The answer to a call for help. -/
def helpText : String :=
  usage ++ String.intercalate "\n"
    [ "",
      "A concatenative, stack based language with quotations.",
      "",
      "positional arguments:",
      "  file                  source file to run; starts the interactive loop when",
      "                        omitted",
      "",
      "options:",
      "  -h, --help            show this help message and exit",
      "  --init PATH           init file loaded first (default: init.qf when present)",
      "  --no-init             do not load any init file",
      "  --no-prelude          do not define the prelude words (dup, over, ...)",
      "  --tokens              print the tokens of the file before running it",
      "  --max-depth MAX_DEPTH",
      "                        maximum nesting of word calls",
      "  --no-color            disable colored output",
      "  -d, --debug           log definitions, directives and loaded files",
      "" ]

end CommandLine
end Concatenative
