import Concatenative.CommandLine.Argument
import Concatenative.CommandLine.Count
import Concatenative.Machine.DepthLimit

/-!
# Settings from the command line

Sorted arguments are acted on from left to right.  A call for help is answered where it
is met; arguments that nobody takes are an error in the end.

A double dash never is a value: attached to a switch that takes one, it leaves the
switch without a value.  The settings keep that case apart.
-/

namespace Concatenative
namespace CommandLine

/-- Which init file is wanted. -/
inductive InitChoice where
  /-- The standard one, if it is there. -/
  | standard
  | named (path : String)
  /-- One that is asked for without a name. -/
  | unnamed

namespace InitChoice

/-- The path that is asked for. -/
def path? : InitChoice → Option String
  | named path => some path
  | standard | unnamed => none

end InitChoice

/-- What the command line asks for. -/
structure Settings where
  init : InitChoice
  noInit : Bool
  noPrelude : Bool
  tokens : Bool
  /-- The limit on calls, unless one is asked for without a value. -/
  limit : Option DepthLimit
  noColor : Bool
  debug : Bool
  /-- The source file, without which the loop is started. -/
  file : Option String

namespace Settings

/-- What an empty command line asks for. -/
def standard : Settings where
  init := .standard
  noInit := false
  noPrelude := false
  tokens := false
  limit := some .standard
  noColor := false
  debug := false
  file := none

end Settings

/-- Why a command line leads to no settings. -/
inductive Dismissal where
  /-- Help is asked for. -/
  | help
  /-- The command line is wrong, for the reason given. -/
  | misuse (reason : String)

/-- The use of a switch, with its value if it has one. -/
abbrev Use := Switch × Option String

/-- The error about a switch. -/
def blame (switch : Switch) (reason : String) : Dismissal :=
  .misuse ("argument " ++ switch.label ++ ": " ++ reason)

/-- The error about a text that a switch cannot take. -/
def blameAttachment (switch : Switch) (text : List Char) : Dismissal :=
  blame switch ("ignored explicit argument " ++ Text.quoted (String.ofList text))

/-- The flags that a flag stands for together with the letters joined to it. -/
def readJoined (flag : Switch) : List Char → Except Dismissal (List Use)
  | [] => .error (blameAttachment flag [])
  | letter :: rest =>
      match Switch.ofSpelling? (String.ofList ['-', letter]) with
      | none => .error (blameAttachment flag (letter :: rest))
      | some next =>
          if rest.isEmpty then .ok [(flag, none), (next, none)]
          else do
            let uses ← readJoined next rest
            return (flag, none) :: uses

/-- The value that a text attached to a switch is. -/
def attachedValue (text : List Char) : Option String :=
  if text = ['-', '-'] then none else some (String.ofList text)

/-- The uses of switches in an argument that carries a text. -/
def readAttachment (switch : Switch) (text : List Char) (isJoined : Bool) :
    Except Dismissal (List Use) :=
  if switch.takesValue then .ok [(switch, attachedValue text)]
  else if isJoined then readJoined switch text
  else .error (blameAttachment switch text)

/-- Acts on the use of a switch. -/
def Settings.act (settings : Settings) : Use → Except Dismissal Settings
  | (.help, _) => .error .help
  | (.init, none) => .ok { settings with init := .unnamed }
  | (.init, some path) => .ok { settings with init := .named path }
  | (.noInit, _) => .ok { settings with noInit := true }
  | (.noPrelude, _) => .ok { settings with noPrelude := true }
  | (.tokens, _) => .ok { settings with tokens := true }
  | (.noColor, _) => .ok { settings with noColor := true }
  | (.debug, _) => .ok { settings with debug := true }
  | (.maxDepth, none) => .ok { settings with limit := none }
  | (.maxDepth, some text) =>
      match Count.read text with
      | .ok count => .ok { settings with limit := some ⟨count.1, count.2⟩ }
      | .error (.notPositive number) =>
          .error (blame .maxDepth (Count.Refusal.notPositive number).message)
      | .error _ => .error (blame .maxDepth ("invalid positive_int value: " ++ Text.quoted text))

/-- Acts on uses of switches, from left to right. -/
def Settings.actAll (settings : Settings) (uses : List Use) : Except Dismissal Settings :=
  uses.foldlM Settings.act settings

/-- What is known while arguments are acted on. -/
structure Progress where
  settings : Settings
  /-- Whether the place of the source file is taken. -/
  placed : Bool
  /-- The arguments that nobody takes, last first. -/
  extras : List String

namespace Progress

/-- The text of a plain argument or a double dash that nobody takes. -/
def addExtra (progress : Progress) (text : String) : Progress :=
  { progress with extras := text :: progress.extras }

/-- Takes the place of the source file. -/
def place (progress : Progress) (file : Option String) : Progress :=
  { progress with settings := { progress.settings with file }, placed := true }

/-- Acts on uses of switches. -/
def act (progress : Progress) (uses : List Use) : Except Dismissal Progress := do
  let settings ← progress.settings.actAll uses
  return { progress with settings }

/-- Acts on arguments, from left to right. -/
def actArguments (progress : Progress) : List Argument → Except Dismissal Progress
  | [] => .ok progress
  | .unknown text :: rest => (progress.addExtra text).actArguments rest
  | .option switch .nothing :: rest =>
      if switch.takesValue then
        match rest with
        | .plain value :: rest => do
            (← progress.act [(switch, some value)]).actArguments rest
        | _ => .error (blame switch "expected one argument")
      else do
        (← progress.act [(switch, none)]).actArguments rest
  | .option switch (.assigned text) :: rest => do
      (← progress.act (← readAttachment switch text false)).actArguments rest
  | .option switch (.joined text) :: rest => do
      (← progress.act (← readAttachment switch text true)).actArguments rest
  | .dashes :: .plain text :: rest =>
      if progress.placed then ((progress.addExtra "--").addExtra text).actArguments rest
      else (progress.place (some text)).actArguments rest
  | .dashes :: rest =>
      if progress.placed then (progress.addExtra "--").actArguments rest
      else (progress.place none).actArguments rest
  | .plain text :: .dashes :: rest =>
      if progress.placed then ((progress.addExtra text).addExtra "--").actArguments rest
      else (progress.place (some text)).actArguments rest
  | .plain text :: rest =>
      if progress.placed then (progress.addExtra text).actArguments rest
      else (progress.place (some text)).actArguments rest

end Progress

/-- The settings that a command line asks for. -/
def Settings.parse (arguments : List String) : Except Dismissal Settings :=
  match Argument.sort arguments with
  | .error reason => .error (.misuse reason)
  | .ok sorted =>
      match Progress.actArguments ⟨.standard, false, []⟩ sorted with
      | .error dismissal => .error dismissal
      | .ok progress =>
          if progress.extras.isEmpty then .ok progress.settings
          else
            .error (.misuse
              ("unrecognized arguments: " ++ String.intercalate " " progress.extras.reverse))

end CommandLine
end Concatenative
