import Masthead.FileTree
import Masthead.Config.Check

/-!
# Faults of a run

What can go wrong in a run. A fault is told in layers: what could not be done, and the causes of
it one after the other.
-/

namespace Masthead.Command

/-- Why a configuration file gives no configuration. -/
inductive ConfigFault
  | unreadable (path : Path) (fault : FileFault)
  | malformed (path : Path)
  | invalid (fault : FieldFault)
  deriving DecidableEq, Repr

namespace ConfigFault

def message : ConfigFault → Text
  | unreadable path fault =>
    "Failed to read config file '".toList ++ path ++ "': ".toList ++ fault.message
  | malformed path => "Failed to parse config file '".toList ++ path ++ "'".toList
  | invalid fault => fault.message

/-- The message, and those of its causes. -/
def layers (fault : ConfigFault) : List Text :=
  match fault with
  | unreadable _ cause => [fault.message, cause.message]
  | _ => [fault.message]

end ConfigFault

/-- Why a run or the work on one file ends early. -/
inductive Fault
  | config (path : Path) (fault : ConfigFault)
  | noSuchPath (path : Path)
  | diffNotCreated (path : Path) (fault : FileFault)
  | diffNotOpened (path : Path) (fault : FileFault)
  | fileNotRead (path : Path) (fault : FileFault)
  | fileNotWritten (path : Path) (fault : FileFault)
  | reportNotWritten (path : Path) (fault : FileFault)
  deriving DecidableEq, Repr

namespace Fault

/-- What could not be done, and the causes of it. -/
def layers : Fault → List Text
  | config path fault => ("Failed to load config from ".toList ++ path) :: fault.layers
  | noSuchPath path => ["No such file or directory: ".toList ++ path]
  | diffNotCreated path fault => ["Failed to create diff file: ".toList ++ path, fault.message]
  | diffNotOpened path fault => ["Failed to open diff file: ".toList ++ path, fault.message]
  | fileNotRead path fault => ["Failed to read file: ".toList ++ path, fault.message]
  | fileNotWritten path fault => ["Failed to write file: ".toList ++ path, fault.message]
  | reportNotWritten path fault => ["Failed to write report to ".toList ++ path, fault.message]

def line (fault : Fault) : Text :=
  Text.joinWith ": " fault.layers

/-- A cause with its lines indented, behind its number if there are several. -/
def causeText (number : Option Nat) (cause : Text) : Text :=
  let (first, next) : Text × Text := match number with
    | none => ("    ", "    ")
    | some number =>
      let digits := Text.decimal number
      (List.replicate (5 - digits.length) ' ' ++ digits ++ ": ".toList, "       ")
  first ++ Text.joinWith ('\n' :: next) (Text.splitOn '\n' cause)

/-- The text of the causes, each on lines of its own. -/
def causesText (causes : List Text) : Text :=
  let numbered := causes.zip (List.range causes.length)
  numbered.flatMap fun (cause, index) =>
    '\n' :: causeText (if causes.length = 1 then none else some index) cause

/-- The fault as the end of a run, with its causes below it. -/
def ending (fault : Fault) : Text :=
  match fault.layers with
  | [] => []
  | outer :: causes =>
    let below := if causes.isEmpty then [] else "\n\nCaused by:".toList ++ causesText causes
    "Error: ".toList ++ outer ++ below ++ ['\n']

end Fault

end Masthead.Command
