import Masthead.Report
import Masthead.Text.Lines
import Masthead.Command.Arguments

/-!
# Output

The lines that a run shows: how many files it works on, what became of them, notices, counts and a
hint. A quiet run shows bare paths only, so that other programs can read them.
-/

namespace Masthead.Command

/-- How much a run tells. -/
inductive Verbosity
  | quiet
  | normal
  | verbose
  deriving DecidableEq, Repr

def Arguments.verbosity (arguments : Arguments) : Verbosity :=
  if 0 < arguments.verbose then .verbose
  else if arguments.quiet then .quiet
  else .normal

def messageLevel (isQuiet : Bool) (verbose : Nat) : Text :=
  if isQuiet then "error"
  else match verbose with
    | 0 => "warn"
    | 1 => "info"
    | 2 => "debug"
    | _ => "trace"

/-! ## Colours -/

/-- How a piece of output stands out. -/
inductive Paint
  | red
  | green
  | yellow
  | cyan
  | dimmed
  deriving DecidableEq, Repr

namespace Paint

/-- The terminal's codes before and behind what is painted. -/
def codes : Paint → Text × Text
  | red => ("31", "39")
  | green => ("32", "39")
  | yellow => ("33", "39")
  | cyan => ("36", "39")
  | dimmed => ("2", "0")

def sequence (code : Text) : Text :=
  '\x1b' :: '[' :: (code ++ ['m'])

/-- The text painted, if colours are wanted. -/
def apply (isColored : Bool) (paint : Paint) (text : Text) : Text :=
  if isColored then sequence paint.codes.1 ++ text ++ sequence paint.codes.2 else text

end Paint

/-! ## Lines of a run -/

/-- What decides on the look of the output. -/
structure Look where
  verbosity : Verbosity
  isColored : Bool
  isDryRun : Bool
  /-- The folder from which paths are shown. -/
  base : Path

def line (text : Text) : Text :=
  text ++ ['\n']

namespace Look

def unlessQuiet (look : Look) (text : Text) : Text :=
  if look.verbosity = .quiet then [] else text

def ifVerbose (look : Look) (text : Text) : Text :=
  if look.verbosity = .verbose then text else []

def paint (look : Look) (paint : Paint) (text : Text) : Text :=
  paint.apply look.isColored text

def blankLine (look : Look) : Text :=
  look.unlessQuiet (line [])

/-- A number of files. -/
def fileCount (count : Nat) : Text :=
  Text.decimal count ++ (if count = 1 then (" file" : Text) else " files")

/-- The line that a run begins with. -/
def startMessage (look : Look) (count : Nat) : Text :=
  let verb : Text := if look.isDryRun then "Checking " else "Processing "
  look.unlessQuiet (line (verb ++ fileCount count ++ "...".toList))

def sign : FileAction → Paint × Text
  | .added | .entryAdded | .unchanged => (.green, "✓")
  | .updated | .refreshed => (.yellow, "↻")
  | .missing | .failed => (.red, "✗")

/-- What is said of some files. -/
def statement (look : Look) (count : Nat) (action : FileAction) : Text :=
  let said (done planned : Text) : Text := if look.isDryRun then planned else done
  let files := fileCount count
  match action with
  | .added => said "Added header to " "Would add header to " ++ files
  | .updated | .refreshed => said "Updated header in " "Would update header in " ++ files
  | .entryAdded => said "Added entry to " "Would add entry to " ++ files
  | .missing => files ++ " missing headers".toList
  | .failed => files ++ " failed".toList
  | .unchanged => files ++ " unchanged".toList

/-- The line above the files of an action. -/
def heading (look : Look) (action : FileAction) (count : Nat) : Text :=
  let (color, symbol) := sign action
  look.paint color symbol ++ (' ' :: look.statement count action) ++ [':']

/-- How many files of an action are listed, unless the run is verbose. -/
def listLimit : Nat := 20

def shownPath (look : Look) (report : FileReport) : Text :=
  Path.display (some look.base) report.path

/-- The line in place of the files that are not listed. -/
def moreFiles (look : Look) (count : Nat) : Text :=
  "  ".toList ++ look.paint .dimmed [] ++ " ... and ".toList ++ Text.decimal count
    ++ " more (use -v to see all)".toList

/-- The files of an action under their heading. A quiet run lists the missing ones only. -/
def fileList (look : Look) (action : FileAction) (reports : List FileReport) : Text :=
  let sorted := reports.mergeSort fun report other => Path.lessOrEqual report.path other.path
  if reports.isEmpty then []
  else if look.verbosity = .quiet then
    if action = .missing then sorted.flatMap fun report => line (look.shownPath report) else []
  else
    let limit := if look.verbosity = .verbose then sorted.length else listLimit
    let listed := (sorted.take limit).flatMap fun report =>
      line ("  ".toList ++ look.shownPath report)
    line (look.heading action sorted.length) ++ listed
      ++ (if limit < sorted.length then line (look.moreFiles (sorted.length - limit)) else [])

/-- The actions whose files are listed, in their order. -/
def listedActions (look : Look) : List FileAction :=
  let always : List FileAction :=
    [.added, .updated, .refreshed, .entryAdded, .missing, .failed]
  if look.verbosity = .verbose then always ++ [.unchanged] else always

/-- What became of the files. -/
def results (look : Look) (operation : Operation) (reports : List FileReport) : Text :=
  let having (action : FileAction) : List FileReport := reports.filter (·.action = action)
  if operation = .check then
    if (having .missing).isEmpty then
      look.unlessQuiet (line (look.paint .green "✓" ++ " All files have headers.".toList))
    else look.fileList .missing (having .missing)
  else look.listedActions.flatMap fun action => look.fileList action (having action)

def notices (look : Look) (reports : List FileReport) : Text :=
  look.unlessQuiet (reports.flatMap fun report =>
    match report.notice with
    | none => []
    | some notice =>
      line (look.paint .yellow ['!'] ++ (' ' :: look.shownPath report) ++ ": ".toList ++ notice))

/-- Seconds with two places behind the point. -/
def secondsShown (milliseconds : Nat) : Text :=
  let hundredths := (milliseconds + 5) / 10
  Text.decimal (hundredths / 100) ++ ('.' :: Text.paddedDecimal 2 (hundredths % 100))

/-- The counts over all files; a verbose run tells how long it took. -/
def summary (look : Look) (summary : Summary) : Text :=
  let good (count : Nat) : Text := look.paint .cyan (Text.decimal count)
  let bad (count : Nat) : Text :=
    if 0 < count then look.paint .red (Text.decimal count) else good count
  let time := look.ifVerbose (" (".toList ++ secondsShown summary.milliseconds ++ "s)".toList)
  look.unlessQuiet (line ("Summary: ".toList ++ good summary.changed ++ " changed, ".toList
    ++ good summary.unchanged ++ " unchanged, ".toList ++ bad summary.missing
    ++ " missing, ".toList ++ bad summary.failed ++ " failed".toList ++ time))

def hint (look : Look) (message : Text) : Text :=
  look.unlessQuiet (line (look.paint .yellow message))

/-- The hint that a run ends with, if there is anything left to do. -/
def closingHint (look : Look) (operation : Operation) (summary : Summary) : Text :=
  if operation = .check ∧ 0 < summary.missing then
    look.blankLine ++ look.hint (("Run ".toList ++ '\x60' :: "fileheader insert".toList)
      ++ ('\x60' :: " to add missing headers.".toList))
  else if look.isDryRun ∧ operation.modifies ∧ 0 < summary.changed then
    look.blankLine ++ look.hint "Run without --dry-run to apply these changes."
  else []

end Look

/-- A diff as it is shown, with its lines coloured. -/
def shownDiff (isColored : Bool) (diff : Text) : Text :=
  (Text.shownLines diff).flatMap fun text =>
    let painted := match text with
      | '+' :: _ => if Text.startsWith "+++" text then text else Paint.green.apply isColored text
      | '-' :: _ => if Text.startsWith "---" text then text else Paint.red.apply isColored text
      | '@' :: _ => Paint.cyan.apply isColored text
      | _ => text
    line painted

end Masthead.Command
