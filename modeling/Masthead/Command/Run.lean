import Masthead.Config.Record
import Masthead.Data.Toml.Reader
import Masthead.Command.Job
import Masthead.Command.Collection

/-!
# Runs

A run of the program in a folder of a file tree: the configuration is found, the files are
collected, the operation is applied to each of them, and the results are shown. A run depends on
its surroundings only: the tree, the folder, the environment, the instant and whether there are
terminals.
-/

namespace Masthead.Command

open Masthead.Header

/-- What a run depends on besides its arguments. -/
structure Surroundings where
  tree : FileTree
  folder : List Text
  environment : List (Text × Text)
  now : Calendar.Instant
  /-- How long the work on the files takes. -/
  milliseconds : Nat
  outputIsTerminal : Bool
  errorsAreTerminal : Bool

/-- What a run leaves behind. -/
structure Result where
  exitCode : Nat
  output : Text
  errors : Text
  tree : FileTree

/-! ## Configuration -/

/-- The file that holds the configuration, if no other is named. -/
def configFileName : Text := ".fileheader.toml"

/-- The variable that names a configuration file. -/
def configVariable : Text := "FILEHEADER_CONFIG"

def readConfig (tree : FileTree) (folder : List Text) (now : Calendar.Instant) (path : Path) :
    Except ConfigFault Config :=
  match tree.read folder path with
  | .error fault => .error (.unreadable path fault)
  | .ok content =>
    match (Data.Toml.parse? content).bind (Config.ofValue? Data.Toml.isNothing) with
    | none => .error (.malformed path)
    | some config =>
      match config.fault? now with
      | some fault => .error (.invalid fault)
      | none => .ok config

/-- A configuration file that is found, and what a verbose run tells about the search. -/
structure Discovery where
  path : Option Path
  told : List Text

/-- Looks for the configuration file in the folder of the run. -/
def discoverLocal (tree : FileTree) (folder : List Text) : Discovery :=
  let path := Path.join (folderPath folder) configFileName
  if tree.holds folder path then ⟨some path, ["Using config: ".toList ++ path]⟩
  else ⟨none, ["No config file found"]⟩

/-- Looks for the configuration file: the one that an argument names, or else the one that the
environment names, or else the one in the folder of the run. -/
def discoverConfig (tree : FileTree) (folder : List Text) (environment : List (Text × Text))
    (named : Option Path) : Discovery :=
  match named with
  | some path =>
    if tree.holds folder path then
      ⟨some path, ["Using explicit config path: ".toList ++ path]⟩
    else ⟨none, ["Explicit config path does not exist: ".toList ++ path]⟩
  | none =>
    match valueOf? configVariable environment with
    | none => discoverLocal tree folder
    | some path =>
      if tree.holds folder path then
        ⟨some path, ["Using config from ".toList ++ configVariable ++ ": ".toList ++ path]⟩
      else
        -- Unlike an argument, a variable that names no file leaves the search to go on.
        let found := discoverLocal tree folder
        { found with
          told := (configVariable ++ " path does not exist: ".toList ++ path) :: found.told }

/-- The configuration of a run, or why there is none, and what a verbose run tells about it. -/
def loadConfig (surroundings : Surroundings) (arguments : Arguments) :
    Except Fault Config × List Text :=
  if arguments.noConfig then
    (.ok .default, ["Config file discovery disabled (--no-config)"])
  else
    let found := discoverConfig surroundings.tree surroundings.folder surroundings.environment
      arguments.config
    match found.path with
    | none => (.ok .default, found.told)
    | some path =>
      let told := found.told ++ ["Loading config from: ".toList ++ path]
      match readConfig surroundings.tree surroundings.folder surroundings.now path with
      | .error fault => (.error (.config path fault), told)
      | .ok config =>
        let summary := "Loaded config: style ".toList ++ config.headerStyle.name ++ ", ".toList
          ++ Text.decimal config.commentTokenMap.length ++ " comment token overrides".toList
        (.ok config, told ++ [summary])

/-- The templates of a run, and what a verbose run tells about them. -/
def loadTemplates (tree : FileTree) (folder : List Text) (path : Option Path) :
    TemplateSet × List Text :=
  match path with
  | none => (.builtin, [])
  | some path =>
    match TemplateSet.read tree folder path with
    | .ok set => (set, ["Loaded templates from: ".toList ++ path])
    -- Why templates cannot be read is not told.
    | .error _ => (.builtin, [])

def userVariables : List Text := ["USER", "USERNAME"]

/-- The name of the user, or nothing. -/
def userName (environment : List (Text × Text)) : Text :=
  (userVariables.findSome? fun name =>
    (valueOf? name environment).bind Text.nonBlank?).getD []

/-! ## The run -/

/-- Lines that only a verbose run shows. -/
def tell (verbosity : Verbosity) (lines : List Text) (session : Session) : Session :=
  if verbosity = .verbose then session.warn (lines.flatMap line) else session

/-- A run that ends early. -/
def failed (session : Session) (fault : Fault) : Result :=
  ⟨1, session.output, session.errors ++ fault.ending, session.tree⟩

/-- Empties the file that takes the diffs. -/
def clearDiff (folder : List Text) (path : Option Path) (session : Session) :
    Session × Option Fault :=
  match path with
  | none => (session, none)
  | some path =>
    match session.tree.write folder path [] with
    | .error fault => (session, some (.diffNotCreated path fault))
    | .ok tree => ({ session with tree }, none)

/-- Writes the report of a run, and says so. -/
def writeReport (look : Look) (job : Job) (reports : List FileReport) (summary : Summary)
    (path : Option Path) (session : Session) : Session × Option Fault :=
  match path with
  | none => (session, none)
  | some path =>
    match session.tree.write job.folder path
        (reportText job.operation.name reports summary) with
    | .error fault => (session, some (.reportNotWritten path fault))
    | .ok tree =>
      let told := look.unlessQuiet (line (look.paint .yellow
        ("Generated JSON report at ".toList ++ path)))
      ({ session with tree }.say told, none)

/-- Whether a run ends with an error: a header is missing where headers are checked, or a file
could not be worked on. -/
def endsBadly (operation : Operation) (summary : Summary) : Bool :=
  (operation = .check && 0 < summary.missing) || 0 < summary.failed

def workOn (look : Look) (job : Job) (milliseconds : Nat) (reportJson : Option Path)
    (files : List Path) (session : Session) : Result :=
  let started := session.say (look.startMessage files.length)
  -- Where there are no files no report is written either.
  if files.isEmpty then ⟨0, started.output, started.errors, started.tree⟩
  else
    let (worked, reports) := job.processAll started files
    let summary := Summary.ofReports reports milliseconds
    let shown := worked.say (look.blankLine ++ look.results job.operation reports
      ++ look.notices reports ++ look.blankLine ++ look.summary summary
      ++ look.closingHint job.operation summary)
    match writeReport look job reports summary reportJson shown with
    | (session, some fault) => failed session fault
    | (session, none) =>
      ⟨if endsBadly job.operation summary then 1 else 0, session.output, session.errors,
        session.tree⟩

/-- Whether a channel is coloured. -/
def isColored (choice : ColorChoice) (isTerminal : Bool) : Bool :=
  match choice with
  | .auto => isTerminal
  | .never => false
  | .always => true

def jobFor (surroundings : Surroundings) (operation : Operation) (arguments : Arguments)
    (config : Config) (templates : TemplateSet) : Job where
  operation := operation
  engine := ⟨templates, surroundings.now⟩
  config := config
  language := arguments.language
  userName := userName surroundings.environment
  folder := surroundings.folder
  isDryRun := arguments.dryRun || !operation.modifies
  showDiff := arguments.showDiff
  saveDiff := arguments.saveDiff
  isColored := isColored arguments.colors surroundings.errorsAreTerminal

def lookFor (surroundings : Surroundings) (arguments : Arguments) (job : Job) : Look where
  verbosity := arguments.verbosity
  isColored := isColored arguments.colors surroundings.outputIsTerminal
  isDryRun := job.isDryRun
  base := job.base

def runWith (surroundings : Surroundings) (operation : Operation) (arguments : Arguments)
    (loaded : Config) (session : Session) : Result :=
  let config := { loaded with headerStyle := arguments.style.getD loaded.headerStyle }
  let (templates, told) :=
    loadTemplates surroundings.tree surroundings.folder arguments.templates
  let gathered := gather surroundings.tree surroundings.folder arguments.paths
  let skipped := gathered.skipped.map fun path =>
    "Skipping: ".toList ++ path ++ " (unknown comment syntax)".toList
  let session := tell arguments.verbosity (told ++ skipped) session
  -- Files that were skipped are told even if a later path names nothing.
  match gathered.fault with
  | some fault => failed session fault
  | none =>
    -- Every file adds its diff at the end, so the diffs of an earlier run are cleared first.
    match clearDiff surroundings.folder arguments.saveDiff session with
    | (session, some fault) => failed session fault
    | (session, none) =>
      let job := jobFor surroundings operation arguments config templates
      workOn (lookFor surroundings arguments job) job surroundings.milliseconds
        arguments.reportJson (arrange gathered.files) session

def run (surroundings : Surroundings) (operation : Operation) (arguments : Arguments) : Result :=
  let (loaded, told) := loadConfig surroundings arguments
  let session := tell arguments.verbosity told ⟨surroundings.tree, [], []⟩
  match loaded with
  | .error fault => failed session fault
  | .ok config => runWith surroundings operation arguments config session

/-! ## The program -/

def versionText : Text := "fileheader 0.3.0"

/-- How the program is used. -/
def usageText : Text :=
  "Usage: fileheader <insert|update|refresh|version|todo|check> [OPTIONS] <PATH>..."

/-- What is shown when arguments do not lead to a run. -/
def refuse (tree : FileTree) (fault : UsageFault) : Result :=
  match fault with
  | .helpAsked => ⟨0, line usageText, [], tree⟩
  | .versionAsked => ⟨0, line versionText, [], tree⟩
  | _ => ⟨fault.exitCode, [], line ("error: ".toList ++ fault.message) ++ line usageText, tree⟩

/-- A run of the program with its arguments. -/
def main (surroundings : Surroundings) (arguments : List Text) : Result :=
  match parse arguments with
  | .error fault => refuse surroundings.tree fault
  | .ok (operation, arguments) => run surroundings operation arguments

end Masthead.Command
