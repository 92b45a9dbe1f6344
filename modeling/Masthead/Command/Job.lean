import Masthead.Header.Engine
import Masthead.Diff.Unified
import Masthead.Command.Output
import Masthead.Command.Fault

/-!
# Work on one file

What an operation does to the text of a file, and the same carried out in a file tree. The text is
computed first; only then are diffs shown or saved and the file is written.
-/

namespace Masthead.Command

open Masthead.Header

/-- An operation with everything that it depends on besides the files. -/
structure Job where
  operation : Operation
  engine : Engine
  config : Config
  language : Option Text
  userName : Text
  /-- The names that lead to the folder in which the run takes place. -/
  folder : List Text
  isDryRun : Bool
  showDiff : Bool
  saveDiff : Option Path
  isColored : Bool

/-- The path of the folder that some names lead to. -/
def folderPath (names : List Text) : Path :=
  if names.isEmpty then ['/'] else names.flatMap fun name => '/' :: name

/-- What is to become of a file. -/
structure Plan where
  action : FileAction
  notice : Option Notice
  text : Text
  deriving DecidableEq, Repr

namespace Job

def base (job : Job) : Path :=
  folderPath job.folder

/-- What is known about a file. -/
def contextFor (job : Job) (path : Path) : FileContext :=
  let fullPath := (Path.absolute? job.base path).getD path
  { language := languageFor path job.language
    fullPath
    relativePath := (Path.relativeTo? fullPath job.base).getD path
    tabSize := job.config.tabSize
    insertSpaces := job.config.insertSpaces
    userName := job.userName }

/-- The action of an inserted or updated header. -/
def actionOf : Outcome → FileAction
  | .inserted _ _ _ => .added
  | .updated _ _ => .updated
  | .skipped .notFound => .missing
  | .skipped _ => .unchanged

/-- What an edit of the header makes of a document. That there is a header already is not worth a
notice. -/
def headerEdit (document : Document) (outcome : Outcome) :
    FileAction × Option Notice × Document :=
  (actionOf outcome, outcome.notice.filter (· ≠ .alreadyPresent), outcome.apply document)

/-- What a new entry makes of a document. -/
def entryEdit (document : Document) (entry : EntryInsertion) :
    FileAction × Option Notice × Document :=
  (.entryAdded, entry.notice, entry.apply document)

/-- What the operation makes of a document. -/
def edit (job : Job) (context : FileContext) (document : Document) :
    FileAction × Option Notice × Document :=
  match job.operation with
  | .check =>
    if Engine.hasHeader job.config context document then (.unchanged, none, document)
    else (.missing, none, document)
  | .insert => headerEdit document (job.engine.insert job.config context document)
  | .update => headerEdit document (job.engine.update job.config context document)
  | .refresh =>
    match job.engine.refresh job.config context document with
    | some changes => (.refreshed, none, applyLineChanges document changes)
    | none =>
      if Engine.hasHeader job.config context document then (.unchanged, none, document)
      else (.missing, some .notFound, document)
  | .version => entryEdit document (job.engine.insertEntry job.config context document .version)
  | .todo => entryEdit document (job.engine.insertEntry job.config context document .todo)

/-- What is to become of a file with some text. An action that leaves the text as it was is none. -/
def plan (job : Job) (path : Path) (old : Text) : Plan :=
  let (action, notice, document) := job.edit (job.contextFor path) (Document.parse old)
  let text := document.toText
  ⟨if action.isChange ∧ text = old then .unchanged else action, notice, text⟩

end Job

/-- A file tree with what has been shown so far. -/
structure Session where
  tree : FileTree
  output : Text
  errors : Text

namespace Session

/-- Shows some text to the user. -/
def say (session : Session) (text : Text) : Session :=
  { session with output := session.output ++ text }

/-- Shows some text on the channel of errors. -/
def warn (session : Session) (text : Text) : Session :=
  { session with errors := session.errors ++ text }

end Session

namespace Job

def showDiffOf (job : Job) (diff : Text) (session : Session) : Session :=
  if job.showDiff then session.warn (shownDiff job.isColored diff) else session

/-- The session with a diff at the end of the diff file, if there is one. -/
def save (job : Job) (diff : Text) (session : Session) : Session × Option Fault :=
  match job.saveDiff with
  | none => (session, none)
  | some path =>
    match session.tree.append job.folder path diff with
    | .error fault => (session, some (.diffNotOpened path fault))
    | .ok tree => ({ session with tree }, none)

/-- The session with the diff of a file, under the given name, shown and saved. Equal texts have no
diff. -/
def emitDiff (job : Job) (name : Path) (old new : Text) (session : Session) :
    Session × Option Fault :=
  if old = new || (!job.showDiff && job.saveDiff.isNone) then (session, none)
  else
    let diff := Diff.unified name old new
    job.save diff (job.showDiffOf diff session)

/-- The session with a file written, unless the run is a dry one. -/
def write (job : Job) (path : Path) (text : Text) (session : Session) :
    Session × Option Fault :=
  if job.isDryRun then (session, none)
  else match session.tree.write job.folder path text with
    | .error fault => (session, some (.fileNotWritten path fault))
    | .ok tree => ({ session with tree }, none)

/-- Carries out what is to become of a file. -/
def carryOut (job : Job) (path : Path) (old : Text) (plan : Plan) (session : Session) :
    Session × Option Fault :=
  if plan.text = old then (session, none)
  else match job.emitDiff (Path.display (some job.base) path) old plan.text session with
    | (session, some fault) => (session, some fault)
    -- A file whose diff could not be saved is not written.
    | (session, none) => job.write path plan.text session

/-- Works on a file, as far as nothing goes wrong. -/
def tryProcess (job : Job) (path : Path) (session : Session) :
    Session × Except Fault FileReport :=
  match session.tree.read job.folder path with
  | .error fault => (session, .error (.fileNotRead path fault))
  | .ok old =>
    let plan := job.plan path old
    match job.carryOut path old plan session with
    | (session, some fault) => (session, .error fault)
    | (session, none) => (session, .ok ⟨path, plan.action, plan.notice.map Notice.message⟩)

/-- Works on a file; whatever goes wrong is told, and the file counts as failed. -/
def process (job : Job) (session : Session) (path : Path) : Session × FileReport :=
  match job.tryProcess path session with
  | (session, .ok report) => (session, report)
  | (session, .error fault) =>
    (session.warn (line ("Error processing ".toList ++ path ++ ": ".toList ++ fault.line)),
      ⟨path, .failed, none⟩)

/-- Works on files one after the other. -/
def processAll (job : Job) : Session → List Path → Session × List FileReport
  | session, [] => (session, [])
  | session, path :: paths =>
    let (session, report) := job.process session path
    let (session, reports) := processAll job session paths
    (session, report :: reports)

end Job

end Masthead.Command
