import Masthead.Style
import Masthead.Path

/-!
# Arguments

The arguments of a run: what is to be done, to which files, and how it is reported. An option takes
the argument behind it as its value, unless a value is attached by an equals sign; its value is
looked at when the next argument of another kind is met.
-/

namespace Masthead.Command

/-- What is done to each file. -/
inductive Operation
  | insert
  | update
  | refresh
  | version
  | todo
  | check
  deriving DecidableEq, Repr

namespace Operation

def all : List Operation := [insert, update, refresh, version, todo, check]

def name : Operation → Text
  | insert => "insert"
  | update => "update"
  | refresh => "refresh"
  | version => "version"
  | todo => "todo"
  | check => "check"

def ofName? (name : Text) : Option Operation :=
  all.find? fun operation => operation.name == name

/-- Whether the operation ever writes files. -/
def modifies : Operation → Bool
  | check => false
  | _ => true

end Operation

/-- When the output is coloured. -/
inductive ColorChoice
  /-- On a terminal only. -/
  | auto
  | never
  | always
  deriving DecidableEq, Repr

namespace ColorChoice

def all : List ColorChoice := [auto, never, always]

def name : ColorChoice → Text
  | auto => "auto"
  | never => "never"
  | always => "always"

def ofName? (name : Text) : Option ColorChoice :=
  all.find? fun choice => choice.name == name

end ColorChoice

/-- The arguments behind an operation. -/
structure Arguments where
  paths : List Path
  config : Option Path
  noConfig : Bool
  templates : Option Path
  language : Option Text
  style : Option HeaderStyle
  dryRun : Bool
  showDiff : Bool
  saveDiff : Option Path
  reportJson : Option Path
  verbose : Nat
  quiet : Bool
  colors : ColorChoice
  deriving DecidableEq, Repr

def Arguments.none : Arguments where
  paths := []
  config := .none
  noConfig := false
  templates := .none
  language := .none
  style := .none
  dryRun := false
  showDiff := false
  saveDiff := .none
  reportJson := .none
  verbose := 0
  quiet := false
  colors := .auto

/-- Why arguments do not lead to a run. -/
inductive UsageFault
  | helpAsked
  | versionAsked
  | nothingGiven
  | unknownArgument
  | unknownOperation
  | invalidValue
  | conflict
  | tooManyValues
  | missingPaths
  deriving DecidableEq, Repr

namespace UsageFault

/-- The exit code that the fault leads to; who asks for help or for the version gets it. -/
def exitCode : UsageFault → Nat
  | helpAsked | versionAsked => 0
  | _ => 2

/-- What is wrong, in a few words. -/
def message : UsageFault → Text
  | helpAsked => ""
  | versionAsked => ""
  | nothingGiven => "an operation is needed"
  | unknownArgument => "there is an unexpected argument"
  | unknownOperation => "there is no such operation"
  | invalidValue => "an option has a wrong value or none"
  | conflict => "an option is given twice or together with one that excludes it"
  | tooManyValues => "an option is given a value but takes none"
  | missingPaths => "a path is needed"

end UsageFault

/-! ## Options -/

/-- An option that stands for itself. -/
inductive Flag
  | noConfig
  | dryRun
  | showDiff
  | verbose
  | quiet
  | help
  deriving DecidableEq, Repr

/-- An option with a value. -/
inductive Setting
  | config
  | templates
  | language
  | style
  | saveDiff
  | reportJson
  | colors
  deriving DecidableEq, Repr

/-- An option of either kind. -/
inductive Switch
  | flag (flag : Flag)
  | setting (setting : Setting)
  deriving DecidableEq, Repr

/-- The options by their long names. -/
def longNames : List (Text × Switch) := [
  ("config", .setting .config),
  ("no-config", .flag .noConfig),
  ("templates", .setting .templates),
  ("language", .setting .language),
  ("style", .setting .style),
  ("dry-run", .flag .dryRun),
  ("show-diff", .flag .showDiff),
  ("save-diff", .setting .saveDiff),
  ("report-json", .setting .reportJson),
  ("verbose", .flag .verbose),
  ("quiet", .flag .quiet),
  ("colors", .setting .colors),
  ("help", .flag .help)]

/-- The option of a single letter. -/
def shortName? : Char → Option Flag
  | 'v' => some .verbose
  | 'q' => some .quiet
  | 'h' => some .help
  | _ => none

def verboseLimit : Nat := 255

/-- What waits for its values to be looked at. -/
inductive Waiting
  | nothing
  | setting (setting : Setting) (value : Option Text)
  | paths (paths : List Path)
  deriving DecidableEq, Repr

/-- What has been read so far. -/
structure Progress where
  given : Arguments
  seen : List Switch
  waiting : Waiting
  deriving Repr

abbrev Step := Except UsageFault Progress

/-- A path may not be empty. -/
def path? (value : Text) : Except UsageFault Path :=
  if value.isEmpty then .error .invalidValue else .ok value

/-- A value that must be among the names of its kind. -/
def named? {Kind : Type} (found : Option Kind) : Except UsageFault Kind :=
  match found with
  | some kind => .ok kind
  | none => .error .invalidValue

/-- The value of an option for which none is given. -/
def Setting.missingValue? : Setting → Option Text
  | .colors => some ColorChoice.always.name
  | _ => none

/-- The arguments with an option set to a value. -/
def Arguments.assign (given : Arguments) (value : Text) : Setting → Except UsageFault Arguments
  | .config => (path? value).map fun path => { given with config := some path }
  | .templates => (path? value).map fun path => { given with templates := some path }
  | .language => .ok { given with language := some value }
  | .style => (named? (HeaderStyle.ofName? value)).map fun style => { given with style := some style }
  | .saveDiff => (path? value).map fun path => { given with saveDiff := some path }
  | .reportJson => (path? value).map fun path => { given with reportJson := some path }
  | .colors => (named? (ColorChoice.ofName? value)).map fun choice => { given with colors := choice }

def Arguments.raise (given : Arguments) : Flag → Arguments
  | .noConfig => { given with noConfig := true }
  | .dryRun => { given with dryRun := true }
  | .showDiff => { given with showDiff := true }
  | .verbose => { given with verbose := min (given.verbose + 1) verboseLimit }
  | .quiet => { given with quiet := true }
  | .help => given

namespace Progress

def start : Progress := ⟨.none, [], .nothing⟩

/-- Looks at the values that wait. -/
def resolve (progress : Progress) : Step :=
  match progress.waiting with
  | .nothing => .ok progress
  | .setting setting value =>
    match value <|> setting.missingValue? with
    | none => .error .invalidValue
    | some value =>
      if progress.seen.contains (.setting setting) then .error .conflict
      else (progress.given.assign value setting).map fun given =>
        ⟨given, .setting setting :: progress.seen, .nothing⟩
  | .paths paths =>
    (paths.mapM path?).map fun paths =>
      { progress with
        given := { progress.given with paths := progress.given.paths ++ paths }
        waiting := .nothing }

/-- Meets a flag. Only the verbosity may be raised more than once. -/
def meetFlag (flag : Flag) (progress : Progress) : Step :=
  progress.resolve.bind fun progress =>
    if flag = .help then .error .helpAsked
    else if flag ≠ .verbose ∧ progress.seen.contains (.flag flag) then .error .conflict
    else .ok { progress with
      given := progress.given.raise flag
      seen := .flag flag :: progress.seen }

/-- Meets an option with a value, which may be attached to it. -/
def meetSetting (setting : Setting) (attached : Option Text) (progress : Progress) : Step :=
  progress.resolve.bind fun progress =>
    let waiting := { progress with waiting := .setting setting attached }
    if attached.isSome then waiting.resolve else .ok waiting

/-- Meets a long option, without its two hyphens. -/
def meetLong (option : Text) (progress : Progress) : Step :=
  let name := option.takeWhile (· ≠ '=')
  let attached :=
    if name.length = option.length then none else some (option.drop (name.length + 1))
  match valueOf? name longNames with
  | none => .error .unknownArgument
  | some (.flag flag) =>
    if attached.isSome then .error .tooManyValues else progress.meetFlag flag
  | some (.setting setting) => progress.meetSetting setting attached

/-- Meets short options, without their hyphen. -/
def meetShort : Text → Progress → Step
  | [], progress => .ok progress
  | letter :: letters, progress =>
    match shortName? letter with
    | none => .error .unknownArgument
    | some flag => (progress.meetFlag flag).bind (meetShort letters)

def meetPath (path : Text) (progress : Progress) : Step :=
  match progress.waiting with
  | .paths paths => .ok { progress with waiting := .paths (paths ++ [path]) }
  | _ => progress.resolve.map fun progress => { progress with waiting := .paths [path] }

/-- Meets an argument that does not begin like an option. -/
def meetValue (value : Text) (progress : Progress) : Step :=
  match progress.waiting with
  | .setting setting none => .ok { progress with waiting := .setting setting (some value) }
  | _ => progress.meetPath value

/-- Reads the arguments of an operation; behind two hyphens there are only paths. -/
def read : List Text → Progress → Step
  | [], progress => progress.resolve
  | argument :: rest, progress =>
    match argument with
    | ['-', '-'] => (rest.foldlM (fun met path => meetPath path met) progress).bind resolve
    | '-' :: '-' :: option => (progress.meetLong option).bind (read rest)
    | '-' :: letter :: letters => (progress.meetShort (letter :: letters)).bind (read rest)
    -- A single hyphen is a value like any other.
    | value => (progress.meetValue value).bind (read rest)

end Progress

def Arguments.parse (arguments : List Text) : Except UsageFault Arguments :=
  (Progress.start.read arguments).bind fun progress =>
    if progress.given.quiet ∧ progress.given.verbose ≠ 0 then .error .conflict
    else if progress.given.paths.isEmpty then .error .missingPaths
    else .ok progress.given

/-! ## Operations -/

/-- What is asked for behind the word `help`: help on the whole or on one operation. -/
def helpFault : List Text → UsageFault
  | [] => .helpAsked
  | topic :: rest =>
    let isTopic := topic = ("help" : Text) ∨ (Operation.ofName? topic).isSome
    if isTopic ∧ rest.isEmpty then .helpAsked else .unknownOperation

/-- The fault of an argument that stands where the operation is expected and begins like an
option. -/
def optionFault (option : Text) : UsageFault :=
  if option = ("--help" : Text) then .helpAsked
  else if option = ("--version" : Text) then .versionAsked
  else if Text.startsWith "--help=" option ∨ Text.startsWith "--version=" option then .tooManyValues
  else match option with
    | '-' :: 'h' :: _ => .helpAsked
    | '-' :: 'V' :: _ => .versionAsked
    | _ => .unknownArgument

def parse : List Text → Except UsageFault (Operation × Arguments)
  | [] => .error .nothingGiven
  | first :: rest =>
    match Operation.ofName? first with
    | some operation => (Arguments.parse rest).map fun arguments => (operation, arguments)
    | none =>
      if first = ("help" : Text) then .error (helpFault rest)
      else match first with
        | ['-', '-'] =>
          match rest with
          | [] => .error .nothingGiven
          | next :: _ =>
            if (Operation.ofName? next).isSome ∨ next = ("help" : Text) then
              .error .unknownArgument
            else .error .unknownOperation
        | '-' :: _ :: _ => .error (optionFault first)
        | _ => .error .unknownOperation

end Masthead.Command
