import Masthead.Placeholder
import Masthead.Calendar.Format
import Masthead.Config.Basic

/-!
# Variables

The values that templates are filled with. They depend on the file, on the configuration and on
the instant, and on nothing else.
-/

namespace Masthead

/-- What is known about the file whose header is rendered. -/
structure FileContext where
  /-- A language, or an extension with its dot. -/
  language : Text
  fullPath : Path
  relativePath : Path
  tabSize : Nat
  insertSpaces : Bool
  /-- The name of the user, which may be empty. -/
  userName : Text

/-- What a language and a path tell about a file. It is shown by its name, is indented by four
blanks, and nothing is known of its user. -/
def FileContext.ofPath (language : Text) (fullPath : Path) : FileContext where
  language := language
  fullPath := fullPath
  relativePath := (Path.fileName? fullPath).getD fullPath
  tabSize := 4
  insertSpaces := true
  userName := ""

/-- Values by name. -/
abbrev Variables := List (Text × Text)

namespace Variables

def get? (values : Variables) (name : Text) : Option Text :=
  valueOf? name values

/-- The value of a name, or nothing. -/
def get (values : Variables) (name : Text) : Text :=
  (values.get? name).getD []

/-- The variables with one more value, which goes before an old one of the same name. -/
def set (values : Variables) (name value : Text) : Variables :=
  (name, value) :: values

def fill (values : Variables) (template : Text) : Text :=
  Placeholder.fill values.get? template

end Variables

/-! ## Single values -/

/-- The name of a user of whom nothing is known. -/
def unknownUser : Text := "unknown"

/-- The license of whoever names none. -/
def defaultLicense : Text := "All Rights Reserved"

def licenseStatements : List (Text × Text) := [
  ("All Rights Reserved", defaultLicense),
  ("MIT", "Licensed under the MIT License"),
  ("Apache-2.0", "Licensed under the Apache License, Version 2.0"),
  ("GPL-3.0", "Licensed under the GNU General Public License v3.0"),
  ("GPL-2.0", "Licensed under the GNU General Public License v2.0"),
  ("LGPL-3.0", "Licensed under the GNU Lesser General Public License v3.0"),
  ("LGPL-2.1", "Licensed under the GNU Lesser General Public License v2.1"),
  ("BSD-3-Clause", "Licensed under the BSD 3-Clause License"),
  ("BSD-2-Clause", "Licensed under the BSD 2-Clause License"),
  ("ISC", "Licensed under the ISC License"),
  ("MPL-2.0", "Licensed under the Mozilla Public License 2.0"),
  ("Unlicense", "Released into the public domain")]

/-- The statement of a license; a license that is not well known is stated by the user's text. -/
def licenseStatement (license : Text) (custom : Option Text) : Text :=
  match valueOf? license licenseStatements with
  | some statement => statement
  | none => (custom.bind Text.nonBlank?).getD defaultLicense

/-- The characters that fill a line of some length behind a comment token. -/
def ruleBehind (comment : Text) (character : Char) (length : Nat) : Text :=
  List.replicate (length - comment.length) character

/-- A name with an address in parentheses, unless the name holds the address already. -/
def authorWithEmail (name email : Text) : Text :=
  if email.isEmpty || Text.holds email name then name
  else name ++ " (".toList ++ email ++ ")".toList

/-- A name with a title and an address, as far as there are any. -/
def authorWithTitle (name title email : Text) : Text :=
  let titled := if Text.isBlank title then name else name ++ " - ".toList ++ title
  if Text.isBlank email then titled else titled ++ " <".toList ++ email ++ ">".toList

/-- The editor, and how it indents. -/
def editorInfo (config : Config) (context : FileContext) : Text :=
  config.editorName ++ ", ".toList
    ++ (if context.insertSpaces then ("space" : Text) else "tab")
    ++ " size (".toList ++ Text.decimal context.tabSize ++ ")".toList

/-- The author: the configured name, or else the user's. -/
def authorName (config : Config) (context : FileContext) : Text :=
  match config.authorFullName.bind Text.nonBlank? with
  | some name => name
  | none => (Text.nonBlank? context.userName).getD unknownUser

/-! ## All values -/

def commentOf (config : Config) (context : FileContext) : Text :=
  (config.languages.resolve context.language).headerToken

def projectDescription (config : Config) : Text :=
  Variables.fill [("projectName", config.projectName)] config.projectDescription

/-- The first year of the copyright. -/
def startYear (config : Config) (currentYear : Text) : Text :=
  (config.copyrightStartYears.bind Text.nonBlank?).getD currentYear

def copyrightNotice (config : Config) (author currentYear : Text) : Text :=
  Variables.fill
    [("startYear", startYear config currentYear), ("endYear", currentYear),
      ("companyName", config.companyName), ("author", author)]
    config.copyrightNotice

namespace Variables

/-- The values that say what is commented, and how. -/
def ofFile (config : Config) (context : FileContext) : Variables :=
  let comment := commentOf config context
  [("comment", comment),
    ("separator", ruleBehind comment config.separatorChar config.separatorLength),
    ("fileName", (Path.fileName? context.fullPath).getD context.fullPath),
    ("fullPath", context.fullPath),
    ("relativePath", context.relativePath),
    ("baseFileName", (Path.stem? context.fullPath).getD []),
    ("editorInfo", editorInfo config context),
    ("lastModifiedUser", (Text.nonBlank? context.userName).getD unknownUser)]

/-- The values that say who wrote the file. -/
def ofAuthor (config : Config) (author : Text) : Variables :=
  [("author", author),
    ("authorName", author),
    ("authorEmail", config.authorEmail),
    ("authorFullName", config.authorFullName.getD []),
    ("authorTitle", config.authorTitle),
    ("authorWithTitle", authorWithTitle author config.authorTitle config.authorEmail),
    ("authorWithEmail", authorWithEmail author config.authorEmail),
    ("teamName", config.teamName)]

/-- The values that say what the file belongs to, and by what right. -/
def ofProject (config : Config) (author currentYear : Text) : Variables :=
  [("projectName", config.projectName),
    ("projectDescription", projectDescription config),
    ("description", projectDescription config),
    ("companyName", config.companyName),
    ("copyright", copyrightNotice config author currentYear),
    ("copyrightNotice", copyrightNotice config author currentYear),
    ("licenseText", licenseStatement config.licenseType config.customLicenseText),
    ("licenseType", config.licenseType),
    ("licenseUrl", config.licenseUrl),
    ("fileHistory", []),
    ("todoList", [])]

/-- The values that say when the header is written. -/
def ofInstant (config : Config) (now : Calendar.Instant) (zone : Option Text) : Variables :=
  let today := now.today zone
  let currentYear := now.yearIn zone
  [("today", today),
    ("currentDate", today),
    ("creationDate", today),
    ("lastModifiedDate", now.timestamp zone),
    ("currentYear", currentYear),
    ("startYear", startYear config currentYear),
    ("endYear", currentYear)]

/-- All values for a file, with dates in a time zone. -/
def resolve (now : Calendar.Instant) (zone : Option Text) (config : Config)
    (context : FileContext) : Variables :=
  let author := authorName config context
  ofFile config context ++ ofAuthor config author
    ++ ofProject config author (now.yearIn zone) ++ ofInstant config now zone

end Variables

end Masthead
