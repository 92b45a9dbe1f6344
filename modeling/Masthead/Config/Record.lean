import Masthead.Text.Numeral
import Masthead.Data.Value
import Masthead.Config.Basic

/-!
# Configuration records

A configuration is read from a record. Its keys are words joined by hyphens; the same words with
inner capitals mean the same field.
-/

namespace Masthead.Config

open Masthead.Data

/-- The keys of a configuration, in the order of its fields. -/
def keys : List Text := [
  "project-name", "company-name", "copyright-start-years", "author-full-name", "author-email",
  "author-title", "team-name", "license-type", "custom-license-text", "license-url",
  "copyright-notice", "project-description", "header-style", "separator-char",
  "separator-length", "version-format", "custom-version-format", "auto-update-last-modified",
  "auto-update-editor", "time-zone", "comment-token-map", "language-extensions",
  "shebang-per-language", "extraction-sentinels", "editor-name", "tab-size", "insert-spaces"]

def spellings (key : Text) : List Text :=
  [key, camelCase key]

/-- The largest length and the largest tab size that a record can hold. -/
def lengthLimit : Nat := 18446744073709551615

def tabSizeLimit : Nat := 4294967295

/-- A field that may be left open. -/
def optional? {Item : Type} (item? : Value → Option Item) : Value → Option (Option Item)
  | .null => some none
  | value => (item? value).map some

/-- A year is given as a text or as an integer of 64 bits. -/
def year? : Value → Option Text
  | .text year => some year
  | .integer year =>
    if -9223372036854775808 ≤ year ∧ year ≤ 9223372036854775807 then some (Text.integer year)
    else none
  | _ => none

/-- A style is given by its name, or as a table that holds nothing under its name. -/
def style? (isNothing : Value → Bool) : Value → Option HeaderStyle
  | .text name => HeaderStyle.ofName? name
  | .table [(name, value)] => if isNothing value then HeaderStyle.ofName? name else none
  | _ => none

/-- The configuration that a record describes. What says nothing depends on the notation that the
record is written in. -/
def ofValue? (isNothing : Value → Bool) (value : Value) : Option Config := do
  let record ← Record.ofValue? spellings keys value
  let texts := Value.tableOf? Value.text?
  let projectName ← record.field? "project-name" Value.text? default.projectName
  let companyName ← record.field? "company-name" Value.text? default.companyName
  let copyrightStartYears ← record.field? "copyright-start-years" (optional? year?) none
  let authorFullName ← record.field? "author-full-name" (optional? Value.text?) none
  let authorEmail ← record.field? "author-email" Value.text? default.authorEmail
  let authorTitle ← record.field? "author-title" Value.text? default.authorTitle
  let teamName ← record.field? "team-name" Value.text? default.teamName
  let licenseType ← record.field? "license-type" Value.text? default.licenseType
  let customLicenseText ← record.field? "custom-license-text" (optional? Value.text?) none
  let licenseUrl ← record.field? "license-url" Value.text? default.licenseUrl
  let copyrightNotice ← record.field? "copyright-notice" Value.text? default.copyrightNotice
  let projectDescription ←
    record.field? "project-description" Value.text? default.projectDescription
  let headerStyle ←
    record.field? "header-style" (style? isNothing) default.headerStyle
  let separatorChar ← record.field? "separator-char" Value.character? default.separatorChar
  let separatorLength ←
    record.field? "separator-length" (Value.naturalUpTo? lengthLimit) default.separatorLength
  let versionFormat ← record.field? "version-format" Value.text? default.versionFormat
  let customVersionFormat ←
    record.field? "custom-version-format" Value.text? default.customVersionFormat
  let autoUpdateLastModified ←
    record.field? "auto-update-last-modified" Value.boolean? default.autoUpdateLastModified
  let autoUpdateEditor ←
    record.field? "auto-update-editor" Value.boolean? default.autoUpdateEditor
  let timeZone ← record.field? "time-zone" (optional? Value.text?) none
  let commentTokenMap ← record.field? "comment-token-map" texts default.commentTokenMap
  let languageExtensions ←
    record.field? "language-extensions" (Value.tableOf? (Value.listOf? Value.text?))
      default.languageExtensions
  let shebangPerLanguage ← record.field? "shebang-per-language" texts default.shebangPerLanguage
  let extractionSentinels ←
    record.field? "extraction-sentinels" (Value.listOf? Value.text?) default.extractionSentinels
  let editorName ← record.field? "editor-name" Value.text? default.editorName
  let tabSize ← record.field? "tab-size" (Value.naturalUpTo? tabSizeLimit) default.tabSize
  let insertSpaces ← record.field? "insert-spaces" Value.boolean? default.insertSpaces
  some {
    projectName, companyName, copyrightStartYears, authorFullName, authorEmail, authorTitle,
    teamName, licenseType, customLicenseText, licenseUrl, copyrightNotice, projectDescription,
    headerStyle, separatorChar, separatorLength, versionFormat, customVersionFormat,
    autoUpdateLastModified, autoUpdateEditor, timeZone, commentTokenMap, languageExtensions,
    shebangPerLanguage, extractionSentinels, editorName, tabSize, insertSpaces }

end Masthead.Config
