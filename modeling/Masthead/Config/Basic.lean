import Masthead.Style
import Masthead.Language.Table

/-!
# Configuration

Everything a user decides about headers, with the values that hold when nothing is decided.
-/

namespace Masthead

/-- The user's decisions about headers. -/
structure Config where
  projectName : Text
  companyName : Text
  /-- The first year of the copyright; the current year if there is none. -/
  copyrightStartYears : Option Text
  /-- The author's name; the name of the user if there is none. -/
  authorFullName : Option Text
  authorEmail : Text
  authorTitle : Text
  teamName : Text
  licenseType : Text
  customLicenseText : Option Text
  licenseUrl : Text
  /-- A template over the copyright's years, the company and the author. -/
  copyrightNotice : Text
  /-- A template over the project's name. -/
  projectDescription : Text
  headerStyle : HeaderStyle
  separatorChar : Char
  /-- The length of a rule, comment token included. -/
  separatorLength : Nat
  versionFormat : Text
  customVersionFormat : Text
  autoUpdateLastModified : Bool
  autoUpdateEditor : Bool
  timeZone : Option Text
  commentTokenMap : List (Text × Text)
  languageExtensions : List (Text × List Text)
  /-- The interpreters of scripts, by language. -/
  shebangPerLanguage : List (Text × Text)
  /-- Texts that mark a line of a section as scaffolding. -/
  extractionSentinels : List Text
  editorName : Text
  tabSize : Nat
  insertSpaces : Bool

namespace Config

def defaultVersionFormat : Text := "v\x7bmajor:02d\x7dp\x7bpatch:02d\x7d"

def default : Config where
  projectName := "Untitled Project"
  companyName := "Company"
  copyrightStartYears := none
  authorFullName := none
  authorEmail := ""
  authorTitle := ""
  teamName := ""
  licenseType := "All Rights Reserved"
  customLicenseText := none
  licenseUrl := ""
  copyrightNotice := "(C) Copyright $\x7bstartYear\x7d-$\x7bendYear\x7d $\x7bcompanyName\x7d"
  projectDescription :=
    "This module provides core functionality for the $\x7bprojectName\x7d application"
  headerStyle := .standard
  separatorChar := '-'
  separatorLength := 70
  versionFormat := defaultVersionFormat
  customVersionFormat := defaultVersionFormat
  autoUpdateLastModified := true
  autoUpdateEditor := true
  timeZone := none
  commentTokenMap := []
  languageExtensions := []
  shebangPerLanguage := []
  extractionSentinels := ["<Error>"]
  editorName := "fileheader"
  tabSize := 4
  insertSpaces := true

/-- The version format in force: the word `custom` refers to the user's own. -/
def effectiveVersionFormat (config : Config) : Text :=
  if config.versionFormat = ("custom" : Text) then config.customVersionFormat
  else config.versionFormat

/-- The user's comment tokens and extensions. -/
def languages (config : Config) : LanguageTable :=
  ⟨config.commentTokenMap, config.languageExtensions⟩

end Config

end Masthead
