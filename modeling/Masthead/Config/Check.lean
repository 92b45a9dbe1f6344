import Masthead.Calendar.Format
import Masthead.Config.Basic

/-!
# Checks of a configuration

Which values a field accepts. The fields are checked in a fixed order, and the first fault is the
one that is reported.
-/

namespace Masthead

/-- A value that a field does not accept. -/
inductive FieldFault
  | separatorLength
  | startYear
  | email
  | url
  | emptyNotice
  | emptyDescription
  | emptyLanguage
  | languageCharacters
  | emptyToken (language : Text)
  deriving DecidableEq, Repr

namespace FieldFault

def field : FieldFault → Text
  | separatorLength => "separator-length"
  | startYear => "copyright-start-years"
  | email => "author-email"
  | url => "license-url"
  | emptyNotice => "copyright-notice"
  | emptyDescription => "project-description"
  | emptyLanguage => "comment-token-map"
  | languageCharacters => "comment-token-map"
  | emptyToken language => "comment-token-map.".toList ++ language

/-- What a user should do about it. -/
def advice : FieldFault → Text
  | separatorLength => "Please enter a number between 10 and 200"
  | startYear => "Please enter a valid year between 1900 and current year + 10"
  | email => "Please enter a valid email address"
  | url => "Please enter a valid HTTP or HTTPS URL"
  | emptyNotice => "Copyright notice cannot be empty"
  | emptyDescription => "Project description cannot be empty"
  | emptyLanguage => "Language ID cannot be empty"
  | languageCharacters =>
    "Language ID should contain only letters, numbers, hyphens, and underscores"
  | emptyToken _ => "Comment token cannot be empty"

def message (fault : FieldFault) : Text :=
  "Invalid value for '".toList ++ fault.field ++ "': ".toList ++ fault.advice

end FieldFault

namespace Config

def acceptsLength (length : Nat) : Bool :=
  10 ≤ length && length ≤ 200

/-- A dot in `domain` with characters on both sides. -/
def hasInnerDot (domain : Text) : Bool :=
  ((domain.drop 1).dropLast).contains '.'

/-- An address has a name and a domain around one `@`, without white space. -/
def acceptsEmail (email : Text) : Bool :=
  email.isEmpty
    || match Text.splitOn '@' email with
      | [name, domain] => !name.isEmpty && hasInnerDot domain && !email.any Text.isWhite
      | _ => false

/-- What follows the scheme of a web address. -/
def behindScheme? (url : Text) : Option Text :=
  match Text.after? "https://" url with
  | some rest => some rest
  | none => Text.after? "http://" url

/-- A web address has a scheme with something on the line behind it. -/
def acceptsUrl (url : Text) : Bool :=
  url.isEmpty
    || match behindScheme? url with
      | some (character :: _) => character ≠ '\n'
      | _ => false

def isIdentifierCharacter (character : Char) : Bool :=
  character.isAlphanum || character == '_' || character == '-'

def identifierFault? (language : Text) : Option FieldFault :=
  if Text.isBlank language then some .emptyLanguage
  else if language.all isIdentifierCharacter then none
  else some .languageCharacters

def tokenFault? (entry : Text × Text) : Option FieldFault :=
  match identifierFault? entry.1 with
  | some fault => some fault
  | none => if Text.isBlank entry.2 then some (.emptyToken entry.1) else none

/-- A fault that is there unless a condition holds. -/
def faultUnless (condition : Bool) (fault : FieldFault) : Option FieldFault :=
  if condition then none else some fault

/-- The first fault of a configuration, at an instant. -/
def fault? (now : Calendar.Instant) (config : Config) : Option FieldFault :=
  let year := config.copyrightStartYears.all fun year => now.acceptsYear year
  [faultUnless (acceptsLength config.separatorLength) .separatorLength,
    faultUnless year .startYear,
    faultUnless (acceptsEmail config.authorEmail) .email,
    faultUnless (acceptsUrl config.licenseUrl) .url,
    faultUnless (!Text.isBlank config.copyrightNotice) .emptyNotice,
    faultUnless (!Text.isBlank config.projectDescription) .emptyDescription,
    config.commentTokenMap.findSome? tokenFault?].findSome? id

end Config

end Masthead
