import Masthead.Text.Case
import Masthead.Text.White
import Masthead.Path
import Masthead.Language.Builtin

/-!
# Comment syntax of a file

A language is named by its identifier or by a file extension. The user may give comment tokens of
their own and other extensions for a language; what the user says goes before the built-in tables,
and what nobody knows is commented as in C.
-/

namespace Masthead

/-- The user's own comment tokens and extensions, by language. -/
structure LanguageTable where
  tokens : List (Text × Text)
  extensions : List (Text × List Text)

namespace LanguageTable

def builtin : LanguageTable := ⟨[], []⟩

/-- The extensions of a language. A non-empty list of the user's replaces the built-in one. -/
def extensionsOf (table : LanguageTable) (language : Text) : List Text :=
  match (valueOf? language table.extensions).filter fun own => !own.isEmpty with
  | some own => own
  | none => (valueOf? language builtinLanguages).getD []

/-- The user's token for a language, where a dot at its beginning may be missing. -/
def userToken? (table : LanguageTable) (language : Text) : Option Text :=
  match valueOf? language table.tokens with
  | some token => some token
  | none => (Text.after? "." language).bind fun undotted => valueOf? undotted table.tokens

def builtinOf? (extension : Text) : Option CommentSyntax :=
  valueOf? extension builtinSyntax

/-- The extension whose built-in comments a language has. -/
def extensionFor (table : LanguageTable) (language : Text) : Text :=
  let lowered := Text.lower language
  if Text.startsWith "." language then lowered
  else match table.extensionsOf lowered with
    | first :: _ => first
    | [] => '.' :: lowered

/-- The comment syntax of a language or an extension. -/
def resolve (table : LanguageTable) (language : Text) : CommentSyntax :=
  match table.userToken? language with
  | some token => .line token
  | none => (builtinOf? (table.extensionFor language)).getD .cFamily

/-- Whether the built-in table knows an extension, given with its dot or without. -/
def knows (extension : Text) : Bool :=
  let lowered := Text.lower extension
  (builtinOf? (if Text.startsWith "." lowered then lowered else '.' :: lowered)).isSome

/-- The built-in extensions in order. -/
def knownExtensions : List Text :=
  (builtinSyntax.map (·.1)).mergeSort Text.lessOrEqual

/-- The languages of the built-in table and of the user, in order and each once. -/
def languages (table : LanguageTable) : List Text :=
  let all := builtinLanguages.map (·.1) ++ table.extensions.map (·.1)
  (all.mergeSort Text.lessOrEqual).eraseReps

end LanguageTable

/-- The language of a file: the one that is asked for, or else its extension with a dot, or the name
of a file that has no extension. -/
def languageFor (path : Path) (asked : Option Text) : Text :=
  match asked.bind Text.nonBlank? with
  | some language => Text.trim language
  | none =>
    match path.extension? with
    | some extension => '.' :: Text.lower extension
    | none => (path.fileName?.map Text.lower).getD []

end Masthead
