import Masthead.Text.White
import Masthead.FileTree
import Masthead.Data.Json.Reader
import Masthead.Data.Toml.Reader
import Masthead.Template.Builtin

/-!
# Template sets

A set of templates holds headers and entries by style. A style that a set leaves out is laid out
like the standard style, and what the standard style leaves out is built in.
-/

namespace Masthead

/-- Templates by the name of their style. -/
structure TemplateSet where
  headerBody : List (Text × List Text)
  versionEntry : List (Text × Text)
  todoEntry : List (Text × Text)

/-- Why a file gives no templates. -/
inductive TemplateFault
  | unreadable (path : Path) (fault : FileFault)
  | malformed (path : Path)
  | empty (path : Path)

namespace TemplateFault

def message : TemplateFault → Text
  | unreadable path fault =>
    "Failed to read template file '".toList ++ path ++ "': ".toList ++ fault.message
  | malformed path => "Failed to parse template file '".toList ++ path ++ "'".toList
  | empty path => "Template file '".toList ++ path ++ "' defines no templates".toList

end TemplateFault

namespace TemplateSet

open Masthead.Data

def builtin : TemplateSet where
  headerBody := HeaderStyle.all.map fun style => (style.name, Template.builtinHeader style)
  versionEntry := HeaderStyle.all.map fun style => (style.name, Template.builtinVersionEntry)
  todoEntry := HeaderStyle.all.map fun style => (style.name, Template.builtinTodoEntry)

def isEmpty (set : TemplateSet) : Bool :=
  set.headerBody.all (·.2.isEmpty)
    && set.versionEntry.all (Text.isBlank ·.2)
    && set.todoEntry.all (Text.isBlank ·.2)

/-! ## Choosing a template -/

/-- The template of a style or else of the standard style, among those that are usable. -/
def choose? {Template : Type} (isUsable : Template → Bool) (templates : List (Text × Template))
    (style : HeaderStyle) : Option Template :=
  match (valueOf? style.name templates).filter isUsable with
  | some template => some template
  | none => (valueOf? HeaderStyle.standard.name templates).filter isUsable

def header (set : TemplateSet) (style : HeaderStyle) : List Text :=
  (choose? (fun lines => !lines.isEmpty) set.headerBody style).getD (Template.builtinHeader style)

/-- The entry of a version history in some style. -/
def versionLine (set : TemplateSet) (style : HeaderStyle) : Text :=
  (choose? (fun line => !Text.isBlank line) set.versionEntry style).getD
    Template.builtinVersionEntry

/-- The entry of a to-do list in some style. -/
def todoLine (set : TemplateSet) (style : HeaderStyle) : Text :=
  (choose? (fun line => !Text.isBlank line) set.todoEntry style).getD Template.builtinTodoEntry

/-! ## Reading a set -/

def keys : List Text := ["header-body", "version-entry", "todo-entry"]

/-- The spellings of a key: with hyphens, with inner capitals, and with underscores. -/
def spellings (key : Text) : List Text :=
  [key, camelCase key, Text.replace '-' '_' key]

/-- An entry is one line, without the terminators at its end. -/
def withoutTerminators (entry : Text) : Text :=
  (entry.reverse.dropWhile fun character => character == '\r' || character == '\n').reverse

/-- The set that a record describes. -/
def ofValue? (value : Value) : Option TemplateSet := do
  let record ← Record.ofValue? spellings keys value
  let entries := Value.tableOf? fun entry => entry.text?.map withoutTerminators
  let headerBody ← record.field? "header-body" (Value.tableOf? (Value.listOf? Value.text?)) []
  let versionEntry ← record.field? "version-entry" entries []
  let todoEntry ← record.field? "todo-entry" entries []
  some ⟨headerBody, versionEntry, todoEntry⟩

/-- Whether the name of a file says that it holds JSON. -/
def isJson (path : Path) : Bool :=
  path.extension?.any fun extension => extension.map Char.toLower == ("json" : Text)

/-- The set in the content of a file, whose name decides on the notation. -/
def parse (path : Path) (content : Text) : Except TemplateFault TemplateSet :=
  let value? := if isJson path then Json.parse? content else Toml.parse? content
  match value?.bind ofValue? with
  | none => .error (.malformed path)
  | some set => if set.isEmpty then .error (.empty path) else .ok set

def read (tree : FileTree) (folder : List Text) (path : Path) :
    Except TemplateFault TemplateSet :=
  match tree.read folder path with
  | .error fault => .error (.unreadable path fault)
  | .ok content => parse path content

end TemplateSet

/-- The templates in force, and the file that they come from. -/
structure Catalog where
  source : Option Path
  templates : TemplateSet

namespace Catalog

def builtin : Catalog := ⟨none, .builtin⟩

/-- The templates of a file; the built-in ones take their place if there are none. -/
def load (tree : FileTree) (folder : List Text) (path : Path) : Catalog :=
  match TemplateSet.read tree folder path with
  | .ok set => ⟨some path, set⟩
  | .error _ => ⟨some path, .builtin⟩

/-- The templates of a file, or why there are none. -/
def tryLoad (tree : FileTree) (folder : List Text) (path : Path) :
    Except TemplateFault Catalog :=
  (TemplateSet.read tree folder path).map fun set => ⟨some path, set⟩

/-- The same catalog with its file read again, or the built-in templates if it has no file. -/
def reload (tree : FileTree) (folder : List Text) (catalog : Catalog) :
    Except TemplateFault Catalog :=
  match catalog.source with
  | some path => tryLoad tree folder path
  | none => .ok builtin

end Catalog

end Masthead
