import Masthead.Style
import Masthead.Placeholder

/-!
# Built-in templates

The headers of the three styles and the entries of history and to-do list, for a user who brings
no templates. Every line begins with the comment token, and every header with a rule.
-/

namespace Masthead.Template

/-- The placeholder of a variable. -/
def value (name : Text) : Text :=
  Placeholder.written name

/-- A line of a comment, in parts. -/
def row (parts : List Text) : Text :=
  value "comment" ++ parts.flatten

/-- The line that opens and closes a header. -/
def rule : Text :=
  row [value "separator"]

def standardHeader : List Text := [
  rule,
  row [" ", value "copyrightNotice"],
  row [],
  row [" ", value "licenseText"],
  row [],
  row [" Project Name  : ", value "projectName"],
  row [" File Name     : ", value "fileName"],
  row [" Author        : ", value "author"],
  row [" First Created : ", value "creationDate"],
  row [" Last Updated  : ", value "lastModifiedDate", " (by ", value "lastModifiedUser", ")"],
  row [" Editor        : ", value "editorInfo"],
  row [" Description   :"],
  row [],
  row ["     ", value "projectDescription"],
  row ["        o"],
  row [],
  rule,
  row [" File History :"],
  row ["      * ", value "today", " : (v01p00,  ", value "author", ") First Release by '",
    value "author", "'"],
  row [" To-Do List   :"],
  row ["      * ", value "today", " : (ToDo#00, ", value "author", ") None"],
  rule]

def minimalHeader : List Text := [
  rule,
  row [" ", value "copyrightNotice"],
  row [" ", value "licenseText"],
  row [],
  row [" File        : ", value "fileName"],
  row [" Author      : ", value "author"],
  row [" Created     : ", value "creationDate"],
  row [" Updated     : ", value "lastModifiedDate", " (by ", value "lastModifiedUser", ")"],
  row [" Editor      : ", value "editorInfo"],
  row [" Description : ", value "projectDescription"],
  rule]

def detailedHeader : List Text := [
  rule,
  row [" ", value "copyrightNotice"],
  row [],
  row [" ", value "licenseText"],
  row [],
  row [" Project Name  : ", value "projectName"],
  row [" File Name     : ", value "fileName"],
  row [" Full Path     : ", value "fullPath"],
  row [" Author        : ", value "authorWithTitle"],
  row [" Team          : ", value "teamName"],
  row [" First Created : ", value "creationDate"],
  row [" Last Updated  : ", value "lastModifiedDate", " (by ", value "lastModifiedUser", ")"],
  row [" Editor        : ", value "editorInfo"],
  row [" Description   :"],
  row [],
  row ["     ", value "projectDescription"],
  row [],
  row ["     Purpose:"],
  row ["        o"],
  row [],
  row ["     Dependencies:"],
  row ["        o"],
  row [],
  row ["     Notes:"],
  row ["        o"],
  row [],
  rule,
  row [" File History :"],
  row ["      * ", value "today", " : (v01p00,  ", value "author", ") First Release by '",
    value "author", "'"],
  row [" To-Do List   :"],
  row ["      * ", value "today", " : (ToDo#00, ", value "author", ") None"],
  rule]

def builtinHeader : HeaderStyle → List Text
  | .standard => standardHeader
  | .minimal => minimalHeader
  | .detailed => detailedHeader

def builtinVersionEntry : Text :=
  row ["      * ", value "today", " : (", value "version", ",  ", value "author", ") Description"]

def builtinTodoEntry : Text :=
  row ["      * ", value "today", " : (ToDo#", value "index", ", ", value "author", ") Description"]

end Masthead.Template
