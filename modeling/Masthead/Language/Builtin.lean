import Masthead.Text.Basic

/-!
# Built-in languages

How comments are written in the files of an extension, and which extensions belong to a language.
The first extension of a language is the one whose comments the language uses.
-/

namespace Masthead

/-- The comment delimiters of a kind of file. -/
inductive CommentSyntax
  | line (token : Text)
  | block (opening closing : Text)
  | both (token opening closing : Text)
  deriving DecidableEq, Repr

namespace CommentSyntax

/-- The token of a language that has no line comments of its own. -/
def defaultToken : Text := "//"

def cFamily : CommentSyntax := .both defaultToken "/*" "*/"

def markup : CommentSyntax := .block "<!--" "-->"

def hash : CommentSyntax := .line "#"

/-- The token of a line comment, if the language has one. -/
def ownToken? : CommentSyntax → Option Text
  | line token => some token
  | block _ _ => none
  | both token _ _ => some token

/-- The delimiters of a block comment, if the language has them. -/
def blockDelimiters? : CommentSyntax → Option (Text × Text)
  | line _ => none
  | block opening closing => some (opening, closing)
  | both _ opening closing => some (opening, closing)

/-- The token that every line of a header begins with. -/
def headerToken (delimiters : CommentSyntax) : Text :=
  delimiters.ownToken?.getD defaultToken

/-- Extensions whose files share a syntax. -/
def written (delimiters : CommentSyntax) (extensions : List Text) : List (Text × CommentSyntax) :=
  extensions.map fun extension => (extension, delimiters)

end CommentSyntax

open CommentSyntax in
/-- Comment delimiters by lower-case extension, with its dot. -/
def builtinSyntax : List (Text × CommentSyntax) := List.flatten [
  -- C-style languages
  written cFamily [".c", ".cpp", ".cc", ".h", ".hpp", ".cs", ".java", ".js", ".jsx", ".ts",
    ".tsx", ".go", ".rs", ".swift", ".kt", ".scala", ".dart", ".php", ".v", ".sv"],
  -- Scripting languages
  written (.both "#" "\"\"\"" "\"\"\"") [".py"],
  written (.both "#" "=begin" "=end") [".rb"],
  written (.both "#" "=pod" "=cut") [".pl"],
  written hash [".sh", ".bash", ".zsh", ".fish", ".r", ".tcl", ".upf"],
  written (.both "#" "<#" "#>") [".ps1"],
  -- Web technologies
  written markup [".html", ".htm", ".xml", ".xhtml", ".svg"],
  written (.block "/*" "*/") [".css"],
  written cFamily [".scss", ".less", ".stylus"],
  written (.line "//") [".sass"],
  -- Functional languages
  written (.both "--" "\x7b-" "-\x7d") [".hs", ".elm"],
  written (.block "(*" "*)") [".ml"],
  written (.both "//" "(*" "*)") [".fs"],
  written (.line ";") [".clj", ".lisp", ".scm"],
  -- SQL
  written (.both "--" "/*" "*/") [".sql", ".pgsql", ".mysql"],
  -- Markup and data
  written markup [".md", ".markdown"],
  written (.line "%") [".tex", ".latex"],
  written hash [".yml", ".yaml", ".toml", ".conf", ".cfg"],
  written (.line ";") [".ini"],
  -- Assembly
  written (.line ";") [".asm"],
  written hash [".s"],
  -- Others
  written (.line "\"") [".vim"],
  written (.both "--" "--[[" "]]") [".lua"],
  written (.line "%") [".m", ".erl", ".hrl"],
  written (.both "#" "#=" "=#") [".jl"],
  written hash [".ex", ".exs"]]

def language (name : Text) (extensions : List Text) : Text × List Text :=
  (name, extensions)

def builtinLanguages : List (Text × List Text) := [
  language "typescript" [".ts", ".tsx"],
  language "javascript" [".js", ".jsx", ".mjs", ".cjs"],
  language "typescriptreact" [".tsx"],
  language "javascriptreact" [".jsx"],
  language "python" [".py", ".pyw", ".pyi"],
  language "java" [".java"],
  language "c" [".c", ".h"],
  language "cpp" [".cpp", ".cc", ".cxx", ".c++", ".hpp", ".hh", ".hxx", ".h++"],
  language "csharp" [".cs"],
  language "go" [".go"],
  language "rust" [".rs"],
  language "swift" [".swift"],
  language "kotlin" [".kt", ".kts"],
  language "scala" [".scala", ".sc"],
  language "ruby" [".rb", ".rbw"],
  language "perl" [".pl", ".pm", ".t"],
  language "shell" [".sh"],
  language "shellscript" [".sh", ".bash", ".zsh", ".fish"],
  language "bash" [".bash", ".sh"],
  language "powershell" [".ps1", ".psm1", ".psd1"],
  language "r" [".r"],
  language "html" [".html", ".htm", ".xhtml"],
  language "xml" [".xml", ".xsd", ".xsl", ".xslt"],
  language "css" [".css"],
  language "scss" [".scss"],
  language "sass" [".sass"],
  language "less" [".less"],
  language "stylus" [".styl"],
  language "haskell" [".hs", ".lhs"],
  language "ocaml" [".ml", ".mli"],
  language "fsharp" [".fs", ".fsi", ".fsx"],
  language "clojure" [".clj", ".cljs", ".cljc"],
  language "lisp" [".lisp", ".lsp"],
  language "sql" [".sql", ".pgsql", ".mysql"],
  language "markdown" [".md", ".markdown", ".mdown", ".mkd"],
  language "tex" [".tex", ".latex"],
  language "yaml" [".yml", ".yaml"],
  language "toml" [".toml"],
  language "ini" [".ini", ".cfg", ".conf"],
  language "vim" [".vim", ".vimrc"],
  language "lua" [".lua"],
  language "matlab" [".m"],
  language "julia" [".jl"],
  language "dart" [".dart"],
  language "php" [".php", ".phtml", ".php3", ".php4", ".php5"],
  language "elixir" [".ex", ".exs"],
  language "erlang" [".erl", ".hrl"],
  language "assembly" [".asm", ".s"],
  language "verilog" [".v"],
  language "systemverilog" [".sv"],
  language "tcl" [".tcl"],
  language "upf" [".upf"],
  language "makefile" ["Makefile", "makefile", ".mk"],
  language "dockerfile" ["Dockerfile", ".dockerfile"],
  language "json" [".json", ".jsonc"],
  language "jsonc" [".jsonc"],
  language "properties" [".properties"],
  language "gitignore" [".gitignore"],
  language "ignore" [".ignore", ".eslintignore", ".prettierignore"]]

end Masthead
