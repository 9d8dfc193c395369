import RouteCatalog.Syntax.Concrete
import RouteCatalog.Syntax.Docstring
import RouteCatalog.Warning

/-!
# Source files

A source file is a path, a text and the syntax tree of the text. The grammar is a parameter of the
library: a function from a text to its concrete tree.
-/

namespace RouteCatalog

/-- What the grammar makes of a text. -/
structure Parse where
  /-- The concrete tree of the text. -/
  tree : Concrete
  /-- Whether the text has syntax errors, which the tree leaves out. -/
  hasError : Bool
  deriving Repr, Inhabited

/-- What is reported about the reading of a file. -/
def Parse.warnings (parse : Parse) (path : Path) : List Warning :=
  if parse.hasError then [.syntaxErrors path] else []

/-- A grammar: it gives every text a tree. -/
abbrev Grammar := String → Parse

/-- A file whose text has been read as syntax. -/
structure SourceFile where
  /-- Where the file stands. -/
  path : Path
  /-- Its whole text. -/
  source : String
  /-- The syntax of the text. -/
  tree : Node
  deriving Repr, Inhabited

namespace SourceFile

/-- The file that the grammar's reading of a text gives. -/
def ofParse (path : Path) (source : String) (parse : Parse) : SourceFile :=
  { path, source, tree := { parse.tree.lower source.toUTF8 with field := none } }

/-- The docstring above a line of the file. -/
def docstring (file : SourceFile) (line : Nat) : String :=
  Docstring.above file.source line

end SourceFile

end RouteCatalog
