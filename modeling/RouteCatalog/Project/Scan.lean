import RouteCatalog.Project.Entry
import RouteCatalog.Warning

/-!
# Scanning a project

A scan finds the Ruby files below a root. It passes over what is hidden and over directories of
bundled code, the root itself excepted, and visits the entries of a directory in ascending order of
their names.
-/

namespace RouteCatalog

/-- What a scan finds. -/
structure Scan where
  /-- The files, in the order of the visit. -/
  files : List Path
  /-- What could not be visited. -/
  warnings : List Warning
  deriving DecidableEq, Repr, Inhabited

namespace Scan

/-- The name of the directories of bundled code. -/
def vendor : Name :=
  Text.encodeUtf8 "vendor"

/-- The ending of a Ruby file. -/
def rubyEnding : Name :=
  Text.encodeUtf8 ".rb"

/-- Whether a name is hidden: it starts with a dot. -/
def isHidden (name : Name) : Bool :=
  name.head? == some 0x2E

/-- Whether a name is that of a Ruby file: something and the ending. -/
def isRuby (name : Name) : Bool :=
  rubyEnding.isSuffixOf name && rubyEnding.length < name.length

/-- Whether a scan passes over an entry. -/
def isSkipped (entry : Entry) : Bool :=
  isHidden entry.name || (entry.isDirectory && entry.name == vendor)

/-- The rows of names and files in ascending order of the names. -/
def inNameOrder (rows : List (Name × List Path)) : List Path :=
  (rows.mergeSort fun a b => (compare a.1 b.1).isLE).flatMap Prod.snd

mutual

/-- The Ruby files of an entry at a path. -/
def filesAt (path : Path) : Entry → List Path
  | .file name _ => if isRuby name then [path] else []
  | .directory _ entries => inNameOrder (filesBelow path entries)

/-- The Ruby files of each entry of a directory at a path. -/
def filesBelow (path : Path) : List Entry → List (Name × List Path)
  | [] => []
  | entry :: rest =>
    if isSkipped entry then filesBelow path rest
    else (entry.name, filesAt (path.join entry.name) entry) :: filesBelow path rest

end

end Scan

/-- Scans a file tree from a root. -/
def Entry.scan (tree : Entry) (root : Path) : Scan :=
  match tree.locate root with
  | .ok entry => ⟨Scan.filesAt root entry, []⟩
  | .error error => ⟨[], [.inaccessible root error.message]⟩

end RouteCatalog
