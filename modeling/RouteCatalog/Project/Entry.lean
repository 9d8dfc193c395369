import RouteCatalog.Path

/-!
# File trees

An `Entry` is a file or a directory with all that it holds. Paths are followed segment by segment:
an empty segment or a single dot stays, two dots go up (and stay at the top), and any other segment
names an entry.
-/

namespace RouteCatalog

/-- A file or directory. -/
inductive Entry where
  /-- A file with its bytes. -/
  | file (name : Name) (content : List UInt8)
  /-- A directory with what it holds, in no particular order. -/
  | directory (name : Name) (entries : List Entry)
  deriving Repr, Inhabited

/-- Why a path leads nowhere. -/
inductive AccessError where
  /-- A segment names nothing. -/
  | notFound
  /-- The path goes on after a file. -/
  | notDirectory
  deriving DecidableEq, Repr, Inhabited

/-- The wording of the reason. -/
def AccessError.message : AccessError → String
  | notFound => "No such file or directory (os error 2)"
  | notDirectory => "Not a directory (os error 20)"

namespace Entry

/-- The name of an entry in its directory. -/
def name : Entry → Name
  | file name _ => name
  | directory name _ => name

/-- Whether an entry is a directory. -/
def isDirectory : Entry → Bool
  | file _ _ => false
  | directory _ _ => true

/-- The empty file tree. -/
def empty : Entry :=
  directory [] []

/-- The entry of a name among the entries of a directory. -/
def named? (entries : List Entry) (name : Name) : Option Entry :=
  entries.find? fun entry => entry.name == name

/-- Follows segments from an entry, given the directories above it from the nearest upwards. -/
def follow (above : List Entry) : Entry → List Name → Except AccessError Entry
  | entry, [] => .ok entry
  | file _ _, _ :: _ => .error .notDirectory
  | directory name entries, segment :: rest =>
    if segment = [] ∨ segment = Path.here then follow above (directory name entries) rest
    else if segment = Path.up then
      match above with
      | [] => follow [] (directory name entries) rest
      | parent :: above => follow above parent rest
    else
      match named? entries segment with
      | some entry => follow (directory name entries :: above) entry rest
      | none => .error .notFound

/-- The entry that a path leads to. -/
def locate (tree : Entry) (path : Path) : Except AccessError Entry :=
  if path.bytes = [] then .error .notFound else follow [] tree path.segments

/-- The bytes of the file that a path leads to. -/
def read? (tree : Entry) (path : Path) : Option (List UInt8) :=
  match tree.locate path with
  | .ok (file _ content) => some content
  | _ => none

/-- The text of the file that a path leads to. -/
def readText? (tree : Entry) (path : Path) : Option String :=
  (tree.read? path).bind Text.decodeUtf8?

/-! ## Changes

A change names its place by the names from the top of the tree, without dots. -/

/-- The entry at a place. -/
def find? : Entry → List Name → Option Entry
  | entry, [] => some entry
  | file _ _, _ :: _ => none
  | directory _ entries, name :: rest => (named? entries name).bind fun entry => find? entry rest

/-- Puts an entry among others, in place of one of the same name. -/
def replaceIn (entry : Entry) : List Entry → List Entry
  | [] => [entry]
  | first :: rest =>
    if first.name = entry.name then entry :: rest else first :: replaceIn entry rest

/-- Puts an entry into the directory at a place. -/
def put (entry : Entry) : Entry → List Name → Entry
  | file name content, _ => file name content
  | directory name entries, [] => directory name (replaceIn entry entries)
  | directory name entries, first :: rest =>
    directory name <|
      entries.map fun child => if child.name = first then put entry child rest else child

/-- Makes the directories along steps from a place, where they are missing: the tree after it, and
the place that the steps lead to. Fails at a file. -/
def makeDirectories (tree : Entry) (place : List Name) : List Name → Option (Entry × List Name)
  | [] => some (tree, place)
  | step :: rest =>
    if step = Path.up then makeDirectories tree place.dropLast rest
    else
      let next := place ++ [step]
      match tree.find? next with
      | some (directory _ _) => makeDirectories tree next rest
      | some (file _ _) => none
      | none => makeDirectories (put (directory step []) tree place) next rest

/-- Makes the directory that a path names, and those on the way to it. -/
def addDirectory? (tree : Entry) (path : Path) : Option Entry :=
  (tree.makeDirectories [] path.steps).map Prod.fst

/-- Writes the file that a path names, and makes the directories on the way to it. Fails when the
path does not end in a name, or names a directory. -/
def write? (tree : Entry) (path : Path) (content : List UInt8) : Option Entry := do
  let name ← path.segments.getLast?
  if name = [] ∨ name = Path.here ∨ name = Path.up then none
  else
    let (tree, place) ← tree.makeDirectories [] path.steps.dropLast
    match tree.find? (place ++ [name]) with
    | some (directory _ _) => none
    | _ => some (put (file name content) tree place)

end Entry

end RouteCatalog
