import RouteCatalog.Command.Run
import RouteCatalog.Syntax.Outline

/-!
# The command

Reads a project from disk, runs the command over it and writes what it gives. The grammar runs
beforehand: beside every Ruby file `x.rb` stands `x.rb.outline`, the outline of its tree. A file
without an outline counts as empty.
-/

namespace RouteCatalog.Main

/-- The name of the outline of a file. -/
def outlineName (path : String) : String :=
  path ++ ".outline"

/-- The bytes of a file as a list. -/
def readBytes (path : String) : IO (List UInt8) := do
  return (← IO.FS.readBinFile path).data.toList

/-- Adds what a scan would visit below a path to a file tree. -/
partial def load (tree : Entry) (path : String) : IO Entry := do
  let place := System.mkFilePath [path]
  if ← place.isDir then
    let mut tree := (tree.addDirectory? (.ofString path)).getD tree
    for entry in ← place.readDir do
      unless Scan.isHidden (Text.encodeUtf8 entry.fileName) || entry.fileName == "vendor" do
        tree ← load tree (path ++ "/" ++ entry.fileName)
    return tree
  else if ← place.pathExists then
    return (tree.write? (.ofString path) (← readBytes path)).getD tree
  else
    return tree

/-- The readings of the files that have an outline, by their texts. -/
def loadReadings (files : List Path) : IO (List (String × Parse)) := do
  let mut readings := []
  for file in files do
    if let some path := file.text? then
      if ← (System.mkFilePath [outlineName path]).pathExists then
        let outline ← IO.FS.readFile (outlineName path)
        if let (some source, some parse) :=
            (Text.decodeUtf8? (← readBytes path), Outline.parse? outline) then
          readings := (source, parse) :: readings
  return readings

/-- The grammar that knows some readings, and takes every other text for an empty file. -/
def grammarOf (readings : List (String × Parse)) : Grammar := fun source =>
  (readings.lookup source).getD
    ⟨⟨"program", true, none, 0, source.utf8ByteSize, 0, []⟩, false⟩

/-- What is printed when the arguments are not carried out. -/
def usage : String :=
  "usage: routes [-f yaml|json] [-o FILE] [-s] [-v] PROJECT_PATH"

/-- Writes the output file of a successful run to disk. -/
def save (outcome : Command.Outcome) (output : Option Path) : IO Unit := do
  if let some path := output then
    if let (some name, some text) := (path.text?, outcome.tree.readText? path) then
      if let some parent := (System.mkFilePath [name]).parent then
        unless parent.toString.isEmpty do
          IO.FS.createDirAll parent
      IO.FS.writeFile name text

end RouteCatalog.Main

open RouteCatalog in
/-- Runs the command on its arguments: the exit code is 0 on success, 1 on failure and 2 for
arguments that are not carried out. -/
def main (arguments : List String) : IO UInt32 := do
  match Command.Arguments.read arguments with
  | .error .helpRequested => IO.println Main.usage; return 0
  | .error .versionRequested => IO.println "0.1.0"; return 0
  | .error _ => IO.eprintln Main.usage; return 2
  | .ok arguments =>
    let tree ← Main.load .empty arguments.project.display
    let readings ← Main.loadReadings (tree.scan arguments.project).files
    let outcome := Command.run (Main.grammarOf readings) tree arguments
    for line in outcome.log do
      IO.eprintln line.text
    match outcome.result with
    | .ok () =>
      IO.print outcome.stdout
      Main.save outcome arguments.output
      return 0
    | .error error =>
      IO.eprintln ("Error: " ++ error.message)
      return 1
