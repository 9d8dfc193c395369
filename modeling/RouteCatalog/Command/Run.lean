import RouteCatalog.Command.Arguments
import RouteCatalog.Project.Build

/-!
# Running the command

The command checks the path of the project, builds the registry, and writes the catalog or the
statistics table to standard output or to a file of the file tree.
-/

namespace RouteCatalog.Command

/-- Why the command fails. -/
inductive CommandError where
  /-- The path of the project leads nowhere. -/
  | missingProject (path : Path)
  /-- The path of the project leads to a file. -/
  | projectIsFile (path : Path)
  /-- The project gives no registry. -/
  | project (error : ProjectError)
  /-- The catalog cannot be written in the format. -/
  | format (error : FormatError)
  /-- The output file cannot be written. -/
  | unwritable (path : Path)
  deriving DecidableEq, Repr, Inhabited

/-- The wording of the failure. -/
def CommandError.message : CommandError → String
  | missingProject path => "Project path does not exist: " ++ path.display
  | projectIsFile path => "Project path is not a directory: " ++ path.display
  | project error => error.message
  | format error => error.message
  | unwritable path => "IO error: cannot write to " ++ path.display

/-- What running the command leaves. -/
structure Outcome where
  /-- Whether the command succeeded. -/
  result : Except CommandError Unit
  log : List LogLine
  /-- What was written to standard output. -/
  stdout : String
  /-- The file tree afterwards. -/
  tree : Entry

/-- The log of the arguments, or why the path of the project is refused. -/
def validate (tree : Entry) (arguments : Arguments) : Except CommandError (List LogLine) :=
  match tree.locate arguments.project with
  | .error _ => .error (.missingProject arguments.project)
  | .ok (.file _ _) => .error (.projectIsFile arguments.project)
  | .ok (.directory _ _) =>
    .ok
      [.info (.projectPath arguments.project),
        .info (if arguments.stats then .statisticsTable else .outputFormat arguments.format),
        .info (match arguments.output with
          | some path => .outputFile path
          | none => .outputStdout)]

/-- What is to be written for a registry, and the log of making it. -/
def content (arguments : Arguments) (registry : Registry) :
    Except FormatError String × List LogLine :=
  if arguments.stats then (.ok (Reporter.standard.table registry), [])
  else
    ((Document.build registry .standard).render arguments.format,
      [.info (.serializing arguments.format)])

/-- The log of the end of a successful run. -/
def closing (registry : Registry) (summary : Summary) : List LogLine :=
  [.info .complete, .info .totals, .info (.namespaceTotal registry.namespaces.length),
    .info (.routeTotal summary.routes), .info (.handlerTotal summary.handlers)]

/-- Writes the output to its place. -/
def deliver (tree : Entry) (output : Option Path) (text : String) : Outcome :=
  match output with
  | none => ⟨.ok (), [], text ++ "\n", tree⟩
  | some path =>
    match tree.write? path (Text.encodeUtf8 text) with
    | some tree => ⟨.ok (), [.info (.writing path), .info (.wrote path)], "", tree⟩
    | none => ⟨.error (.unwritable path), [.info (.writing path)], "", tree⟩

/-- Runs the command after its arguments were accepted. -/
def generate (grammar : Grammar) (tree : Entry) (arguments : Arguments) : Outcome :=
  let build := Project.build grammar tree arguments.project
  let log := [.info .starting] ++ build.log
  match build.result with
  | .error error => ⟨.error (.project error), log, "", tree⟩
  | .ok (registry, summary) =>
    let (text, serializing) := content arguments registry
    let log := log ++ serializing
    match text with
    | .error error => ⟨.error (.format error), log, "", tree⟩
    | .ok text =>
      let delivery := deliver tree arguments.output text
      match delivery.result with
      | .error error => ⟨.error error, log ++ delivery.log, delivery.stdout, delivery.tree⟩
      | .ok () =>
        ⟨.ok (), log ++ delivery.log ++ closing registry summary, delivery.stdout, delivery.tree⟩

/-- Runs the command over a file tree. -/
def run (grammar : Grammar) (tree : Entry) (arguments : Arguments) : Outcome :=
  match validate tree arguments with
  | .error error => ⟨.error error, [], "", tree⟩
  | .ok log =>
    let outcome := generate grammar tree arguments
    { outcome with log := log ++ outcome.log }

end RouteCatalog.Command
