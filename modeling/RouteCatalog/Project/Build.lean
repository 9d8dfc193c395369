import RouteCatalog.Project.Log
import RouteCatalog.Project.Scan

/-!
# Building a registry from a project

A project is scanned, its files are read with a grammar, and their declarations are registered in
the order of the scan. A file that is no text is passed over; a file whose extraction stops keeps
what it registered, but is not counted.
-/

namespace RouteCatalog

/-- Why a project gives no registry. -/
inductive ProjectError where
  /-- The scan found no file. -/
  | noFiles
  /-- No file that was found could be read. -/
  | nothingParsed
  deriving DecidableEq, Repr, Inhabited

/-- The wording of the reason. -/
def ProjectError.message : ProjectError → String
  | noFiles => "No Ruby files found in the project directory"
  | nothingParsed => "No files could be parsed successfully"

namespace Project

/-- A file of a project, read with the grammar if it is text, and what is reported about it. -/
def readFile (grammar : Grammar) (tree : Entry) (path : Path) :
    Option SourceFile × List Warning :=
  match tree.readText? path with
  | some source =>
    let parse := grammar source
    (some (.ofParse path source parse), parse.warnings path)
  | none => (none, [.unreadable path])

/-- The registry of some files of a project, with their counts and warnings. -/
structure Progress where
  registry : Registry := .empty
  /-- The counts of the files whose extraction did not stop. -/
  summary : Summary := {}
  warnings : List Warning := []
  deriving Inhabited

/-- Adds the declarations of one file. -/
def Progress.add (progress : Progress) (file : SourceFile) : Progress :=
  let extraction := file.extract progress.registry
  let warnings := progress.warnings ++ extraction.warnings
  match extraction.result with
  | .ok summary => ⟨extraction.registry, progress.summary + summary, warnings⟩
  | .error error =>
    ⟨extraction.registry, progress.summary, warnings ++ [.stopped file.path error]⟩

/-- The registry of files in order, with their counts and warnings. -/
def extractAll (files : List SourceFile) : Progress :=
  files.foldl Progress.add {}

/-- What building a registry leaves. -/
structure Build where
  /-- The registry and the counts, or why there is none. -/
  result : Except ProjectError (Registry × Summary)
  log : List LogLine

/-- The log of warnings. -/
def warnAll (warnings : List Warning) : List LogLine :=
  warnings.map .warn

/-- The registry of files that were read, and the log of making it. -/
def buildFiles (files : List SourceFile) : Build :=
  let progress := extractAll files
  let summary := progress.summary
  { result := .ok (progress.registry, summary)
    log :=
      [.info .extracting] ++ warnAll progress.warnings ++ [.info (.extracted summary)] ++
        if summary.routes = 0 ∧ summary.handlers = 0 then [.warn .nothingFound] else [] }

/-- The registry of the project below a root, and the log of making it. -/
def build (grammar : Grammar) (tree : Entry) (root : Path) : Build :=
  let scan := tree.scan root
  let found :=
    [.info .scanning] ++ warnAll scan.warnings ++ [.info (.found scan.files.length)] ++
      warnAll scan.warnings
  if scan.files.isEmpty then ⟨.error .noFiles, found⟩
  else
    let reads := scan.files.map (readFile grammar tree)
    let files := reads.filterMap Prod.fst
    let read :=
      found ++ [.info .parsing] ++ warnAll (reads.flatMap Prod.snd) ++
        [.info (.parsed files.length)]
    if files.isEmpty then ⟨.error .nothingParsed, read⟩
    else
      let rest := buildFiles files
      ⟨rest.result, read ++ rest.log⟩

end Project

end RouteCatalog
