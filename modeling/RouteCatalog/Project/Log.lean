import RouteCatalog.Extraction.Walk
import RouteCatalog.Format

/-!
# The log of a run

A run reports its progress by notices and what is amiss by warnings.
-/

namespace RouteCatalog

/-- A report of progress. -/
inductive Notice where
  | projectPath (path : Path)
  | statisticsTable
  | outputFormat (format : Format)
  | outputFile (path : Path)
  | outputStdout
  | starting
  | scanning
  | found (files : Nat)
  | parsing
  | parsed (files : Nat)
  | extracting
  | extracted (summary : Summary)
  | serializing (format : Format)
  | writing (path : Path)
  | wrote (path : Path)
  | complete
  | totals
  | namespaceTotal (count : Nat)
  | routeTotal (count : Nat)
  | handlerTotal (count : Nat)
  deriving DecidableEq, Repr, Inhabited

/-- The wording of the report. -/
def Notice.message : Notice → String
  | projectPath path => "Project path: " ++ path.display
  | statisticsTable => "Output: statistics table"
  | outputFormat format => "Output format: " ++ format.name
  | outputFile path => "Output file: " ++ path.display
  | outputStdout => "Output: stdout"
  | starting => "Starting catalog generation..."
  | scanning => "Scanning project directory..."
  | found files => "Found " ++ Text.natText files ++ " Ruby files"
  | parsing => "Parsing Ruby files..."
  | parsed files => "Successfully parsed " ++ Text.natText files ++ " files"
  | extracting => "Extracting declarations..."
  | extracted summary =>
    "Extracted " ++ Text.natText summary.routes ++ " routes and " ++ Text.natText summary.handlers ++
      " handlers (" ++ Text.natText summary.skipped ++ " skipped)"
  | serializing format => "Serializing to " ++ format.name ++ " format..."
  | writing path => "Writing output to: " ++ path.display
  | wrote path => "Successfully wrote catalog to " ++ path.display
  | complete => "Generation complete!"
  | totals => "Summary:"
  | namespaceTotal count => "  - Namespaces: " ++ Text.natText count
  | routeTotal count => "  - Routes found: " ++ Text.natText count
  | handlerTotal count => "  - Handlers found: " ++ Text.natText count

/-- A line of the log. -/
inductive LogLine where
  /-- A report of progress. -/
  | info (notice : Notice)
  /-- A report of something amiss. -/
  | warn (warning : Warning)
  deriving DecidableEq, Repr, Inhabited

/-- The line with its level in front. -/
def LogLine.text : LogLine → String
  | info notice => "INFO " ++ notice.message
  | warn warning => "WARN " ++ warning.message

end RouteCatalog
