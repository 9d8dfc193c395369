import RouteCatalog.Literal.Reader
import RouteCatalog.Record

/-!
# Refusals and warnings

Why a registry refuses a namespace or a record, and what a run reports without stopping.
-/

namespace RouteCatalog

/-- Why a registry refuses something. -/
inductive RegistryError where
  /-- A name that is no sequence of words, under the namespace where it was written. -/
  | malformedNamespace (parent name : String)
  /-- A namespace that was never registered. -/
  | unknownNamespace (path : String)
  /-- A kind of tag that the tag library does not define. -/
  | unknownTag (kind : String)
  deriving DecidableEq, Repr, Inhabited

/-- The wording of the refusal. -/
def RegistryError.message : RegistryError → String
  | malformedNamespace parent name =>
    "Malformed namespace name '" ++ name ++ "' under '" ++ parent ++ "'"
  | unknownNamespace path => "Namespace not registered: '" ++ path ++ "'"
  | unknownTag kind => "Tag kind not defined: " ++ kind

/-- Something that a run reports and goes on. -/
inductive Warning where
  /-- A route that was declared before in the same words. -/
  | repeated (name : String) (location : Location)
  /-- A route whose path another route holds, which may be known by name. -/
  | sharedPath (name : String) (location : Location) (holder : Option String) (path : String)
  /-- A route whose path argument is dynamic. -/
  | dynamicRoute (location : Location) (reason : Dynamic)
  /-- A route without arguments. -/
  | pathlessRoute (location : Location)
  /-- A file with syntax errors. -/
  | syntaxErrors (file : Path)
  /-- A place of the project that cannot be visited, with the reason. -/
  | inaccessible (place : Path) (reason : String)
  /-- A file whose content is no text. -/
  | unreadable (file : Path)
  /-- A file whose extraction ended early. -/
  | stopped (file : Path) (error : RegistryError)
  /-- A project that declares nothing. -/
  | nothingFound
  deriving DecidableEq, Repr, Inhabited

/-- The wording of the report. -/
def Warning.message : Warning → String
  | repeated name location =>
    "Route " ++ name ++ " at " ++ location.display ++
      " repeats an earlier declaration; keeping the first"
  | sharedPath name location holder path =>
    "Route " ++ name ++ " at " ++ location.display ++ " has the same identifier as " ++
      holder.getD "an earlier route" ++ " (" ++ path ++ "); keeping the first"
  | dynamicRoute location reason =>
    "Undocumentable route at " ++ location.display ++ ": " ++ reason.message
  | pathlessRoute location => "Route without a path at " ++ location.display
  | syntaxErrors file =>
    file.display ++ " contains syntax errors; extracting what can be recognised"
  | inaccessible place reason =>
    "Failed to access path: IO error for operation on " ++ place.display ++ ": " ++ reason
  | unreadable file =>
    "Failed to parse " ++ file.display ++ ": Failed to read file: " ++ file.display
  | stopped file error => "Stopped extracting " ++ file.display ++ ": " ++ error.message
  | nothingFound => "No routes or handlers found in the project"

end RouteCatalog
