import RouteCatalog.Format.Json
import RouteCatalog.Format.Yaml.Block

/-!
# Output formats

The formats that a document is written in. Writing fails when a file path is not text.
-/

namespace RouteCatalog

/-- A format for documents. -/
inductive Format where
  | yaml
  | json
  deriving DecidableEq, Repr, Inhabited

/-- The name of the format as messages show it. -/
def Format.name : Format → String
  | yaml => "Yaml"
  | json => "Json"

/-- Why a document cannot be written in a format: a file path is not text. -/
structure FormatError where
  format : Format
  deriving DecidableEq, Repr, Inhabited

/-- The wording of the reason. -/
def FormatError.message (error : FormatError) : String :=
  let name :=
    match error.format with
    | .yaml => "YAML"
    | .json => "JSON"
  "Serialization error: " ++ name ++
    " serialization error: path contains invalid UTF-8 characters"

/-- A document in a format. -/
def Document.render (document : Document) (format : Format) : Except FormatError String :=
  match document.value? with
  | none => .error ⟨format⟩
  | some value =>
    match format with
    | .yaml => .ok (Yaml.render value)
    | .json => .ok (Json.render value)

end RouteCatalog
