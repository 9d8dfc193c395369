import RouteCatalog.Format.Value
import RouteCatalog.Format.Yaml.Scalar

/-!
# Blocks

Values as YAML in block form. A value is written as lines; what stands inside another value is
indented by two columns, except that the dashes of a sequence stand at the column of its key. An
empty line stays empty.
-/

namespace RouteCatalog.Yaml

/-- A line indented by two columns; an empty line stays empty. -/
def indent (line : List Char) : List Char :=
  if line.isEmpty then [] else ' ' :: ' ' :: line

/-- Lines that continue a line: the first joins it, the others are indented below. -/
def continueLine (start : List Char) : List (List Char) → List (List Char)
  | [] => [start]
  | first :: rest => (start ++ first) :: rest.map indent

mutual

/-- The lines of a value. -/
def valueLines : Value → List (List Char)
  | .text content => scalarLines content
  | .number n => [(Text.natText n).toList]
  | .sequence [] => [['[', ']']]
  | .sequence (item :: rest) => itemLines (item :: rest)
  | .mapping [] => [['\x7b', '\x7d']]
  | .mapping (field :: rest) => fieldLines (field :: rest)

/-- The lines of the items of a sequence, each after a dash. -/
def itemLines : List Value → List (List Char)
  | [] => []
  | item :: rest => continueLine ['-', ' '] (valueLines item) ++ itemLines rest

/-- The lines of the fields of a mapping, each after its name. A sequence with items and a mapping
with fields start on the next line. -/
def fieldLines : List (String × Value) → List (List Char)
  | [] => []
  | (name, value) :: rest =>
    let lines := valueLines value
    let field :=
      match value with
      | .sequence (_ :: _) => (name.toList ++ [':']) :: lines
      | .mapping (_ :: _) => (name.toList ++ [':']) :: lines.map indent
      | _ => continueLine (name.toList ++ [':', ' ']) lines
    field ++ fieldLines rest

end

/-- A value as a YAML text, every line with a line break at its end. -/
def render (value : Value) : String :=
  String.ofList ((valueLines value).flatMap fun line => line ++ ['\n'])

end RouteCatalog.Yaml
