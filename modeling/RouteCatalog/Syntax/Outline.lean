import RouteCatalog.SourceFile
import RouteCatalog.Text.Numeral

/-!
# Outlines

An outline is a grammar's tree written as lines. The first line is `clean` or `errors`. Each other
line is a node in pre-order, as seven columns with a tab between them: its depth, its kind, `1` for
a construct and `0` for a bare token, its field or `-`, the offsets of its first byte and after its
last, and its row.
-/

namespace RouteCatalog.Outline

/-- The columns of a line. -/
def columns (line : List Char) : List String :=
  (line.splitOn '\t').map String.ofList

/-- The number that a column spells. -/
def number? (column : String) : Option Nat :=
  Text.readNat? 10 column.toList

/-- The depth and the node of a line, without its parts. -/
def row? (line : List Char) : Option (Nat × Concrete) :=
  match columns line with
  | [depth, kind, named, field, start, stop, row] => do
    return (← number? depth,
      { kind
        named := named == "1"
        field := if field == "-" then none else some field
        start := ← number? start
        stop := ← number? stop
        row := ← number? row
        children := [] })
  | _ => none

/-- Puts a node in front of the trees after it: those below its depth are its parts. -/
def attach (row : Nat × Concrete) (after : List (Nat × Concrete)) : List (Nat × Concrete) :=
  let below := after.takeWhile fun tree => row.1 < tree.1
  (row.1, { row.2 with children := below.map Prod.snd }) :: after.drop below.length

/-- The trees of rows in pre-order. -/
def forest (rows : List (Nat × Concrete)) : List (Nat × Concrete) :=
  rows.foldr attach []

/-- The reading that an outline writes down, if it is well formed and has one root. -/
def parse? (text : String) : Option Parse :=
  match Text.lines text.toList with
  | first :: rest => do
    let rows ← rest.mapM row?
    match forest rows with
    | [(_, tree)] => return { tree, hasError := String.ofList first == "errors" }
    | _ => none
  | [] => none

end RouteCatalog.Outline
