import RouteCatalog.Catalog.Document

/-!
# Data values

A `Value` is what a data format can write: texts, numbers, sequences, and mappings whose fields
keep their order. `Document.value?` gives a document as a value; a field without content is left
out. It fails when a file path is not text.
-/

namespace RouteCatalog

/-- What a data format can write. -/
inductive Value where
  | text (content : String)
  | number (n : Nat)
  /-- Values in order. -/
  | sequence (items : List Value)
  /-- Named values in order. -/
  | mapping (fields : List (String × Value))
  deriving Repr, Inhabited

namespace Value

/-- A field, left out if there is no text for it. -/
def optionalField (name : String) (content : Option String) : List (String × Value) :=
  match content with
  | some content => [(name, text content)]
  | none => []

/-- A sequence as a field, left out if it is empty. -/
def sequenceField (name : String) (items : List Value) : List (String × Value) :=
  if items.isEmpty then [] else [(name, sequence items)]

end Value

/-- An option of a record as a value. -/
def ConditionEntry.value (condition : ConditionEntry) : Value :=
  .mapping <|
    [("label", Value.text condition.label)] ++ Value.optionalField "name" condition.name ++
      [("text", Value.text condition.text)]

/-- An entry as a value, if its file path is text. -/
def CatalogEntry.value? (entry : CatalogEntry) : Option Value := do
  let file ← entry.file.text?
  return .mapping <|
    [("identifier", Value.text entry.identifier), ("name", Value.text entry.name),
        ("verb", Value.text entry.verb)] ++
      Value.optionalField "controller" entry.controller ++
      [("args", Value.sequence (entry.args.map Value.text))] ++
      Value.sequenceField "conditions" (entry.conditions.map ConditionEntry.value) ++
      [("group", Value.text entry.group), ("file", Value.text file),
        ("line", Value.number entry.line)] ++
      Value.optionalField "docstring"
        (if entry.docstring.isEmpty then none else some entry.docstring)

/-- A listing as a value, if its file paths are text. -/
def Listing.value? (listing : Listing) : Option Value := do
  let entries ← listing.entries.mapM CatalogEntry.value?
  return .mapping
    [("controller", Value.text listing.controller), ("entries", Value.sequence entries)]

/-- A section as a value, if its file paths are text. -/
def Section.value? (part : Section) : Option Value := do
  let routes ← part.routes.mapM Listing.value?
  let handlers ← part.handlers.mapM Listing.value?
  return .mapping <|
    [("namespace", Value.text part.owner)] ++ Value.sequenceField "routes" routes ++
      Value.sequenceField "handlers" handlers

/-- A count as a value. -/
def Statistic.value (statistic : Statistic) : Value :=
  .mapping
    [("name", Value.text statistic.name), ("total", Value.number statistic.total),
      ("undocumented", Value.number statistic.undocumented)]

/-- A document as a value, if its file paths are text. -/
def Document.value? (document : Document) : Option Value := do
  let sections ← document.sections.mapM Section.value?
  return .mapping
    [("namespaces", Value.sequence sections),
      ("statistics", Value.sequence (document.statistics.map Statistic.value))]

end RouteCatalog
