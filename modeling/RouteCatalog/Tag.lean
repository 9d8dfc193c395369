/-!
# Tags

A tag is a labelled note on a record. A `TagLibrary` says which kinds of tag exist, under which
heading each is shown, and which are shown at all.
-/

namespace RouteCatalog

/-- A note on a record. -/
structure Tag where
  /-- The kind of the note. -/
  kind : String
  /-- What the note is about, for the kinds that name it. -/
  name : Option String
  /-- What the note says. -/
  text : String
  deriving DecidableEq, Repr, Inhabited

/-- A kind of tag. -/
structure TagDefinition where
  /-- The heading above the tags of the kind. -/
  label : String
  /-- The name of the kind. -/
  name : String
  /-- Whether a tag of the kind says what it is about. -/
  withName : Bool
  deriving DecidableEq, Repr, Inhabited

/-- The kinds of tag of a catalog. -/
structure TagLibrary where
  /-- The defined kinds, in the order of their first definitions. -/
  definitions : List TagDefinition := []
  /-- The names of the kinds that are shown, in the order in which they were made visible. -/
  visible : List String := []
  deriving DecidableEq, Repr, Inhabited

/-- The kind of tag that carries one option of a declaration. -/
def Tag.condition : String :=
  "padrino.condition"

namespace TagLibrary

/-- Writes a definition in a row of definitions. -/
def insertDefinition (definition : TagDefinition) : List TagDefinition → List TagDefinition
  | [] => [definition]
  | first :: rest =>
    if first.name = definition.name then definition :: rest
    else first :: insertDefinition definition rest

/-- Defines a kind: in place of an earlier definition of its name, at the end otherwise. -/
def define (library : TagLibrary) (definition : TagDefinition) : TagLibrary :=
  { library with definitions := insertDefinition definition library.definitions }

/-- The definition of a name. -/
def definition? (library : TagLibrary) (name : String) : Option TagDefinition :=
  library.definitions.find? fun definition => definition.name == name

/-- Whether a name is defined. -/
def isDefined (library : TagLibrary) (name : String) : Bool :=
  (library.definition? name).isSome

/-- Whether the tags of a kind are shown. -/
def isVisible (library : TagLibrary) (name : String) : Bool :=
  library.visible.contains name

/-- Has the tags of a kind shown, whether or not the kind is defined yet. -/
def reveal (library : TagLibrary) (name : String) : TagLibrary :=
  if library.isVisible name then library
  else { library with visible := library.visible ++ [name] }

/-- Defines the condition tag and has it shown. -/
def addConditions (library : TagLibrary) : TagLibrary :=
  (library.define ⟨"Conditions", Tag.condition, true⟩).reveal Tag.condition

/-- The library that knows the condition tag only. -/
def standard : TagLibrary :=
  ({} : TagLibrary).addConditions

end TagLibrary

end RouteCatalog
