import RouteCatalog.Catalog.Order
import RouteCatalog.Catalog.Statistics

/-!
# The catalog document

The document presents a registry: a section for each namespace that owns records, in ascending
order, with its routes and handlers in order and listed by controller, and the statistics.
-/

namespace RouteCatalog

/-- An option of a record, under the heading of its kind of tag. -/
structure ConditionEntry where
  label : String
  /-- The key of the option, if the tag names one. -/
  name : Option String
  /-- The value of the option. -/
  text : String
  deriving DecidableEq, Repr, Inhabited

/-- A record as the document shows it. -/
structure CatalogEntry where
  /-- The name inside the namespace. -/
  identifier : String
  /-- The name as a reader would write it. -/
  name : String
  verb : String
  controller : Option String
  /-- The inspected arguments. -/
  args : List String
  conditions : List ConditionEntry
  /-- The heading of the records of this type. -/
  group : String
  file : Path
  line : Nat
  /-- The comment block above the declaration. -/
  docstring : String
  deriving DecidableEq, Repr, Inhabited

/-- The entries of one controller. -/
structure Listing where
  /-- The controller, empty for none. -/
  controller : String
  /-- Its entries, in order. -/
  entries : List CatalogEntry
  deriving DecidableEq, Repr, Inhabited

/-- The part of the document about one namespace. -/
structure Section where
  owner : String
  /-- Its routes by controller. -/
  routes : List Listing
  /-- Its handlers by controller. -/
  handlers : List Listing
  deriving DecidableEq, Repr, Inhabited

/-- The presentation of a registry. -/
structure Document where
  /-- A section for each namespace that owns records. -/
  sections : List Section
  statistics : List Statistic
  deriving DecidableEq, Repr, Inhabited

namespace Document

/-- The tags of a record that a library shows, under their headings. -/
def visibleTags (library : TagLibrary) (tags : List Tag) : List ConditionEntry :=
  (tags.filter fun tag => library.isVisible tag.kind).filterMap fun tag =>
    (library.definition? tag.kind).map fun definition =>
      { label := definition.label, name := tag.name, text := tag.text }

variable {R : Type} [Record R]

/-- The entry of a record. -/
def entry (library : TagLibrary) (record : R) : CatalogEntry :=
  let declaration := Record.declaration record
  { identifier := Record.identifier record
    name := Record.displayName record
    verb := Record.verbName record
    controller := declaration.controller
    args := declaration.args.map Literal.inspect
    conditions := visibleTags library declaration.tags
    group := Record.group R
    file := declaration.location.file
    line := declaration.location.line
    docstring := declaration.docstring }

/-- The listings of records that are in order. -/
def listings (library : TagLibrary) (records : List R) : List Listing :=
  (ControllerGroup.ofRecords records).map fun group =>
    { controller := group.controller, entries := group.records.map (entry library) }

/-- The section of a namespace, if it owns records. -/
def section? (registry : Registry) (path : String) : Option Section :=
  let routes := registry.routesIn path
  let handlers := registry.handlersIn path
  if routes.isEmpty && handlers.isEmpty then none
  else
    some
      { owner := path
        routes := listings registry.tags (Route.sort routes)
        handlers := listings registry.tags (Handler.sort handlers) }

/-- The document of a registry, with the counts of a reporter. -/
def build (registry : Registry) (reporter : Reporter) : Document :=
  let sections := registry.namespaces.filterMap fun space => section? registry space.path
  { sections := sections.mergeSort fun a b => (compare a.owner b.owner).isLE
    statistics := reporter.collect registry }

/-- The number of entries in listings. -/
def entryCount (listings : List Listing) : Nat :=
  (listings.flatMap Listing.entries).length

/-- The number of route entries. -/
def routeCount (document : Document) : Nat :=
  entryCount (document.sections.flatMap Section.routes)

/-- The number of handler entries. -/
def handlerCount (document : Document) : Nat :=
  entryCount (document.sections.flatMap Section.handlers)

end Document

end RouteCatalog
