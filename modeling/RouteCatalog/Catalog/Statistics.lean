import RouteCatalog.Registry.Basic

/-!
# Statistics

A reporter asks each of its counters about a registry. `Reporter.standard` counts handlers and
routes, and how many of them have no documentation.
-/

namespace RouteCatalog

/-- A named count. -/
structure Statistic where
  name : String
  /-- How many there are. -/
  total : Nat
  /-- How many of them have no documentation. -/
  undocumented : Nat
  deriving DecidableEq, Repr, Inhabited

namespace Statistic

/-- The count of the given records. -/
def ofRecords {R : Type} [Record R] (name : String) (records : List R) : Statistic :=
  { name
    total := records.length
    undocumented := records.countP fun record => !(Record.declaration record).isDocumented }

/-- A text with spaces after it up to a width. -/
def padAfter (width : Nat) (text : String) : String :=
  text ++ String.ofList (List.replicate (width - text.length) ' ')

/-- A number with spaces in front of it up to a width. -/
def padBefore (width n : Nat) : String :=
  let text := Text.natText n
  String.ofList (List.replicate (width - text.length) ' ') ++ text

/-- One line of the statistics table. -/
def line (statistic : Statistic) : String :=
  padAfter 21 (statistic.name ++ ":") ++ " " ++ padBefore 6 statistic.total ++
    if statistic.undocumented > 0 then
      " (" ++ padBefore 5 statistic.undocumented ++ " undocumented)"
    else ""

end Statistic

/-- A source of counts. -/
abbrev Counter := Registry → List Statistic

/-- The sources of counts that a report asks, in order. -/
structure Reporter where
  counters : List Counter := []

namespace Reporter

/-- Counts handlers and routes. -/
def records : Counter := fun registry =>
  [.ofRecords "P) Handlers" registry.handlers, .ofRecords "P) Routes" registry.routes]

/-- The reporter that counts handlers and routes. -/
def standard : Reporter :=
  ⟨[records]⟩

/-- All counts of a registry. -/
def collect (reporter : Reporter) (registry : Registry) : List Statistic :=
  reporter.counters.flatMap fun counter => counter registry

/-- The counts of a registry as a table, one line for each. -/
def table (reporter : Reporter) (registry : Registry) : String :=
  "\n".intercalate ((reporter.collect registry).map Statistic.line)

end Reporter

end RouteCatalog
