import RouteCatalog.Record

/-!
# Order of records

Records are ordered by namespace and then by controller, no controller counting as the empty one.
Routes then go by arguments and by falling rank of the verb, so that the verbs of one path stand
together; handlers go by falling rank first. Sorting keeps records that are equal in all of this
in their order. `ControllerGroup.ofRecords` collects the records of each controller.
-/

namespace RouteCatalog

/-- Compares by falling rank of the verb. -/
def compareRank {R : Type} [Record R] (a b : R) : Ordering :=
  compare (Record.priority b) (Record.priority a)

/-- The order of routes. -/
def Route.order : Route → Route → Ordering :=
  compareLex (compareOn fun route => route.owner)
    (compareLex (compareOn fun route => route.controllerKey)
      (compareLex (compareOn fun route => route.argsText) compareRank))

/-- The order of handlers. -/
def Handler.order : Handler → Handler → Ordering :=
  compareLex (compareOn fun handler => handler.owner)
    (compareLex (compareOn fun handler => handler.controllerKey)
      (compareLex compareRank (compareOn fun handler => handler.argsText)))

/-- Routes in order. -/
def Route.sort (routes : List Route) : List Route :=
  routes.mergeSort fun a b => (Route.order a b).isLE

/-- Handlers in order. -/
def Handler.sort (handlers : List Handler) : List Handler :=
  handlers.mergeSort fun a b => (Handler.order a b).isLE

/-- The records of one controller. -/
structure ControllerGroup (R : Type) where
  /-- The controller, empty for none. -/
  controller : String
  records : List R
  deriving DecidableEq, Repr, Inhabited

namespace ControllerGroup

variable {R : Type} [Record R]

/-- Adds a record to groups in ascending order of their controllers: at the end of the group of its
controller, which is made if it is not there. -/
def insert (groups : List (ControllerGroup R)) (record : R) : List (ControllerGroup R) :=
  let controller := (Record.declaration record).controllerKey
  match groups with
  | [] => [⟨controller, [record]⟩]
  | group :: rest =>
    match compare controller group.controller with
    | .lt => ⟨controller, [record]⟩ :: group :: rest
    | .eq => ⟨group.controller, group.records ++ [record]⟩ :: rest
    | .gt => group :: insert rest record

/-- The records by controller, in ascending order of the controllers. -/
def ofRecords (records : List R) : List (ControllerGroup R) :=
  records.foldl insert []

end ControllerGroup

end RouteCatalog
