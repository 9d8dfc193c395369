import RouteCatalog.Namespace
import RouteCatalog.Warning

/-!
# The registry

A `Registry` holds the namespaces, routes and handlers of a catalog in the order in which they were
registered, and only ever grows at the end of one of these lists. A path is held by one record: a
second route of the same path is reported and left out. What can be refused gives the registry after
it beside its result, also when it is refused.
-/

namespace RouteCatalog

/-- Everything that a catalog knows. -/
structure Registry where
  /-- The kinds of tag that records may carry. -/
  tags : TagLibrary
  /-- The namespaces, the root first. -/
  namespaces : List Namespace
  routes : List Route
  handlers : List Handler
  /-- The paths that records hold. -/
  paths : List String
  /-- The next serial number of a handler. -/
  nextSerial : Nat
  deriving DecidableEq, Repr, Inhabited

/-- What became of a record. -/
inductive Registration where
  | added
  /-- The same declaration was there before. -/
  | duplicate
  /-- Another declaration holds the path; it is given if it is a route. -/
  | collision (holder : Option Route)
  deriving DecidableEq, Repr, Inhabited

namespace Registry

/-- The registry that holds the root namespace only. -/
def ofTags (tags : TagLibrary) : Registry :=
  { tags, namespaces := [.root], routes := [], handlers := [], paths := [], nextSerial := 0 }

/-- The registry that holds the root namespace only and knows the condition tag. -/
def empty : Registry :=
  ofTags .standard

/-- The namespace of a path. -/
def namespace? (registry : Registry) (path : String) : Option Namespace :=
  registry.namespaces.find? fun space => space.path == path

/-- Fails unless a namespace is registered. -/
def requireNamespace (registry : Registry) (path : String) : Except RegistryError Unit :=
  if (registry.namespace? path).isSome then .ok () else .error (.unknownNamespace path)

/-- Fails unless the namespace of a declaration is registered and its tags are defined. -/
def check (registry : Registry) (declaration : Declaration) : Except RegistryError Unit := do
  registry.requireNamespace declaration.owner
  match declaration.tags.find? fun tag => !registry.tags.isDefined tag.kind with
  | some tag => .error (.unknownTag tag.kind)
  | none => .ok ()

/-- Adds a namespace unless its path is registered. -/
def addNamespace (registry : Registry) (space : Namespace) : Registry :=
  if (registry.namespace? space.path).isSome then registry
  else { registry with namespaces := registry.namespaces ++ [space] }

/-- Registers a name written under a parent: its path or the refusal, and the registry after it. -/
def registerNamespace (registry : Registry) (parent name : String) (kind : NamespaceKind)
    (location : Location) : Except RegistryError String × Registry :=
  match registry.requireNamespace parent with
  | .error error => (.error error, registry)
  | .ok () =>
    match Namespace.resolve? parent name with
    | some path => (.ok path, registry.addNamespace ⟨path, kind, some location⟩)
    | none => (.error (.malformedNamespace parent name), registry)

/-- Takes the next serial number. -/
def takeSerial (registry : Registry) : Nat × Registry :=
  (registry.nextSerial, { registry with nextSerial := registry.nextSerial + 1 })

/-- The first route that holds a path. -/
def holder? (registry : Registry) (path : String) : Option Route :=
  registry.routes.find? fun route => Record.path route == path

/-- Registers a route: what became of it or the refusal, and the registry after it. -/
def registerRoute (registry : Registry) (route : Route) :
    Except RegistryError Registration × Registry :=
  match registry.check route.toDeclaration with
  | .error error => (.error error, registry)
  | .ok () =>
    let path := Record.path route
    if path ∈ registry.paths then
      match registry.holder? path with
      | some first =>
        if first.args = route.args ∧ first.controller = route.controller then
          (.ok .duplicate, registry)
        else
          (.ok (.collision (some first)), registry)
      | none => (.ok (.collision none), registry)
    else
      (.ok .added,
        { registry with routes := registry.routes ++ [route], paths := path :: registry.paths })

/-- Registers a handler: what became of it or the refusal, and the registry after it. -/
def registerHandler (registry : Registry) (handler : Handler) :
    Except RegistryError Registration × Registry :=
  match registry.check handler.toDeclaration with
  | .error error => (.error error, registry)
  | .ok () =>
    let path := Record.path handler
    if path ∈ registry.paths then
      (.ok .duplicate, registry)
    else
      (.ok .added,
        { registry with
          handlers := registry.handlers ++ [handler], paths := path :: registry.paths })

/-- The routes of a namespace. -/
def routesIn (registry : Registry) (path : String) : List Route :=
  registry.routes.filter fun route => route.owner == path

/-- The handlers of a namespace. -/
def handlersIn (registry : Registry) (path : String) : List Handler :=
  registry.handlers.filter fun handler => handler.owner == path

end Registry

/-- What a route that was not added is reported as. -/
def Registration.warning? (registration : Registration) (route : Route) : Option Warning :=
  match registration with
  | .added => none
  | .duplicate => some (.repeated (Record.displayName route) route.location)
  | .collision holder =>
    some (.sharedPath (Record.displayName route) route.location (holder.map Record.displayName)
      (Record.path route))

end RouteCatalog
