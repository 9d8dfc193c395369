import Mathlib.Data.List.Nodup
import RouteCatalog.Proofs.Registry.Names
import RouteCatalog.Registry.Basic

/-!
# The invariant of the registry

An `Operation` is one call of the registry by its users, and `Registry.run` makes calls in order,
each on the registry that the one before it left, refused or not. What is refused and what is added
is said once for each call, together with the registry after it (`Registry.registerRoute_of_admits`,
`Registry.registerRoute_of_not_admits` and their siblings). `Registry.Step` says what a call can
change: nothing, the serial number, or one of the three lists, by one element at its end that was
not there before. From it follows that every registry that a run reaches is well formed
(`Registry.WellFormed`): the root stands first, namespaces are distinct and named by paths, every
record is owned and carries defined tags only, and the paths that the registry holds are those of
its records, each held once.
-/

namespace RouteCatalog

/-- One call of a registry. -/
inductive Operation where
  | openNamespace (parent name : String) (kind : NamespaceKind) (location : Location)
  | addRoute (route : Route)
  | addHandler (handler : Handler)
  | takeSerial
  deriving DecidableEq, Repr, Inhabited

/-! ### Tags -/

/-- Whether a library defines every tag that options give. -/
def TagLibrary.covers (library : TagLibrary) (conditions : Conditions) : Bool :=
  library.isDefined Tag.condition || conditions.entries.isEmpty

theorem Declaration.kind_of_mem_tags {declaration : Declaration} {tag : Tag}
    (htag : tag ∈ declaration.tags) : tag.kind = Tag.condition := by
  obtain ⟨entry, -, rfl⟩ := List.mem_map.1 htag
  rfl

theorem TagLibrary.covers_iff {library : TagLibrary} {declaration : Declaration} :
    library.covers declaration.conditions = true ↔
      ∀ tag ∈ declaration.tags, library.isDefined tag.kind = true := by
  rw [covers, Bool.or_eq_true, List.isEmpty_iff]
  constructor
  · rintro (hdefined | hnone) tag htag
    · rwa [Declaration.kind_of_mem_tags htag]
    · simp [Declaration.tags, hnone] at htag
  · intro hdefined
    by_cases hnone : declaration.conditions.entries = []
    · exact .inr hnone
    · obtain ⟨entry, hentry⟩ := List.exists_mem_of_ne_nil _ hnone
      exact .inl (hdefined _ (List.mem_map_of_mem hentry))

namespace Registry

/-- The registry that a call leaves, whether or not the call is refused. -/
def apply (registry : Registry) : Operation → Registry
  | .openNamespace parent name kind location =>
    (registry.registerNamespace parent name kind location).2
  | .addRoute route => (registry.registerRoute route).2
  | .addHandler handler => (registry.registerHandler handler).2
  | .takeSerial => registry.takeSerial.2

/-- The registry after calls in order. -/
def run (registry : Registry) (operations : List Operation) : Registry :=
  operations.foldl apply registry

/-- The paths of the registered namespaces. -/
def owners (registry : Registry) : List String :=
  registry.namespaces.map Namespace.path

/-- The paths of the stored records, routes first. -/
def recordPaths (registry : Registry) : List String :=
  registry.routes.map Record.path ++ registry.handlers.map Record.path

/-- The namespace of a declaration is registered and its tags are defined. -/
def Admits (registry : Registry) (declaration : Declaration) : Prop :=
  declaration.owner ∈ registry.owners ∧
    ∀ tag ∈ declaration.tags, registry.tags.isDefined tag.kind = true

/-! ### What the registry checks -/

theorem namespace?_isSome_iff {registry : Registry} {path : String} :
    (registry.namespace? path).isSome = true ↔ path ∈ registry.owners := by
  simp [namespace?, owners]

theorem requireNamespace_eq_ok_iff {registry : Registry} {path : String} :
    registry.requireNamespace path = .ok () ↔ path ∈ registry.owners := by
  rw [requireNamespace, ← namespace?_isSome_iff]
  split <;> simp_all

theorem registerNamespace_of_owned {registry : Registry} {parent : String}
    (hparent : parent ∈ registry.owners) (name : String) (kind : NamespaceKind)
    (location : Location) :
    registry.registerNamespace parent name kind location =
      match Namespace.resolve? parent name with
      | some path => (.ok path, registry.addNamespace ⟨path, kind, some location⟩)
      | none => (.error (.malformedNamespace parent name), registry) := by
  have hrequire := requireNamespace_eq_ok_iff.2 hparent
  cases hresolve : Namespace.resolve? parent name <;>
    simp only [registerNamespace, hrequire, hresolve]

theorem registerNamespace_of_not_owned {registry : Registry} {parent : String}
    (hparent : parent ∉ registry.owners) (name : String) (kind : NamespaceKind)
    (location : Location) :
    registry.registerNamespace parent name kind location =
      (.error (.unknownNamespace parent), registry) := by
  have hrequire : registry.requireNamespace parent = .error (.unknownNamespace parent) :=
    if_neg (mt namespace?_isSome_iff.1 hparent)
  rw [registerNamespace, hrequire]

theorem addNamespace_eq (registry : Registry) (space : Namespace) :
    registry.addNamespace space =
      { registry with
        namespaces := if space.path ∈ registry.owners then registry.namespaces
          else registry.namespaces ++ [space] } := by
  unfold addNamespace
  by_cases hheld : space.path ∈ registry.owners
  · rw [if_pos (namespace?_isSome_iff.2 hheld), if_pos hheld]
  · rw [if_neg (mt namespace?_isSome_iff.1 hheld), if_neg hheld]

theorem mem_owners_addNamespace {registry : Registry} {space : Namespace} {path : String} :
    path ∈ (registry.addNamespace space).owners ↔ path ∈ registry.owners ∨ path = space.path := by
  rw [addNamespace_eq, owners]
  by_cases hheld : space.path ∈ registry.owners
  · rw [if_pos hheld]
    exact ⟨.inl, fun hpath => hpath.elim id fun heq => heq ▸ hheld⟩
  · rw [if_neg hheld, List.map_append, List.mem_append]
    simp [owners]

theorem check_eq_ok_iff {registry : Registry} {declaration : Declaration} :
    registry.check declaration = .ok () ↔ registry.Admits declaration := by
  unfold check
  constructor
  · intro hcheck
    cases hrequire : registry.requireNamespace declaration.owner with
    | error error => simp [hrequire, bind, Except.bind] at hcheck
    | ok _ =>
      refine ⟨requireNamespace_eq_ok_iff.1 hrequire, fun tag htag => ?_⟩
      rw [hrequire] at hcheck
      cases hfind : declaration.tags.find? fun tag => !registry.tags.isDefined tag.kind with
      | some tag => simp [hfind, bind, Except.bind] at hcheck
      | none => simpa using List.find?_eq_none.1 hfind tag htag
  · rintro ⟨howned, htagged⟩
    rw [requireNamespace_eq_ok_iff.2 howned]
    have hfind : (declaration.tags.find? fun tag => !registry.tags.isDefined tag.kind) = none := by
      rw [List.find?_eq_none]
      intro tag htag
      simp [htagged tag htag]
    simp [hfind, bind, Except.bind]

theorem admits_iff {registry : Registry} {declaration : Declaration} :
    registry.Admits declaration ↔
      declaration.owner ∈ registry.owners ∧ registry.tags.covers declaration.conditions = true := by
  rw [Admits, TagLibrary.covers_iff]

theorem check_of_not_covers {registry : Registry} {declaration : Declaration}
    (howned : declaration.owner ∈ registry.owners)
    (hcovers : ¬registry.tags.covers declaration.conditions = true) :
    registry.check declaration = .error (.unknownTag Tag.condition) := by
  rw [check, requireNamespace_eq_ok_iff.2 howned]
  cases hfind : declaration.tags.find? fun tag => !registry.tags.isDefined tag.kind with
  | none =>
    have hdefined := List.find?_eq_none.1 hfind
    exact absurd (TagLibrary.covers_iff.2 fun tag htag => by simpa using hdefined tag htag) hcovers
  | some tag =>
    have hkind := Declaration.kind_of_mem_tags (List.mem_of_find?_eq_some hfind)
    simp [bind, Except.bind, hkind]

theorem exists_error_of_not_admits {registry : Registry} {declaration : Declaration}
    (hadmits : ¬registry.Admits declaration) :
    ∃ error, registry.check declaration = .error error := by
  cases hcheck : registry.check declaration with
  | error error => exact ⟨error, rfl⟩
  | ok _ => exact absurd (check_eq_ok_iff.1 hcheck) hadmits

/-- What a route is reported as when its path is held already. -/
def rejection (registry : Registry) (route : Route) : Registration :=
  match registry.holder? (Record.path route) with
  | some first =>
    if first.args = route.args ∧ first.controller = route.controller then .duplicate
    else .collision (some first)
  | none => .collision none

theorem rejection_ne_added (registry : Registry) (route : Route) :
    registry.rejection route ≠ .added := by
  unfold rejection
  split
  · split <;> simp
  · simp

theorem registerRoute_of_admits {registry : Registry} {route : Route}
    (hadmits : registry.Admits route.toDeclaration) :
    registry.registerRoute route =
      if Record.path route ∈ registry.paths then (.ok (registry.rejection route), registry)
      else
        (.ok .added,
          { registry with
            routes := registry.routes ++ [route], paths := Record.path route :: registry.paths }) := by
  rw [registerRoute, check_eq_ok_iff.2 hadmits]
  dsimp only [rejection]
  split
  · cases registry.holder? (Record.path route) with
    | none => rfl
    | some first => dsimp only; split <;> rfl
  · rfl

/-- A route that fails a check is refused, and leaves the registry as it was. -/
theorem registerRoute_of_check {registry : Registry} {route : Route} {error : RegistryError}
    (hcheck : registry.check route.toDeclaration = .error error) :
    registry.registerRoute route = (.error error, registry) := by
  rw [registerRoute, hcheck]

theorem registerRoute_of_not_admits {registry : Registry} {route : Route}
    (hadmits : ¬registry.Admits route.toDeclaration) :
    ∃ error, registry.registerRoute route = (.error error, registry) := by
  obtain ⟨error, hcheck⟩ := exists_error_of_not_admits hadmits
  exact ⟨error, registerRoute_of_check hcheck⟩

theorem registerHandler_of_admits {registry : Registry} {handler : Handler}
    (hadmits : registry.Admits handler.toDeclaration) :
    registry.registerHandler handler =
      if Record.path handler ∈ registry.paths then (.ok .duplicate, registry)
      else
        (.ok .added,
          { registry with
            handlers := registry.handlers ++ [handler],
            paths := Record.path handler :: registry.paths }) := by
  rw [registerHandler, check_eq_ok_iff.2 hadmits]

/-- A handler that fails a check is refused, and leaves the registry as it was. -/
theorem registerHandler_of_check {registry : Registry} {handler : Handler} {error : RegistryError}
    (hcheck : registry.check handler.toDeclaration = .error error) :
    registry.registerHandler handler = (.error error, registry) := by
  rw [registerHandler, hcheck]

theorem registerHandler_of_not_admits {registry : Registry} {handler : Handler}
    (hadmits : ¬registry.Admits handler.toDeclaration) :
    ∃ error, registry.registerHandler handler = (.error error, registry) := by
  obtain ⟨error, hcheck⟩ := exists_error_of_not_admits hadmits
  exact ⟨error, registerHandler_of_check hcheck⟩

/-! ### What a call can change -/

theorem registerNamespace_cases {registry after : Registry} {parent name path : String}
    {kind : NamespaceKind} {location : Location}
    (hregister : registry.registerNamespace parent name kind location = (.ok path, after)) :
    parent ∈ registry.owners ∧ Namespace.resolve? parent name = some path ∧
      ((path ∈ registry.owners ∧ after = registry) ∨
        (path ∉ registry.owners ∧ after =
          { registry with
            namespaces := registry.namespaces ++ [⟨path, kind, some location⟩] })) := by
  by_cases hparent : parent ∈ registry.owners
  · rw [registerNamespace_of_owned hparent] at hregister
    cases hresolve : Namespace.resolve? parent name with
    | none => simp [hresolve] at hregister
    | some resolved =>
      rw [hresolve] at hregister
      cases hregister
      refine ⟨hparent, rfl, ?_⟩
      rw [addNamespace_eq]
      by_cases hheld : path ∈ registry.owners
      · exact .inl ⟨hheld, by rw [if_pos hheld]⟩
      · exact .inr ⟨hheld, by rw [if_neg hheld]⟩
  · rw [registerNamespace_of_not_owned hparent] at hregister
    cases hregister

theorem registerRoute_cases {registry after : Registry} {route : Route}
    {registration : Registration}
    (hregister : registry.registerRoute route = (.ok registration, after)) :
    (registration ≠ .added ∧ after = registry) ∨
      (registration = .added ∧ registry.Admits route.toDeclaration ∧
        Record.path route ∉ registry.paths ∧ after =
          { registry with
            routes := registry.routes ++ [route],
            paths := Record.path route :: registry.paths }) := by
  by_cases hadmits : registry.Admits route.toDeclaration
  · rw [registerRoute_of_admits hadmits] at hregister
    split_ifs at hregister with htaken
    · cases hregister
      exact .inl ⟨rejection_ne_added registry route, rfl⟩
    · cases hregister
      exact .inr ⟨rfl, hadmits, htaken, rfl⟩
  · obtain ⟨error, herror⟩ := registerRoute_of_not_admits hadmits
    simp [herror] at hregister

theorem registerHandler_cases {registry after : Registry} {handler : Handler}
    {registration : Registration}
    (hregister : registry.registerHandler handler = (.ok registration, after)) :
    (registration ≠ .added ∧ after = registry) ∨
      (registration = .added ∧ registry.Admits handler.toDeclaration ∧
        Record.path handler ∉ registry.paths ∧ after =
          { registry with
            handlers := registry.handlers ++ [handler],
            paths := Record.path handler :: registry.paths }) := by
  by_cases hadmits : registry.Admits handler.toDeclaration
  · rw [registerHandler_of_admits hadmits] at hregister
    split_ifs at hregister with htaken
    · cases hregister
      exact .inl ⟨nofun, rfl⟩
    · cases hregister
      exact .inr ⟨rfl, hadmits, htaken, rfl⟩
  · obtain ⟨error, herror⟩ := registerHandler_of_not_admits hadmits
    simp [herror] at hregister

theorem registerNamespace_error {registry after : Registry} {parent name : String}
    {kind : NamespaceKind} {location : Location} {error : RegistryError}
    (hregister : registry.registerNamespace parent name kind location = (.error error, after)) :
    after = registry := by
  by_cases hparent : parent ∈ registry.owners
  · rw [registerNamespace_of_owned hparent] at hregister
    cases hresolve : Namespace.resolve? parent name with
    | none =>
      rw [hresolve] at hregister
      cases hregister
      rfl
    | some resolved => simp [hresolve] at hregister
  · rw [registerNamespace_of_not_owned hparent] at hregister
    cases hregister
    rfl

theorem registerRoute_error {registry after : Registry} {route : Route} {error : RegistryError}
    (hregister : registry.registerRoute route = (.error error, after)) : after = registry := by
  by_cases hadmits : registry.Admits route.toDeclaration
  · rw [registerRoute_of_admits hadmits] at hregister
    split_ifs at hregister
    · cases hregister
    · cases hregister
  · obtain ⟨_, herror⟩ := registerRoute_of_not_admits hadmits
    exact (Prod.mk.inj (herror.symm.trans hregister)).2.symm

theorem registerHandler_error {registry after : Registry} {handler : Handler}
    {error : RegistryError}
    (hregister : registry.registerHandler handler = (.error error, after)) : after = registry := by
  by_cases hadmits : registry.Admits handler.toDeclaration
  · rw [registerHandler_of_admits hadmits] at hregister
    split_ifs at hregister
    · cases hregister
    · cases hregister
  · obtain ⟨_, herror⟩ := registerHandler_of_not_admits hadmits
    exact (Prod.mk.inj (herror.symm.trans hregister)).2.symm

/-- What opening a namespace leaves, refused or not. -/
theorem apply_openNamespace_cases (registry : Registry) (parent name : String)
    (kind : NamespaceKind) (location : Location) :
    registry.apply (.openNamespace parent name kind location) = registry ∨
      ∃ path, parent ∈ registry.owners ∧ Namespace.resolve? parent name = some path ∧
        path ∉ registry.owners ∧
        registry.apply (.openNamespace parent name kind location) =
          { registry with
            namespaces := registry.namespaces ++ [⟨path, kind, some location⟩] } := by
  rw [apply]
  rcases hregister : registry.registerNamespace parent name kind location with ⟨error | path, after⟩
  · exact .inl (registerNamespace_error hregister)
  · obtain ⟨hparent, hresolve, ⟨-, hafter⟩ | ⟨hfresh, hafter⟩⟩ := registerNamespace_cases hregister
    · exact .inl hafter
    · exact .inr ⟨path, hparent, hresolve, hfresh, hafter⟩

/-- What adding a route leaves, refused or not. -/
theorem apply_addRoute_cases (registry : Registry) (route : Route) :
    registry.apply (.addRoute route) = registry ∨
      (registry.Admits route.toDeclaration ∧ Record.path route ∉ registry.paths ∧
        registry.apply (.addRoute route) =
          { registry with
            routes := registry.routes ++ [route],
            paths := Record.path route :: registry.paths }) := by
  rw [apply]
  rcases hregister : registry.registerRoute route with ⟨error | registration, after⟩
  · exact .inl (registerRoute_error hregister)
  · obtain ⟨-, hafter⟩ | ⟨-, hadmits, hfresh, hafter⟩ := registerRoute_cases hregister
    · exact .inl hafter
    · exact .inr ⟨hadmits, hfresh, hafter⟩

/-- What adding a handler leaves, refused or not. -/
theorem apply_addHandler_cases (registry : Registry) (handler : Handler) :
    registry.apply (.addHandler handler) = registry ∨
      (registry.Admits handler.toDeclaration ∧ Record.path handler ∉ registry.paths ∧
        registry.apply (.addHandler handler) =
          { registry with
            handlers := registry.handlers ++ [handler],
            paths := Record.path handler :: registry.paths }) := by
  rw [apply]
  rcases hregister : registry.registerHandler handler with ⟨error | registration, after⟩
  · exact .inl (registerHandler_error hregister)
  · obtain ⟨-, hafter⟩ | ⟨-, hadmits, hfresh, hafter⟩ := registerHandler_cases hregister
    · exact .inl hafter
    · exact .inr ⟨hadmits, hfresh, hafter⟩

/-- The effect of one call: each list grows at its end, by one element that was checked. -/
inductive Step (registry : Registry) : Registry → Prop
  | unchanged : Step registry registry
  | namespaceAdded {parent name path : String} (kind : NamespaceKind) (location : Location)
      (hparent : parent ∈ registry.owners) (hresolve : Namespace.resolve? parent name = some path)
      (hfresh : path ∉ registry.owners) :
      Step registry
        { registry with namespaces := registry.namespaces ++ [⟨path, kind, some location⟩] }
  | routeAdded (route : Route) (hadmits : registry.Admits route.toDeclaration)
      (hfresh : Record.path route ∉ registry.paths) :
      Step registry
        { registry with
          routes := registry.routes ++ [route], paths := Record.path route :: registry.paths }
  | handlerAdded (handler : Handler) (hadmits : registry.Admits handler.toDeclaration)
      (hfresh : Record.path handler ∉ registry.paths) :
      Step registry
        { registry with
          handlers := registry.handlers ++ [handler],
          paths := Record.path handler :: registry.paths }
  | serialTaken : Step registry { registry with nextSerial := registry.nextSerial + 1 }

theorem apply_step (registry : Registry) (operation : Operation) :
    Step registry (registry.apply operation) := by
  cases operation with
  | openNamespace parent name kind location =>
    rcases registry.apply_openNamespace_cases parent name kind location with
      hafter | ⟨path, hparent, hresolve, hfresh, hafter⟩
    · rw [hafter]
      exact .unchanged
    · rw [hafter]
      exact .namespaceAdded kind location hparent hresolve hfresh
  | addRoute route =>
    rcases registry.apply_addRoute_cases route with hafter | ⟨hadmits, hfresh, hafter⟩
    · rw [hafter]
      exact .unchanged
    · rw [hafter]
      exact .routeAdded route hadmits hfresh
  | addHandler handler =>
    rcases registry.apply_addHandler_cases handler with hafter | ⟨hadmits, hfresh, hafter⟩
    · rw [hafter]
      exact .unchanged
    · rw [hafter]
      exact .handlerAdded handler hadmits hfresh
  | takeSerial => exact .serialTaken

theorem apply_openNamespace_frame (registry : Registry) (parent name : String)
    (kind : NamespaceKind) (location : Location) :
    (registry.apply (.openNamespace parent name kind location)).handlers = registry.handlers ∧
      (registry.apply (.openNamespace parent name kind location)).nextSerial =
        registry.nextSerial := by
  rcases registry.apply_openNamespace_cases parent name kind location with
    hafter | ⟨_, -, -, -, hafter⟩
  · rw [hafter]
    exact ⟨rfl, rfl⟩
  · rw [hafter]
    exact ⟨rfl, rfl⟩

theorem apply_addRoute_frame (registry : Registry) (route : Route) :
    (registry.apply (.addRoute route)).handlers = registry.handlers ∧
      (registry.apply (.addRoute route)).nextSerial = registry.nextSerial := by
  rcases registry.apply_addRoute_cases route with hafter | ⟨-, -, hafter⟩
  · rw [hafter]
    exact ⟨rfl, rfl⟩
  · rw [hafter]
    exact ⟨rfl, rfl⟩

/-! ### The invariant -/

/-- The invariant of the registry. The root is named by the empty path, every other namespace by
words with `::` between them. -/
structure WellFormed (registry : Registry) : Prop where
  root_first : registry.namespaces.head? = some .root
  owners_nodup : registry.owners.Nodup
  owners_named : ∀ path ∈ registry.owners, path = "" ∨ Namespace.IsPath path
  routes_admitted : ∀ route ∈ registry.routes, registry.Admits route.toDeclaration
  handlers_admitted : ∀ handler ∈ registry.handlers, registry.Admits handler.toDeclaration
  recordPaths_nodup : registry.recordPaths.Nodup
  mem_paths_iff : ∀ path, path ∈ registry.paths ↔ path ∈ registry.recordPaths

theorem Admits.mono {registry after : Registry} {declaration : Declaration}
    (hadmits : registry.Admits declaration) (howners : registry.owners ⊆ after.owners)
    (htags : after.tags = registry.tags) : after.Admits declaration := by
  refine ⟨howners hadmits.1, fun tag htag => ?_⟩
  rw [htags]
  exact hadmits.2 tag htag

theorem wellFormed_ofTags (tags : TagLibrary) : (ofTags tags).WellFormed where
  root_first := rfl
  owners_nodup := List.nodup_singleton _
  owners_named path hpath := .inl (by simpa [owners, ofTags, Namespace.root] using hpath)
  routes_admitted route hroute := by simp [ofTags] at hroute
  handlers_admitted handler hhandler := by simp [ofTags] at hhandler
  recordPaths_nodup := List.nodup_nil
  mem_paths_iff path := Iff.rfl

theorem WellFormed.namespaceAdded {registry : Registry} (hinv : registry.WellFormed)
    {parent name path : String} (kind : NamespaceKind) (location : Location)
    (hparent : parent ∈ registry.owners) (hresolve : Namespace.resolve? parent name = some path)
    (hfresh : path ∉ registry.owners) :
    WellFormed
      { registry with namespaces := registry.namespaces ++ [⟨path, kind, some location⟩] } := by
  have howners : owners { registry with
      namespaces := registry.namespaces ++ [⟨path, kind, some location⟩] } =
        registry.owners ++ [path] := by
    simp [owners]
  have hsub : registry.owners ⊆ registry.owners ++ [path] := List.subset_append_left _ _
  refine
    { root_first := ?_
      owners_nodup := ?_
      owners_named := ?_
      routes_admitted := fun route hroute =>
        (hinv.routes_admitted route hroute).mono (howners ▸ hsub) rfl
      handlers_admitted := fun handler hhandler =>
        (hinv.handlers_admitted handler hhandler).mono (howners ▸ hsub) rfl
      recordPaths_nodup := hinv.recordPaths_nodup
      mem_paths_iff := hinv.mem_paths_iff }
  · simp [List.head?_append, hinv.root_first]
  · rw [howners, List.nodup_append]
    refine ⟨hinv.owners_nodup, List.nodup_singleton path, fun other hother added hadded heq => ?_⟩
    rw [List.mem_singleton.1 hadded] at heq
    exact hfresh (heq ▸ hother)
  · intro other hother
    rw [howners] at hother
    rcases List.mem_append.1 hother with hother | hother
    · exact hinv.owners_named other hother
    · rw [List.mem_singleton.1 hother]
      exact .inr (Namespace.isPath_of_resolve? (hinv.owners_named parent hparent) hresolve)

-- A record that is added puts its own path into the set, wherever among the records it stands.
theorem WellFormed.recordPaths_cons {registry : Registry} (hinv : registry.WellFormed)
    (after : Registry) {path : String} (hfresh : path ∉ registry.paths)
    (hperm : after.recordPaths.Perm (path :: registry.recordPaths)) :
    after.recordPaths.Nodup ∧ ∀ other, other ∈ path :: registry.paths ↔ other ∈ after.recordPaths := by
  constructor
  · rw [hperm.nodup_iff, List.nodup_cons]
    exact ⟨fun hmem => hfresh ((hinv.mem_paths_iff path).2 hmem), hinv.recordPaths_nodup⟩
  · intro other
    rw [hperm.mem_iff, List.mem_cons, List.mem_cons, hinv.mem_paths_iff]

theorem WellFormed.routeAdded {registry : Registry} (hinv : registry.WellFormed) (route : Route)
    (hadmits : registry.Admits route.toDeclaration)
    (hfresh : Record.path route ∉ registry.paths) :
    WellFormed
      { registry with
        routes := registry.routes ++ [route], paths := Record.path route :: registry.paths } := by
  obtain ⟨hnodup, hmem⟩ := hinv.recordPaths_cons
    { registry with
      routes := registry.routes ++ [route], paths := Record.path route :: registry.paths }
    hfresh (by simp [recordPaths])
  refine { hinv with
    routes_admitted := fun other hother => ?_
    recordPaths_nodup := hnodup
    mem_paths_iff := hmem }
  rcases List.mem_append.1 hother with hother | hother
  · exact hinv.routes_admitted other hother
  · rw [List.mem_singleton.1 hother]
    exact hadmits

theorem WellFormed.handlerAdded {registry : Registry} (hinv : registry.WellFormed)
    (handler : Handler) (hadmits : registry.Admits handler.toDeclaration)
    (hfresh : Record.path handler ∉ registry.paths) :
    WellFormed
      { registry with
        handlers := registry.handlers ++ [handler],
        paths := Record.path handler :: registry.paths } := by
  obtain ⟨hnodup, hmem⟩ := hinv.recordPaths_cons
    { registry with
      handlers := registry.handlers ++ [handler], paths := Record.path handler :: registry.paths }
    hfresh (by simp [recordPaths, ← List.append_assoc])
  refine { hinv with
    handlers_admitted := fun other hother => ?_
    recordPaths_nodup := hnodup
    mem_paths_iff := hmem }
  rcases List.mem_append.1 hother with hother | hother
  · exact hinv.handlers_admitted other hother
  · rw [List.mem_singleton.1 hother]
    exact hadmits

theorem WellFormed.step {registry after : Registry} (hinv : registry.WellFormed)
    (hstep : Step registry after) : after.WellFormed := by
  cases hstep with
  | unchanged => exact hinv
  | namespaceAdded kind location hparent hresolve hfresh =>
    exact hinv.namespaceAdded kind location hparent hresolve hfresh
  | routeAdded route hadmits hfresh => exact hinv.routeAdded route hadmits hfresh
  | handlerAdded handler hadmits hfresh => exact hinv.handlerAdded handler hadmits hfresh
  | serialTaken => exact { hinv with }

/-! ### Runs -/

/-- What every call keeps, a run keeps. -/
theorem run_induction {P : Registry → Prop}
    (hstep : ∀ registry after, P registry → Step registry after → P after)
    {registry : Registry} (hregistry : P registry) (operations : List Operation) :
    P (registry.run operations) := by
  induction operations generalizing registry with
  | nil => exact hregistry
  | cons operation operations ih =>
    exact ih (hstep registry _ hregistry (apply_step registry operation))

theorem WellFormed.run {registry : Registry} (hinv : registry.WellFormed)
    (operations : List Operation) : (registry.run operations).WellFormed :=
  run_induction (fun _ _ hinv hstep => hinv.step hstep) hinv operations

theorem run_tags (registry : Registry) (operations : List Operation) :
    (registry.run operations).tags = registry.tags := by
  refine run_induction (P := fun after => after.tags = registry.tags) ?_ rfl operations
  intro before after htags hstep
  cases hstep <;> exact htags

/-- **Every registry that can be reached is well formed**, over any tag library, after any calls in
any order, refused calls included; and the tag library is still the one it was made with. -/
theorem ofTags_run_wellFormed (tags : TagLibrary) (operations : List Operation) :
    ((ofTags tags).run operations).tags = tags ∧ ((ofTags tags).run operations).WellFormed :=
  ⟨run_tags (ofTags tags) operations, (wellFormed_ofTags tags).run operations⟩

end Registry

end RouteCatalog
