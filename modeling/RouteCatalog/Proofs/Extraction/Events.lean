import RouteCatalog.Extraction.Walk
import RouteCatalog.Proofs.Registry.Invariant

/-!
# Extraction as a replay of events

A walk over a file is equal to a replay of the events of its tree. `Extraction.eventsOf` lists the
events by recursion on the tree alone: a name that opens a namespace gives one, and so does a call
that declares a handler or a route. What an event carries is read off the tree above it, the path of
the namespace around (`Namespace.resolve?`) and the controller of the innermost controller block;
there is no registry and no stack. `SourceFile.replay` then performs the events in order, up to the
first that the registry refuses, and `SourceFile.extract_eq_replay` is the equality.

The invariant of the induction is `Extraction.Performs`: a walk performs the events of what it walks,
in the place that its scope and the innermost level of its controllers give (`Scope.place`), and has
at its end the controllers that it started with, also when it is stopped. A controller block enters a
level and leaves it on every way out of its body, so what follows the block is walked in the same
place as the block itself.
-/

namespace RouteCatalog

namespace Extraction

/-! ### Events -/

/-- Something in a tree that concerns the registry: a name that opens a namespace, as it is written
under the path of the one around, or a call that declares a handler or a route, with the namespace
and the controller around it. -/
inductive Event where
  | opening (parent name : String) (kind : NamespaceKind) (line : Nat)
  | hook (owner : String) (controller : Option String) (verb : HookVerb) (call : Node)
  | route (owner : String) (controller : Option String) (verb : RouteVerb) (call : Node)
  deriving Repr, Inhabited

/-- What a statement can tell about the tree above it: the path of the namespace around, whether a
class, module or grouping block is around at all, and the controller of the innermost controller
block, if there is one and it names any. -/
structure Place where
  owner : String := ""
  inside : Bool := false
  controller : Option String := none
  deriving DecidableEq, Repr, Inhabited

def Place.inNamespace (place : Place) (path : String) : Place :=
  { place with owner := path, inside := true }

/-- The events of a body that a name opens. A malformed name opens none. -/
def opened (place : Place) (name : String) (kind : NamespaceKind) (line : Nat)
    (body : String → List Event) : List Event :=
  .opening place.owner name kind line ::
    match Namespace.resolve? place.owner name with
    | some path => body path
    | none => []

/-- The events of a grouping call. Its block belongs to the receiver, or to the namespace around
when there is no receiver; outside every namespace a call without a receiver means nothing. -/
def grouped (place : Place) (call : Node) (block : String → List Event) : List Event :=
  match call.explicitReceiver? with
  | some receiver => opened place receiver.source .classBody call.line block
  | none => if place.inside then block place.owner else []

-- The events of one child of a body, of all of them, and of the block among the children of a call.
mutual

def eventsOf (place : Place) : Node → List Event
  | ⟨kind, field, source, line, children⟩ =>
    let node : Node := ⟨kind, field, source, line, children⟩
    if field ∈ [some "name", some "superclass", some "parameters", some "value"] then []
    else if kind ∈ ["body_statement", "block_body", "singleton_class"] then
      eventsAmong place children
    else if kind ∈ ["class", "module"] then
      match node.child? "name" with
      | some name =>
        opened place name.source (if kind = "module" then .moduleBody else .classBody) line
          fun path => eventsAmong (place.inNamespace path) children
      | none => []
    else if kind = "call" then
      match node.method? with
      | some .helpers =>
        grouped place node fun path => eventsInBlock (place.inNamespace path) children
      | some .controllers =>
        grouped place node fun path => eventsInBlock ⟨path, true, node.controllerName?⟩ children
      | some (.hook verb) =>
        if place.inside then [.hook place.owner place.controller verb node] else []
      | some (.route verb) =>
        if place.inside then [.route place.owner place.controller verb node] else []
      | none => []
    else []

def eventsAmong (place : Place) : List Node → List Event
  | [] => []
  | node :: rest => eventsOf place node ++ eventsAmong place rest

def eventsInBlock (place : Place) : List Node → List Event
  | [] => []
  | ⟨_, field, _, _, children⟩ :: rest =>
    if field = some "block" then eventsAmong place children else eventsInBlock place rest

end

/-- The declaration of a call that stands in a namespace under a controller or none. -/
def Event.declaration (file : SourceFile) (owner : String) (controller : Option String)
    (call : Node) (args : List Literal) : Declaration :=
  { owner
    controller
    args
    conditions := Node.lastOptions call.positional
    source := call.source
    location := ⟨file.path, call.line⟩
    docstring := file.docstring call.line }

/-- Performs an event: registers what it opens or declares, and counts it. -/
def Event.perform (file : SourceFile) (pass : Pass) : Event → Except Halt Pass
  | .opening parent name kind line => do
    let (_, pass) ← pass.openNamespace parent name kind ⟨file.path, line⟩
    return pass
  | .hook owner controller verb call =>
    pass.addHandler (declaration file owner controller call call.handlerArgs) verb
  | .route owner controller verb call =>
    match call.routePath? with
    | some (.ok path) =>
      pass.addRoute { declaration file owner controller call [path] with verb }
    | some (.error reason) => .ok (pass.skip (.dynamicRoute ⟨file.path, call.line⟩ reason))
    | none => .ok (pass.skip (.pathlessRoute ⟨file.path, call.line⟩))

/-- Performs events in order, up to the first that the registry refuses. -/
def perform (file : SourceFile) (events : List Event) (pass : Pass) : Except Halt Pass :=
  events.foldlM (Event.perform file) pass

end Extraction

/-- The events of a file, in pre-order. -/
def SourceFile.events (file : SourceFile) : List Extraction.Event :=
  Extraction.eventsAmong {} file.tree.children

/-- Registers what the events of a file open and declare. -/
def SourceFile.replay (file : SourceFile) (registry : Registry) : Extraction :=
  match Extraction.perform file file.events { registry } with
  | .ok pass => ⟨.ok pass.summary, pass.registry, pass.warnings⟩
  | .error halt => ⟨.error halt.error, halt.pass.registry, halt.pass.warnings⟩

namespace Extraction

/-! ### Performing events -/

@[simp]
theorem perform_nil (file : SourceFile) (pass : Pass) : perform file [] pass = .ok pass := rfl

@[simp]
theorem perform_singleton (file : SourceFile) (event : Event) (pass : Pass) :
    perform file [event] pass = event.perform file pass := by
  simp [perform]

theorem perform_cons (file : SourceFile) (event : Event) (events : List Event) (pass : Pass) :
    perform file (event :: events) pass = event.perform file pass >>= perform file events :=
  List.foldlM_cons

theorem perform_append (file : SourceFile) (first second : List Event) (pass : Pass) :
    perform file (first ++ second) pass = perform file first pass >>= perform file second :=
  List.foldlM_append

theorem resolve?_of_openNamespace {pass after : Pass} {parent name path : String}
    {kind : NamespaceKind} {location : Location}
    (hopen : pass.openNamespace parent name kind location = .ok (path, after)) :
    Namespace.resolve? parent name = some path := by
  rw [Pass.openNamespace] at hopen
  rcases hregister : pass.registry.registerNamespace parent name kind location with
    ⟨error | opened, registry⟩
  · rw [hregister] at hopen
    cases hopen
  · rw [hregister] at hopen
    cases hopen
    exact (Registry.registerNamespace_cases hregister).2.1

/-! ### The walk -/

/-- What a scope and its controllers show of the tree above a statement. -/
def Scope.place (scope : Scope) (controllers : Controllers) : Place :=
  ⟨scope.owner, scope.inside, controllers.current⟩

/-- A walk that starts under the given controllers performs events, and it has the same controllers
at its end, whether or not it is stopped. -/
def Performs (file : SourceFile) (pass : Pass) (controllers : Controllers) (events : List Event)
    (walking : Walking Pass) : Prop :=
  walking.run.run controllers = (perform file events pass, controllers)

section Performs

variable {file : SourceFile} {pass : Pass} {controllers : Controllers}

theorem performs_nothing : Performs file pass controllers [] (pure pass) := rfl

/-- Declaring something under the controllers of the moment performs the event of the call. -/
theorem performs_declared {event : Event} {declare : Controllers → Except Halt Pass}
    (hdeclare : declare controllers = event.perform file pass) :
    Performs file pass controllers [event] (do declare (← get)) := by
  rw [Performs, perform_singleton, ← hdeclare]
  rfl

/-- A walk and one after it perform the events of both. -/
theorem Performs.bind {events later : List Event} {first : Walking Pass}
    {rest : Pass → Walking Pass} (hfirst : Performs file pass controllers events first)
    (hrest : ∀ pass, Performs file pass controllers later (rest pass)) :
    Performs file pass controllers (events ++ later) (first >>= rest) := by
  rw [Performs, ExceptT.run_bind, StateT.run_bind, hfirst, perform_append]
  cases perform file events pass with
  | error halt => rfl
  | ok mid => exact hrest mid

/-- Opening a namespace and walking on in it performs the opening and then the events inside. -/
theorem performs_opened (place : Place) (name : String) (kind : NamespaceKind) (line : Nat)
    {body : String → List Event} {rest : String × Pass → Walking Pass}
    (hrest : ∀ path pass, Performs file pass controllers (body path) (rest (path, pass))) :
    Performs file pass controllers (opened place name kind line body)
      (liftM (pass.openNamespace place.owner name kind ⟨file.path, line⟩) >>= rest) := by
  rw [Performs, opened, perform_cons, Event.perform]
  cases hopen : pass.openNamespace place.owner name kind ⟨file.path, line⟩ with
  | error halt => rfl
  | ok opening =>
    obtain ⟨path, after⟩ := opening
    rw [resolve?_of_openNamespace hopen]
    exact hrest path after

/-- A controller block is walked with its own level on top, and left again. -/
theorem Performs.inController {name : Option String} {events : List Event} {block : Walking Pass}
    (hblock : Performs file pass (controllers.enter name) events block) :
    Performs file pass controllers events (inController name block) :=
  Controllers.within_of_eq hblock

/-- Choosing the namespace of a block and walking on in it performs the events of the call. -/
theorem performs_grouped (scope : Scope) (call : Node)
    (hcounts : scope.inside = true ∨ call.explicitReceiver?.isSome = true)
    {block : String → List Event} {rest : String × Pass → Walking Pass}
    (hrest : ∀ path pass, Performs file pass controllers (block path) (rest (path, pass))) :
    Performs file pass controllers (grouped (scope.place controllers) call block)
      (liftM (blockNamespace file scope call pass) >>= rest) := by
  unfold blockNamespace grouped
  cases hreceiver : call.explicitReceiver? with
  | some receiver =>
    exact performs_opened (scope.place controllers) receiver.source .classBody call.line hrest
  | none =>
    have hinside : (scope.place controllers).inside = true := by
      simpa [hreceiver, Scope.place] using hcounts
    rw [if_pos hinside]
    exact hrest scope.owner pass

end Performs

theorem isHeading_iff {field : Option String} :
    isHeading field = true ↔
      field ∈ [some "name", some "superclass", some "parameters", some "value"] := by
  cases field <;> simp [isHeading]

theorem Role.ofKind_cases (kind : String) :
    (kind ∈ ["body_statement", "block_body", "singleton_class"] ∧
      Role.ofKind kind = .transparent) ∨
    (kind ∉ ["body_statement", "block_body", "singleton_class"] ∧ kind ∈ ["class", "module"] ∧
      Role.ofKind kind = .definition (if kind = "module" then .moduleBody else .classBody)) ∨
    (kind = "call" ∧ Role.ofKind kind = .call) ∨
    (kind ∉ ["body_statement", "block_body", "singleton_class"] ∧ kind ∉ ["class", "module"] ∧
      kind ≠ "call" ∧ Role.ofKind kind = .other) := by
  unfold Role.ofKind
  split <;> simp_all

/-- A grouping call either counts in its surroundings or has no events. -/
theorem effectiveMethod?_of_grouping (scope : Scope) (controllers : Controllers) {call : Node}
    {method : Method} (hmethod : call.method? = some method)
    (hgrouping : method.isGrouping = true) :
    (effectiveMethod? scope call = some method ∧
      (scope.inside = true ∨ call.explicitReceiver?.isSome = true)) ∨
    (effectiveMethod? scope call = none ∧
      ∀ block, grouped (scope.place controllers) call block = []) := by
  rw [effectiveMethod?, hmethod, Option.filter_some, hgrouping, Bool.true_and]
  by_cases hcounts : (scope.inside || call.explicitReceiver?.isSome) = true
  · exact .inl ⟨if_pos hcounts, by simpa using hcounts⟩
  · refine .inr ⟨if_neg hcounts, fun block => ?_⟩
    have houtside : (scope.place controllers).inside = false ∧ call.explicitReceiver? = none := by
      simpa [Scope.place] using hcounts
    simp [grouped, houtside]

theorem effectiveMethod?_of_declaring (scope : Scope) {call : Node} {method : Method}
    (hmethod : call.method? = some method) (hdeclaring : method.isGrouping = false) :
    effectiveMethod? scope call = if scope.inside then some method else none := by
  rw [effectiveMethod?, hmethod, Option.filter_some, hdeclaring, Bool.false_and, Bool.or_false]

mutual

theorem walk_performs (file : SourceFile) (scope : Scope) :
    ∀ (node : Node) (pass : Pass) (controllers : Controllers),
      Performs file pass controllers (eventsOf (scope.place controllers) node)
        (walk file scope node pass)
  | ⟨kind, field, source, line, children⟩, pass, controllers => by
    rw [walk, eventsOf]
    by_cases hheading : isHeading field = true
    · rw [if_pos hheading, if_pos (isHeading_iff.1 hheading)]
      exact performs_nothing
    rw [if_neg hheading, if_neg (mt isHeading_iff.2 hheading)]
    obtain ⟨hwrapper, hrole⟩ | ⟨hwrapper, hdefinition, hrole⟩ | ⟨rfl, hrole⟩ |
      ⟨hwrapper, hdefinition, hcall, hrole⟩ := Role.ofKind_cases kind
    · rw [if_pos hwrapper, hrole]
      exact walkAll_performs file scope children pass controllers
    · rw [if_neg hwrapper, if_pos hdefinition, hrole]
      dsimp only
      cases Node.child? ⟨kind, field, source, line, children⟩ "name" with
      | some name =>
        refine performs_opened (scope.place controllers) _ _ line fun path pass => ?_
        exact walkAll_performs file (.inNamespace path) children pass controllers
      | none => exact performs_nothing
    · rw [if_neg (by decide), if_neg (by decide), if_pos rfl, hrole]
      dsimp only
      cases hmethod : Node.method? ⟨"call", field, source, line, children⟩ with
      | none =>
        rw [effectiveMethod?, hmethod]
        exact performs_nothing
      | some method =>
        cases method with
        | helpers =>
          dsimp only
          obtain ⟨heffective, hcounts⟩ | ⟨heffective, hnone⟩ :=
            effectiveMethod?_of_grouping scope controllers hmethod rfl
          · rw [heffective]
            refine performs_grouped scope _ hcounts fun path pass => ?_
            exact walkBlock_performs file (.inNamespace path) children pass controllers
          · rw [heffective, hnone]
            exact performs_nothing
        | controllers =>
          dsimp only
          obtain ⟨heffective, hcounts⟩ | ⟨heffective, hnone⟩ :=
            effectiveMethod?_of_grouping scope controllers hmethod rfl
          · rw [heffective]
            refine performs_grouped scope _ hcounts fun path pass => .inController ?_
            have hblock := walkBlock_performs file (.inNamespace path) children pass
              (controllers.enter (Node.controllerName? ⟨"call", field, source, line, children⟩))
            rw [Scope.place, Controllers.current_enter] at hblock
            exact hblock
          · rw [heffective, hnone]
            exact performs_nothing
        | hook verb =>
          rw [effectiveMethod?_of_declaring scope hmethod rfl, Scope.place]
          cases scope.inside with
          | true => exact performs_declared rfl
          | false => exact performs_nothing
        | route verb =>
          rw [effectiveMethod?_of_declaring scope hmethod rfl, Scope.place]
          cases scope.inside with
          | true => exact performs_declared rfl
          | false => exact performs_nothing
    · rw [if_neg hwrapper, if_neg hdefinition, if_neg hcall, hrole]
      exact performs_nothing

theorem walkAll_performs (file : SourceFile) (scope : Scope) :
    ∀ (nodes : List Node) (pass : Pass) (controllers : Controllers),
      Performs file pass controllers (eventsAmong (scope.place controllers) nodes)
        (walkAll file scope nodes pass)
  | [], _, _ => performs_nothing
  | node :: rest, pass, controllers => by
    rw [walkAll, eventsAmong]
    exact (walk_performs file scope node pass controllers).bind fun pass =>
      walkAll_performs file scope rest pass controllers

theorem walkBlock_performs (file : SourceFile) (scope : Scope) :
    ∀ (nodes : List Node) (pass : Pass) (controllers : Controllers),
      Performs file pass controllers (eventsInBlock (scope.place controllers) nodes)
        (walkBlock file scope nodes pass)
  | [], _, _ => performs_nothing
  | ⟨kind, field, source, line, children⟩ :: rest, pass, controllers => by
    rw [walkBlock, eventsInBlock]
    by_cases hblock : field = some "block"
    · rw [if_pos hblock, if_pos (by simpa using hblock)]
      exact walkAll_performs file scope children pass controllers
    · rw [if_neg hblock, if_neg (by simpa using hblock)]
      exact walkBlock_performs file scope rest pass controllers

end

end Extraction

theorem SourceFile.walk_eq_perform (file : SourceFile) (registry : Registry) :
    file.walk registry = Extraction.perform file file.events { registry } := by
  have hperforms := Extraction.walkAll_performs file {} file.tree.children { registry } {}
  exact congrArg Prod.fst hperforms

/-- **Extraction is a replay of the events of the tree**: the counts or the refusal, the registry
and the warnings of a walk are those of performing the events in order, whatever the registry. -/
theorem SourceFile.extract_eq_replay (file : SourceFile) (registry : Registry) :
    file.extract registry = file.replay registry := by
  rw [SourceFile.extract, SourceFile.walk_eq_perform]
  rfl

end RouteCatalog
