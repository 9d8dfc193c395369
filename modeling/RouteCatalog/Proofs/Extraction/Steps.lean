import RouteCatalog.Proofs.Extraction.Events
import RouteCatalog.Proofs.Registry.Serials

/-!
# What an event does

`Extraction.Advance` says once what performing an event can do to a pass, with everything that the
registry checked on the way, and `Event.refusal?` says which events are refused and why. It looks at
the event and at the tag library alone: where the namespace of an event is registered, nothing else
of the registry matters (`Event.perform_outcome`).

How the events of a tree come about is said once too (`Arises`). They name registered namespaces
only: each is under the root or under a path that an event before it opens (`Grounded`), so a whole
file is either performed to its end, as a `Run`, or stopped by the first event that is refused
(`SourceFile.extract_cases`).
-/

namespace RouteCatalog

namespace Registry

variable {registry : Registry}

/-! ### Growth -/

/-- Everything that a registry holds is still there, and first. -/
structure Extends (registry after : Registry) : Prop where
  tags_eq : after.tags = registry.tags
  namespaces : registry.namespaces <+: after.namespaces
  routes : registry.routes <+: after.routes
  handlers : registry.handlers <+: after.handlers
  paths : registry.paths <:+ after.paths

theorem Extends.refl (registry : Registry) : registry.Extends registry :=
  ⟨rfl, List.prefix_rfl, List.prefix_rfl, List.prefix_rfl, List.suffix_rfl⟩

theorem Extends.trans {mid after : Registry} (hmid : registry.Extends mid)
    (hafter : mid.Extends after) : registry.Extends after where
  tags_eq := hafter.tags_eq.trans hmid.tags_eq
  namespaces := hmid.namespaces.trans hafter.namespaces
  routes := hmid.routes.trans hafter.routes
  handlers := hmid.handlers.trans hafter.handlers
  paths := hmid.paths.trans hafter.paths

theorem Extends.owners_subset {after : Registry} (hextends : registry.Extends after) :
    registry.owners ⊆ after.owners :=
  (hextends.namespaces.map Namespace.path).subset

theorem Step.extends {after : Registry} (hstep : Step registry after) :
    registry.Extends after := by
  have hsame := Extends.refl registry
  cases hstep with
  | unchanged => exact hsame
  | namespaceAdded => exact { hsame with namespaces := List.prefix_append _ _ }
  | routeAdded =>
    exact { hsame with routes := List.prefix_append _ _, paths := List.suffix_cons _ _ }
  | handlerAdded =>
    exact { hsame with handlers := List.prefix_append _ _, paths := List.suffix_cons _ _ }
  | serialTaken => exact { hsame with }

end Registry

namespace Extraction

/-! ### What an event says -/

namespace Event

/-- The path of the namespace around an event. -/
def owner : Event → String
  | .opening parent _ _ _ => parent
  | .hook owner _ _ _ => owner
  | .route owner _ _ _ => owner

/-- The path of the namespace that an event opens. -/
def opens? : Event → Option String
  | .opening parent name _ _ => Namespace.resolve? parent name
  | _ => none

/-- The handler that an event declares, under a serial number. -/
def handler? (file : SourceFile) (serial : Nat) : Event → Option Handler
  | .hook owner controller verb call =>
    some { declaration file owner controller call call.handlerArgs with verb, serial }
  | _ => none

/-- The route that an event declares, if its path is there and static. -/
def route? (file : SourceFile) : Event → Option Route
  | .route owner controller verb call =>
    match call.routePath? with
    | some (.ok path) => some { declaration file owner controller call [path] with verb }
    | _ => none
  | _ => none

/-- Why the options of a call are refused. -/
def undefinedTag? (tags : TagLibrary) (call : Node) : Option RegistryError :=
  if tags.covers (Node.lastOptions call.positional) then none else some (.unknownTag Tag.condition)

/-- Why an event is refused under a tag library, if it is. -/
def refusal? (tags : TagLibrary) : Event → Option RegistryError
  | .opening parent name _ _ =>
    match Namespace.resolve? parent name with
    | some _ => none
    | none => some (.malformedNamespace parent name)
  | .hook _ _ _ call => undefinedTag? tags call
  | .route _ _ _ call =>
    match call.routePath? with
    | some (.ok _) => undefinedTag? tags call
    | _ => none

end Event

/-! ### One event -/

/-- What performing an event does to a pass. -/
inductive Advance (file : SourceFile) (pass : Pass) : Event → Pass → Prop
  | opened {parent name path : String} (kind : NamespaceKind) (line : Nat)
      (howned : parent ∈ pass.registry.owners)
      (hresolve : Namespace.resolve? parent name = some path) :
      Advance file pass (.opening parent name kind line)
        { pass with registry := pass.registry.addNamespace ⟨path, kind, some ⟨file.path, line⟩⟩ }
  | handled {owner : String} {controller : Option String} {verb : HookVerb} {call : Node}
      {handler : Handler}
      (hhandler : (Event.hook owner controller verb call).handler? file pass.registry.nextSerial =
        some handler)
      (hadmits : pass.registry.Admits handler.toDeclaration)
      (hfresh : Record.path handler ∉ pass.registry.paths) :
      Advance file pass (.hook owner controller verb call)
        { pass with
          registry := { pass.registry with
            handlers := pass.registry.handlers ++ [handler],
            paths := Record.path handler :: pass.registry.paths,
            nextSerial := pass.registry.nextSerial + 1 }
          summary := { pass.summary with handlers := pass.summary.handlers + 1 } }
  | added {owner : String} {controller : Option String} {verb : RouteVerb} {call : Node}
      {route : Route} (hroute : (Event.route owner controller verb call).route? file = some route)
      (hadmits : pass.registry.Admits route.toDeclaration)
      (hfresh : Record.path route ∉ pass.registry.paths) :
      Advance file pass (.route owner controller verb call)
        { pass with
          registry := { pass.registry with
            routes := pass.registry.routes ++ [route],
            paths := Record.path route :: pass.registry.paths }
          summary := { pass.summary with routes := pass.summary.routes + 1 } }
  | repeated {owner : String} {controller : Option String} {verb : RouteVerb} {call : Node}
      {route : Route} (hroute : (Event.route owner controller verb call).route? file = some route)
      (hadmits : pass.registry.Admits route.toDeclaration)
      (htaken : Record.path route ∈ pass.registry.paths) (warning : Warning) :
      Advance file pass (.route owner controller verb call) (pass.skip warning)
  | unread {owner : String} {controller : Option String} {verb : RouteVerb} {call : Node}
      (howned : owner ∈ pass.registry.owners)
      (hunread : (Event.route owner controller verb call).route? file = none)
      (warning : Warning) :
      Advance file pass (.route owner controller verb call) (pass.skip warning)

/-- The result of performing an event whose namespace is registered. A handler that is refused has
used up its serial number. -/
inductive Event.Outcome (file : SourceFile) (pass : Pass) (event : Event) : Except Halt Pass → Prop
  | done {after : Pass} (hnone : event.refusal? pass.registry.tags = none)
      (hadvance : Advance file pass event after) : Outcome file pass event (.ok after)
  | refused {error : RegistryError} {halted : Pass}
      (hsome : event.refusal? pass.registry.tags = some error)
      (hhalted : halted.registry = pass.registry ∨
        halted.registry = { pass.registry with nextSerial := pass.registry.nextSerial + 1 }) :
      Outcome file pass event (.error ⟨error, halted⟩)

section OneEvent

variable {file : SourceFile} {pass : Pass}

theorem Pass.addHandler_of_admits (hnumbered : pass.registry.Numbered) {declaration : Declaration}
    (hadmits : pass.registry.Admits declaration) (verb : HookVerb) :
    let handler : Handler := { declaration with verb, serial := pass.registry.nextSerial }
    Record.path handler ∉ pass.registry.paths ∧
      pass.addHandler declaration verb =
        .ok { pass with
              registry := { pass.registry with
                handlers := pass.registry.handlers ++ [handler],
                paths := Record.path handler :: pass.registry.paths,
                nextSerial := pass.registry.nextSerial + 1 }
              summary := { pass.summary with handlers := pass.summary.handlers + 1 } } := by
  intro handler
  have hfresh : Record.path handler ∉ pass.registry.paths := hnumbered.path_not_mem_paths rfl
  refine ⟨hfresh, ?_⟩
  -- The number is taken first, so the handler is registered in the registry after that.
  have hregister : Registry.registerHandler
      { pass.registry with nextSerial := pass.registry.nextSerial + 1 } handler = _ :=
    Registry.registerHandler_of_admits hadmits
  rw [if_neg hfresh] at hregister
  simp only [Pass.addHandler, Registry.takeSerial]
  rw [hregister]

theorem Pass.addHandler_of_not_covers {declaration : Declaration}
    (howned : declaration.owner ∈ pass.registry.owners)
    (hcovers : ¬pass.registry.tags.covers declaration.conditions = true) (verb : HookVerb) :
    pass.addHandler declaration verb =
      .error ⟨.unknownTag Tag.condition, { pass with
        registry := { pass.registry with nextSerial := pass.registry.nextSerial + 1 } }⟩ := by
  have hregister : Registry.registerHandler
      { pass.registry with nextSerial := pass.registry.nextSerial + 1 }
      { declaration with verb, serial := pass.registry.nextSerial } = _ :=
    Registry.registerHandler_of_check (Registry.check_of_not_covers howned hcovers)
  simp only [Pass.addHandler, Registry.takeSerial]
  rw [hregister]

theorem Pass.addRoute_of_fresh {route : Route}
    (hadmits : pass.registry.Admits route.toDeclaration)
    (hfresh : Record.path route ∉ pass.registry.paths) :
    pass.addRoute route =
      .ok { pass with
            registry := { pass.registry with
              routes := pass.registry.routes ++ [route],
              paths := Record.path route :: pass.registry.paths }
            summary := { pass.summary with routes := pass.summary.routes + 1 } } := by
  rw [Pass.addRoute, Registry.registerRoute_of_admits hadmits, if_neg hfresh]
  rfl

theorem Pass.addRoute_of_taken {route : Route}
    (hadmits : pass.registry.Admits route.toDeclaration)
    (htaken : Record.path route ∈ pass.registry.paths) :
    ∃ warning, pass.addRoute route = .ok (pass.skip warning) := by
  rw [Pass.addRoute, Registry.registerRoute_of_admits hadmits, if_pos htaken]
  dsimp only
  -- Whatever it is reported as, a route that is not added is reported.
  cases hrejection : pass.registry.rejection route with
  | added => exact absurd hrejection (Registry.rejection_ne_added _ _)
  | duplicate => exact ⟨_, rfl⟩
  | collision holder => exact ⟨_, rfl⟩

theorem Pass.addRoute_of_not_covers {route : Route} (howned : route.owner ∈ pass.registry.owners)
    (hcovers : ¬pass.registry.tags.covers route.conditions = true) :
    pass.addRoute route = .error ⟨.unknownTag Tag.condition, pass⟩ := by
  rw [Pass.addRoute,
    Registry.registerRoute_of_check (Registry.check_of_not_covers howned hcovers)]

theorem perform_opening_outcome {parent : String} (howned : parent ∈ pass.registry.owners)
    (name : String) (kind : NamespaceKind) (line : Nat) :
    Event.Outcome file pass (.opening parent name kind line)
      (Event.perform file pass (.opening parent name kind line)) := by
  rw [Event.perform, Pass.openNamespace, Registry.registerNamespace_of_owned howned]
  cases hresolve : Namespace.resolve? parent name with
  | some path => exact .done (by simp [Event.refusal?, hresolve]) (.opened kind line howned hresolve)
  | none => exact .refused (by simp [Event.refusal?, hresolve]) (.inl rfl)

theorem perform_hook_outcome (hnumbered : pass.registry.Numbered) {owner : String}
    (howned : owner ∈ pass.registry.owners) (controller : Option String) (verb : HookVerb)
    (call : Node) :
    Event.Outcome file pass (.hook owner controller verb call)
      (Event.perform file pass (.hook owner controller verb call)) := by
  rw [Event.perform]
  by_cases hcovers : pass.registry.tags.covers (Node.lastOptions call.positional) = true
  · have hadmits : pass.registry.Admits
        (Event.declaration file owner controller call call.handlerArgs) :=
      Registry.admits_iff.2 ⟨howned, hcovers⟩
    obtain ⟨hfresh, hadd⟩ := Pass.addHandler_of_admits hnumbered hadmits verb
    rw [hadd]
    exact .done (by simp [Event.refusal?, Event.undefinedTag?, hcovers])
      (.handled rfl hadmits hfresh)
  · have hadd : pass.addHandler
        (Event.declaration file owner controller call call.handlerArgs) verb = _ :=
      Pass.addHandler_of_not_covers howned hcovers verb
    rw [hadd]
    exact .refused (by simp [Event.refusal?, Event.undefinedTag?, hcovers]) (.inr rfl)

theorem perform_route_outcome {owner : String} (howned : owner ∈ pass.registry.owners)
    (controller : Option String) (verb : RouteVerb) (call : Node) :
    Event.Outcome file pass (.route owner controller verb call)
      (Event.perform file pass (.route owner controller verb call)) := by
  rw [Event.perform]
  cases hpath : call.routePath? with
  | none =>
    exact .done (by simp [Event.refusal?, hpath])
      (.unread howned (by simp [Event.route?, hpath]) _)
  | some read =>
    cases read with
    | error reason =>
      exact .done (by simp [Event.refusal?, hpath])
        (.unread howned (by simp [Event.route?, hpath]) _)
    | ok path =>
      -- From here on only the namespace and the options of the route matter.
      obtain ⟨route, hroute, hdeclaration⟩ : ∃ route : Route,
          (Event.route owner controller verb call).route? file = some route ∧
            route = { Event.declaration file owner controller call [path] with verb } :=
        ⟨_, by simp only [Event.route?, hpath], rfl⟩
      have hrefusal : (Event.route owner controller verb call).refusal? pass.registry.tags =
          Event.undefinedTag? pass.registry.tags call := by
        simp only [Event.refusal?, hpath]
      dsimp only
      rw [← hdeclaration]
      by_cases hcovers : pass.registry.tags.covers (Node.lastOptions call.positional) = true
      · have hnone : (Event.route owner controller verb call).refusal? pass.registry.tags = none := by
          rw [hrefusal, Event.undefinedTag?, if_pos hcovers]
        have hadmits : pass.registry.Admits route.toDeclaration := by
          rw [hdeclaration]
          exact Registry.admits_iff.2 ⟨howned, hcovers⟩
        by_cases htaken : Record.path route ∈ pass.registry.paths
        · obtain ⟨warning, hadd⟩ := Pass.addRoute_of_taken hadmits htaken
          rw [hadd]
          exact .done hnone (.repeated hroute hadmits htaken warning)
        · rw [Pass.addRoute_of_fresh hadmits htaken]
          exact .done hnone (.added hroute hadmits htaken)
      · have hsome : (Event.route owner controller verb call).refusal? pass.registry.tags =
            some (.unknownTag Tag.condition) := by
          rw [hrefusal, Event.undefinedTag?, if_neg hcovers]
        rw [Pass.addRoute_of_not_covers (by rw [hdeclaration]; exact howned)
          (by rw [hdeclaration]; exact hcovers)]
        exact .refused hsome (.inl rfl)

/-- Where the namespace of an event is registered, the event is performed unless it is refused. -/
theorem Event.perform_outcome (file : SourceFile) (hnumbered : pass.registry.Numbered) {event : Event}
    (howned : event.owner ∈ pass.registry.owners) :
    Event.Outcome file pass event (event.perform file pass) := by
  cases event with
  | opening parent name kind line => exact perform_opening_outcome howned name kind line
  | hook owner controller verb call =>
    exact perform_hook_outcome hnumbered howned controller verb call
  | route owner controller verb call => exact perform_route_outcome howned controller verb call

/-! ### What an event keeps -/

theorem Advance.numbered {event : Event} {after : Pass} (hnumbered : pass.registry.Numbered)
    (hadvance : Advance file pass event after) :
    after.registry.Numbered ∧ pass.registry.Extends after.registry := by
  obtain ⟨hinv, hserial⟩ := hnumbered
  cases hadvance with
  | @opened parent name path kind line howned hresolve =>
    have hstep := pass.registry.apply_step (.openNamespace parent name kind ⟨file.path, line⟩)
    rw [Registry.apply, Registry.registerNamespace_of_owned howned, hresolve] at hstep
    refine ⟨⟨hinv.step hstep, ?_⟩, hstep.extends⟩
    rw [Registry.addNamespace_eq]
    exact hserial
  | @handled owner controller verb call handler hhandler hadmits hfresh =>
    -- Two steps of the registry: the number is taken, then the handler is added.
    have htaken : Registry.Step pass.registry
        { pass.registry with nextSerial := pass.registry.nextSerial + 1 } := .serialTaken
    have hadded : Registry.Step { pass.registry with nextSerial := pass.registry.nextSerial + 1 } _ :=
      .handlerAdded handler hadmits hfresh
    refine ⟨⟨(hinv.step htaken).step hadded, fun other hother => ?_⟩,
      htaken.extends.trans hadded.extends⟩
    rcases List.mem_append.1 hother with hother | hother
    · exact Nat.lt_succ_of_lt (hserial other hother)
    · rw [List.mem_singleton.1 hother, ← Option.some.inj hhandler]
      exact Nat.lt_succ_self _
  | @added owner controller verb call route hroute hadmits hfresh =>
    have hstep : Registry.Step pass.registry _ := .routeAdded route hadmits hfresh
    exact ⟨⟨hinv.step hstep, hserial⟩, hstep.extends⟩
  | repeated => exact ⟨⟨hinv, hserial⟩, .refl _⟩
  | unread => exact ⟨⟨hinv, hserial⟩, .refl _⟩

theorem Advance.mem_owners_iff {event : Event} {after : Pass}
    (hadvance : Advance file pass event after) {path : String} :
    path ∈ after.registry.owners ↔ path ∈ pass.registry.owners ∨ event.opens? = some path := by
  cases hadvance with
  | opened kind line howned hresolve =>
    rw [Registry.mem_owners_addNamespace, Event.opens?, hresolve, Option.some.injEq, eq_comm]
  | handled => exact ⟨.inl, fun hpath => hpath.resolve_right nofun⟩
  | added => exact ⟨.inl, fun hpath => hpath.resolve_right nofun⟩
  | repeated => exact ⟨.inl, fun hpath => hpath.resolve_right nofun⟩
  | unread => exact ⟨.inl, fun hpath => hpath.resolve_right nofun⟩

end OneEvent

/-! ### Where events stand -/

/-- Every event stands in a namespace that is given or that an event before it opens. -/
def Grounded : List String → List Event → Prop
  | _, [] => True
  | owners, event :: rest =>
    event.owner ∈ owners ∧ Grounded (event.opens?.toList ++ owners) rest

theorem Grounded.mono {events : List Event} : ∀ {owners more : List String}, owners ⊆ more →
    Grounded owners events → Grounded more events := by
  induction events with
  | nil => exact fun _ _ => trivial
  | cons event rest ih =>
    intro owners more hsub hgrounded
    exact ⟨hsub hgrounded.1, ih (List.append_subset.2 ⟨List.subset_append_left _ _,
      List.Subset.trans hsub (List.subset_append_right _ _)⟩) hgrounded.2⟩

theorem Grounded.append {first second : List Event} : ∀ {owners : List String},
    Grounded owners first → Grounded owners second → Grounded owners (first ++ second) := by
  induction first with
  | nil => exact fun _ hsecond => hsecond
  | cons event rest ih =>
    intro owners hfirst hsecond
    have hsub : owners ⊆ event.opens?.toList ++ owners := List.subset_append_right _ _
    exact ⟨hfirst.1, ih hfirst.2 (hsecond.mono hsub)⟩

/-- How the events of a place come about: in order, from a namespace that is opened there, from a
block that stays in the namespace around, or from a declaration. -/
inductive Arises : Place → List Event → Prop
  | nil (place : Place) : Arises place []
  | append {place : Place} {first second : List Event} (hfirst : Arises place first)
      (hsecond : Arises place second) : Arises place (first ++ second)
  | malformed {place : Place} {name : String}
      (hresolve : Namespace.resolve? place.owner name = none) (kind : NamespaceKind) (line : Nat) :
      Arises place [.opening place.owner name kind line]
  | opened {place : Place} {name path : String} {controller : Option String} {events : List Event}
      (hresolve : Namespace.resolve? place.owner name = some path) (kind : NamespaceKind)
      (line : Nat) (hbody : Arises ⟨path, true, controller⟩ events) :
      Arises place (.opening place.owner name kind line :: events)
  | block {place : Place} {controller : Option String} {events : List Event}
      (hinside : place.inside = true) (hblock : Arises ⟨place.owner, true, controller⟩ events) :
      Arises place events
  | hook {place : Place} (hinside : place.inside = true) (verb : HookVerb) (call : Node) :
      Arises place [.hook place.owner place.controller verb call]
  | route {place : Place} (hinside : place.inside = true) (verb : RouteVerb) (call : Node) :
      Arises place [.route place.owner place.controller verb call]

theorem arises_opened (place : Place) (name : String) (kind : NamespaceKind) (line : Nat)
    (controller : Option String) {body : String → List Event}
    (hbody : ∀ path, Arises ⟨path, true, controller⟩ (body path)) :
    Arises place (opened place name kind line body) := by
  unfold opened
  cases hresolve : Namespace.resolve? place.owner name with
  | none => exact .malformed hresolve kind line
  | some path => exact .opened hresolve kind line (hbody path)

theorem arises_grouped (place : Place) (call : Node) (controller : Option String)
    {block : String → List Event}
    (hblock : ∀ path, Arises ⟨path, true, controller⟩ (block path)) :
    Arises place (grouped place call block) := by
  unfold grouped
  cases call.explicitReceiver? with
  | some receiver => exact arises_opened place _ _ _ controller hblock
  | none =>
    dsimp only
    split_ifs with hinside
    · exact .block hinside (hblock place.owner)
    · exact .nil place

mutual

theorem arises_eventsOf (place : Place) : ∀ node : Node, Arises place (eventsOf place node)
  | ⟨kind, field, source, line, children⟩ => by
    rw [eventsOf]
    by_cases hheading : field ∈ [some "name", some "superclass", some "parameters", some "value"]
    · rw [if_pos hheading]
      exact .nil place
    rw [if_neg hheading]
    by_cases hwrapper : kind ∈ ["body_statement", "block_body", "singleton_class"]
    · rw [if_pos hwrapper]
      exact arises_eventsAmong place children
    rw [if_neg hwrapper]
    by_cases hdefinition : kind ∈ ["class", "module"]
    · rw [if_pos hdefinition]
      cases Node.child? ⟨kind, field, source, line, children⟩ "name" with
      | none => exact .nil place
      | some name =>
        exact arises_opened place _ _ line place.controller fun path =>
          arises_eventsAmong (place.inNamespace path) children
    rw [if_neg hdefinition]
    by_cases hcall : kind = "call"
    · rw [if_pos hcall]
      cases Node.method? ⟨kind, field, source, line, children⟩ with
      | none => exact .nil place
      | some method =>
        cases method with
        | helpers =>
          exact arises_grouped place _ place.controller fun path =>
            arises_eventsInBlock (place.inNamespace path) children
        | controllers =>
          exact arises_grouped place _ _ fun path => arises_eventsInBlock ⟨path, true, _⟩ children
        | hook verb =>
          dsimp only
          split_ifs with hinside
          · exact .hook hinside verb _
          · exact .nil place
        | route verb =>
          dsimp only
          split_ifs with hinside
          · exact .route hinside verb _
          · exact .nil place
    · rw [if_neg hcall]
      exact .nil place

theorem arises_eventsAmong (place : Place) : ∀ nodes : List Node,
    Arises place (eventsAmong place nodes)
  | [] => .nil place
  | node :: rest => by
    rw [eventsAmong]
    exact (arises_eventsOf place node).append (arises_eventsAmong place rest)

theorem arises_eventsInBlock (place : Place) : ∀ nodes : List Node,
    Arises place (eventsInBlock place nodes)
  | [] => .nil place
  | ⟨_, _, _, _, children⟩ :: rest => by
    rw [eventsInBlock]
    split_ifs
    · exact arises_eventsAmong place children
    · exact arises_eventsInBlock place rest

end

theorem Arises.grounded {place : Place} {events : List Event} (harises : Arises place events) :
    ∀ owners, place.owner ∈ owners → Grounded owners events := by
  induction harises with
  | nil => exact fun _ _ => trivial
  | append _ _ hfirst hsecond =>
    exact fun owners hplace => (hfirst owners hplace).append (hsecond owners hplace)
  | malformed => exact fun owners hplace => ⟨hplace, trivial⟩
  | opened hresolve kind line hbody ih =>
    intro owners hplace
    refine ⟨hplace, ih _ ?_⟩
    simp [Event.opens?, hresolve]
  | block hinside hblock ih => exact ih
  | hook => exact fun owners hplace => ⟨hplace, trivial⟩
  | route => exact fun owners hplace => ⟨hplace, trivial⟩

/-! ### All events of a file -/

/-- Performing events one after another. -/
inductive Run (file : SourceFile) : Pass → List Event → Pass → Prop
  | nil (pass : Pass) : Run file pass [] pass
  | cons {pass mid after : Pass} {event : Event} {events : List Event}
      (hadvance : Advance file pass event mid) (hrun : Run file mid events after) :
      Run file pass (event :: events) after

theorem Run.numbered {file : SourceFile} {pass after : Pass} {events : List Event}
    (hrun : Run file pass events after) (hnumbered : pass.registry.Numbered) :
    after.registry.Numbered ∧ pass.registry.Extends after.registry := by
  induction hrun with
  | nil pass => exact ⟨hnumbered, .refl _⟩
  | cons hadvance _ ih =>
    obtain ⟨hmid, hextends⟩ := hadvance.numbered hnumbered
    obtain ⟨hafter, hrest⟩ := ih hmid
    exact ⟨hafter, hextends.trans hrest⟩

/-- The result of performing events: they run to their end, or the first that is refused stops
them. -/
inductive Outcome (file : SourceFile) (pass : Pass) (events : List Event) :
    Except Halt Pass → Prop
  | finished {after : Pass}
      (hnone : events.findSome? (Event.refusal? pass.registry.tags) = none)
      (hrun : Run file pass events after) : Outcome file pass events (.ok after)
  | stopped {error : RegistryError} {halted : Pass}
      (hsome : events.findSome? (Event.refusal? pass.registry.tags) = some error)
      (hnumbered : halted.registry.Numbered)
      (hextends : pass.registry.Extends halted.registry) :
      Outcome file pass events (.error ⟨error, halted⟩)

section Outcomes

variable {file : SourceFile} {pass : Pass} {event : Event} {rest : List Event}

/-- The first event is refused. -/
theorem Outcome.of_refused {halt : Halt} (hnumbered : pass.registry.Numbered)
    (hevent : Event.Outcome file pass event (.error halt)) :
    Outcome file pass (event :: rest) (.error halt) := by
  cases hevent with
  | @refused error halted hrefusal hhalted =>
    have hsome : (event :: rest).findSome? (Event.refusal? pass.registry.tags) = some error := by
      rw [List.findSome?_cons, hrefusal]
    rcases hhalted with hhalted | hhalted
    · exact .stopped hsome (hhalted ▸ hnumbered) (hhalted ▸ .refl _)
    · have hstep : Registry.Step pass.registry _ := .serialTaken
      exact .stopped hsome (hhalted ▸ hnumbered.takeSerial) (hhalted ▸ hstep.extends)

/-- The first event is performed, and then the others are. -/
theorem Outcome.of_advance {mid : Pass} {result : Except Halt Pass}
    (hnumbered : pass.registry.Numbered) (hnone : event.refusal? pass.registry.tags = none)
    (hadvance : Advance file pass event mid) (hrest : Outcome file mid rest result) :
    Outcome file pass (event :: rest) result := by
  obtain ⟨-, hextends⟩ := hadvance.numbered hnumbered
  have hskip : (event :: rest).findSome? (Event.refusal? pass.registry.tags) =
      rest.findSome? (Event.refusal? mid.registry.tags) := by
    rw [List.findSome?_cons, hnone, hextends.tags_eq]
  cases hrest with
  | finished hnone hrun => exact .finished (hskip.trans hnone) (.cons hadvance hrun)
  | stopped hsome hhalted hmore => exact .stopped (hskip.trans hsome) hhalted (hextends.trans hmore)

end Outcomes

theorem perform_outcome {file : SourceFile} {events : List Event} :
    ∀ {pass : Pass} {owners : List String}, pass.registry.Numbered → Grounded owners events →
      owners ⊆ pass.registry.owners → Outcome file pass events (perform file events pass) := by
  -- The namespaces that ground the events are registered, and stay so as events open more of them.
  induction events with
  | nil => exact fun _ _ _ => .finished rfl (.nil _)
  | cons event rest ih =>
    intro pass owners hnumbered hgrounded howners
    obtain ⟨howned, hgrounded⟩ := hgrounded
    have hevent := Event.perform_outcome file hnumbered (howners howned)
    rw [perform_cons]
    cases hperform : event.perform file pass with
    | error halt => exact .of_refused hnumbered (hperform ▸ hevent)
    | ok mid =>
      rw [hperform] at hevent
      cases hevent with
      | done hnone hadvance =>
        obtain ⟨hmid, hextends⟩ := hadvance.numbered hnumbered
        have hmore : event.opens?.toList ++ owners ⊆ mid.registry.owners := by
          refine List.append_subset.2 ⟨fun path hpath => ?_, fun path hpath => ?_⟩
          · exact hadvance.mem_owners_iff.2 (.inr (Option.mem_toList.1 hpath))
          · exact hextends.owners_subset (howners hpath)
        exact .of_advance hnumbered hnone hadvance (ih hmid hgrounded hmore)

end Extraction

namespace SourceFile

/-- Why a file is refused under a tag library: for its first event that is. -/
def refusal? (file : SourceFile) (tags : TagLibrary) : Option RegistryError :=
  file.events.findSome? (Extraction.Event.refusal? tags)

/-- A file is extracted to its end, or stopped where it is refused. -/
theorem extract_cases (file : SourceFile) {registry : Registry} (hnumbered : registry.Numbered) :
    (file.refusal? registry.tags = none ∧
      ∃ after : Extraction.Pass, Extraction.Run file { registry } file.events after ∧
        file.extract registry = ⟨.ok after.summary, after.registry, after.warnings⟩) ∨
    (∃ error, file.refusal? registry.tags = some error ∧
      ∃ halted : Extraction.Pass, halted.registry.Numbered ∧
        registry.Extends halted.registry ∧
        file.extract registry = ⟨.error error, halted.registry, halted.warnings⟩) := by
  have hroot : "" ∈ registry.owners :=
    List.mem_map.2 ⟨.root, List.mem_of_head? hnumbered.wellFormed.root_first, rfl⟩
  have houtcome : Extraction.Outcome file { registry } file.events (file.walk registry) := by
    rw [file.walk_eq_perform]
    have hgrounded := (Extraction.arises_eventsAmong {} file.tree.children).grounded [""]
    exact Extraction.perform_outcome hnumbered (hgrounded (List.mem_singleton_self _))
      (List.cons_subset.2 ⟨hroot, List.nil_subset _⟩)
  unfold SourceFile.extract
  cases hresult : file.walk registry with
  | ok after =>
    rw [hresult] at houtcome
    cases houtcome with
    | finished hnone hrun => exact .inl ⟨hnone, after, hrun, rfl⟩
  | error halt =>
    rw [hresult] at houtcome
    cases houtcome with
    | stopped hsome hhalted hextends => exact .inr ⟨_, hsome, _, hhalted, hextends, rfl⟩

theorem extract_of_refusal?_eq_none (file : SourceFile) {registry : Registry}
    (hnumbered : registry.Numbered) (hnone : file.refusal? registry.tags = none) :
    ∃ after : Extraction.Pass, Extraction.Run file { registry } file.events after ∧
      file.extract registry = ⟨.ok after.summary, after.registry, after.warnings⟩ := by
  rcases file.extract_cases hnumbered with ⟨-, hrun⟩ | ⟨error, hsome, -⟩
  · exact hrun
  · cases hnone.symm.trans hsome

theorem refusal?_eq_none_of_result (file : SourceFile) {registry : Registry} {summary : Summary}
    (hnumbered : registry.Numbered) (hresult : (file.extract registry).result = .ok summary) :
    file.refusal? registry.tags = none := by
  rcases file.extract_cases hnumbered with ⟨hnone, -⟩ | ⟨error, -, halted, -, -, heq⟩
  · exact hnone
  · rw [heq] at hresult
    cases hresult

theorem exists_run_of_result (file : SourceFile) {registry : Registry} {summary : Summary}
    (hnumbered : registry.Numbered) (hresult : (file.extract registry).result = .ok summary) :
    ∃ after : Extraction.Pass, Extraction.Run file { registry } file.events after ∧
      after.summary = summary ∧ (file.extract registry).registry = after.registry := by
  have hnone := file.refusal?_eq_none_of_result hnumbered hresult
  obtain ⟨after, hrun, heq⟩ := file.extract_of_refusal?_eq_none hnumbered hnone
  rw [heq] at hresult
  exact ⟨after, hrun, Except.ok.inj hresult, by rw [heq]⟩

theorem extract_numbered (file : SourceFile) {registry : Registry}
    (hnumbered : registry.Numbered) :
    (file.extract registry).registry.Numbered ∧
      registry.Extends (file.extract registry).registry := by
  rcases file.extract_cases hnumbered with ⟨-, after, hrun, heq⟩ | ⟨_, -, halted, hhalted, hextends, heq⟩
  · rw [heq]
    exact hrun.numbered hnumbered
  · rw [heq]
    exact ⟨hhalted, hextends⟩

end SourceFile

namespace Registry

/-- The registry after the extraction of files in order, whether or not some of them stop. -/
def afterFiles (registry : Registry) (files : List SourceFile) : Registry :=
  files.foldl (fun registry file => (file.extract registry).registry) registry

theorem Numbered.afterFiles {registry : Registry} (hnumbered : registry.Numbered)
    (files : List SourceFile) :
    (registry.afterFiles files).Numbered ∧ registry.Extends (registry.afterFiles files) := by
  induction files generalizing registry with
  | nil => exact ⟨hnumbered, .refl registry⟩
  | cons file files ih =>
    obtain ⟨hnext, hextends⟩ := file.extract_numbered hnumbered
    obtain ⟨hafter, hrest⟩ := ih hnext
    exact ⟨hafter, hextends.trans hrest⟩

theorem numbered_ofTags_afterFiles (tags : TagLibrary) (files : List SourceFile) :
    ((ofTags tags).afterFiles files).Numbered ∧ ((ofTags tags).afterFiles files).tags = tags := by
  obtain ⟨hafter, hextends⟩ := (numbered_ofTags tags).afterFiles files
  exact ⟨hafter, hextends.tags_eq⟩

end Registry

end RouteCatalog
