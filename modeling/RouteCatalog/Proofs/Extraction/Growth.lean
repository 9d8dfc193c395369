import RouteCatalog.Proofs.Extraction.Steps

/-!
# The registry only grows

A call of the registry is refused and leaves the registry as it was, or it is answered and changes
nothing or adds one element at the end of one list (`Registry.GrowsByOne`). An extraction goes on
with the registry that its last call left, and stops with it, so it touches the registry by calls
only: `Event.calls` lists those of an event, and whatever they keep, a whole extraction keeps
(`SourceFile.extract_induction`), whether it comes to its end or not. So everything that was
registered stays where it is and as it is (`Registry.Keeps`). None of this needs the registry to be
well formed.
-/

namespace RouteCatalog

namespace Registry

/-! ### One call -/

/-- Why a result is none, if it is. -/
def errorOf {α : Type} : Except RegistryError α → Option RegistryError
  | .ok _ => none
  | .error error => some error

/-- Why a call is refused, if it is. -/
def refusal? (registry : Registry) : Operation → Option RegistryError
  | .openNamespace parent name kind location =>
    errorOf (registry.registerNamespace parent name kind location).1
  | .addRoute route => errorOf (registry.registerRoute route).1
  | .addHandler handler => errorOf (registry.registerHandler handler).1
  | .takeSerial => none

/-- What a call makes of a registry: nothing if it is refused, and otherwise nothing or one element
more, at the end of the list that the call is about. -/
structure GrowsByOne (registry : Registry) : Prop where
  refused_namespace : ∀ parent name kind location error after,
    registry.registerNamespace parent name kind location = (.error error, after) → after = registry
  refused_route : ∀ route error after,
    registry.registerRoute route = (.error error, after) → after = registry
  refused_handler : ∀ handler error after,
    registry.registerHandler handler = (.error error, after) → after = registry
  namespaces : ∀ parent name kind location path after,
    registry.registerNamespace parent name kind location = (.ok path, after) →
      (path ∈ registry.owners ∧ after = registry) ∨
      (path ∉ registry.owners ∧ after =
        { registry with namespaces := registry.namespaces ++ [⟨path, kind, some location⟩] })
  routes : ∀ route registration after,
    registry.registerRoute route = (.ok registration, after) →
      (registration ≠ .added ∧ after = registry) ∨
      (registration = .added ∧ after =
        { registry with
          routes := registry.routes ++ [route], paths := Record.path route :: registry.paths })
  handlers : ∀ handler registration after,
    registry.registerHandler handler = (.ok registration, after) →
      (registration ≠ .added ∧ after = registry) ∨
      (registration = .added ∧ after =
        { registry with
          handlers := registry.handlers ++ [handler],
          paths := Record.path handler :: registry.paths })

theorem growsByOne (registry : Registry) : registry.GrowsByOne where
  refused_namespace _ _ _ _ _ _ hregister := registerNamespace_error hregister
  refused_route _ _ _ hregister := registerRoute_error hregister
  refused_handler _ _ _ hregister := registerHandler_error hregister
  namespaces _ _ _ _ _ _ hregister := (registerNamespace_cases hregister).2.2
  routes _ _ _ hregister :=
    (registerRoute_cases hregister).imp_right fun ⟨hadded, _, _, hafter⟩ => ⟨hadded, hafter⟩
  handlers _ _ _ hregister :=
    (registerHandler_cases hregister).imp_right fun ⟨hadded, _, _, hafter⟩ => ⟨hadded, hafter⟩

/-! ### Many calls -/

/-- Everything that is registered is still found, as it was and where it was. -/
structure Keeps (registry after : Registry) : Prop where
  space : ∀ path space, registry.namespace? path = some space → after.namespace? path = some space
  route : ∀ (i : Nat) (route : Route),
    registry.routes[i]? = some route → after.routes[i]? = some route
  handler : ∀ (i : Nat) (handler : Handler),
    registry.handlers[i]? = some handler → after.handlers[i]? = some handler

theorem getElem?_of_isPrefix {α : Type} {before after : List α} (hinitial : before <+: after)
    {i : Nat} {a : α} (ha : before[i]? = some a) : after[i]? = some a := by
  obtain ⟨hi, rfl⟩ := List.getElem?_eq_some_iff.1 ha
  exact List.prefix_iff_getElem?.1 hinitial i hi

theorem Extends.keeps {registry after : Registry} (hextends : registry.Extends after) :
    registry.Keeps after where
  space path space hspace := by
    obtain ⟨added, hadded⟩ := hextends.namespaces
    have hfound : registry.namespaces.find? (fun space => space.path == path) = some space := hspace
    rw [namespace?, ← hadded, List.find?_append, hfound, Option.some_or]
  route _ _ hroute := getElem?_of_isPrefix hextends.routes hroute
  handler _ _ hhandler := getElem?_of_isPrefix hextends.handlers hhandler

theorem run_extends (registry : Registry) (operations : List Operation) :
    registry.Extends (registry.run operations) :=
  run_induction (fun _ _ hextends hstep => hextends.trans hstep.extends) (.refl registry) operations

end Registry

namespace Extraction

/-! ### The calls of an event -/

/-- The calls that an event makes, when a serial number is next. -/
def Event.calls (file : SourceFile) (serial : Nat) (event : Event) : List Operation :=
  match event with
  | .opening parent name kind line => [.openNamespace parent name kind ⟨file.path, line⟩]
  | .hook _ _ _ _ => .takeSerial :: (event.handler? file serial).toList.map .addHandler
  | .route _ _ _ _ => (event.route? file).toList.map .addRoute

/-- The pass that a result leaves, whether or not the walk was stopped. -/
def passOf : Except Halt Pass → Pass
  | .ok pass => pass
  | .error halt => halt.pass

/-- The registry that a walk stopped at refuses a call for the reason that stopped the walk. -/
def StopsAtRefusal (result : Except Halt Pass) : Prop :=
  ∀ halt, result = .error halt →
    ∃ operation, halt.pass.registry.refusal? operation = some halt.error

theorem stopsAtRefusal_ok (pass : Pass) : StopsAtRefusal (.ok pass) := by
  intro halt hresult
  cases hresult

section OneEvent

variable (file : SourceFile) (pass : Pass)

theorem perform_opening_calls (parent name : String) (kind : NamespaceKind) (line : Nat) :
    (passOf (Event.perform file pass (.opening parent name kind line))).registry =
        pass.registry.apply (.openNamespace parent name kind ⟨file.path, line⟩) ∧
      StopsAtRefusal (Event.perform file pass (.opening parent name kind line)) := by
  rw [Event.perform, Pass.openNamespace, Registry.apply]
  rcases hregister : pass.registry.registerNamespace parent name kind ⟨file.path, line⟩ with
    ⟨error | path, after⟩
  · refine ⟨rfl, ?_⟩
    rintro _ ⟨⟩
    -- The call leaves the registry that it was made on, which would refuse it again.
    obtain rfl := Registry.registerNamespace_error hregister
    exact ⟨.openNamespace parent name kind ⟨file.path, line⟩,
      by rw [Registry.refusal?, hregister]; rfl⟩
  · exact ⟨rfl, stopsAtRefusal_ok _⟩

theorem addRoute_calls (route : Route) :
    (passOf (pass.addRoute route)).registry = pass.registry.apply (.addRoute route) ∧
      StopsAtRefusal (pass.addRoute route) := by
  rw [Pass.addRoute, Registry.apply]
  rcases hregister : pass.registry.registerRoute route with ⟨error | registration, after⟩
  · refine ⟨rfl, ?_⟩
    rintro _ ⟨⟩
    obtain rfl := Registry.registerRoute_error hregister
    exact ⟨.addRoute route, by rw [Registry.refusal?, hregister]; rfl⟩
  · dsimp only
    cases registration.warning? route with
    | none => exact ⟨rfl, stopsAtRefusal_ok _⟩
    | some warning => exact ⟨rfl, stopsAtRefusal_ok _⟩

theorem addHandler_calls (declaration : Declaration) (verb : HookVerb) :
    (passOf (pass.addHandler declaration verb)).registry =
        pass.registry.run
          [.takeSerial,
            .addHandler { declaration with verb, serial := pass.registry.nextSerial }] ∧
      StopsAtRefusal (pass.addHandler declaration verb) := by
  -- The number is taken before the handler is registered, and stays taken if that is refused.
  simp only [Pass.addHandler, Registry.takeSerial, Registry.run, List.foldl_cons, List.foldl_nil,
    Registry.apply]
  rcases hregister : Registry.registerHandler
      { pass.registry with nextSerial := pass.registry.nextSerial + 1 }
      { declaration with verb, serial := pass.registry.nextSerial } with
    ⟨error | registration, after⟩
  · refine ⟨rfl, ?_⟩
    rintro _ ⟨⟩
    obtain rfl := Registry.registerHandler_error hregister
    exact ⟨.addHandler { declaration with verb, serial := pass.registry.nextSerial },
      by rw [Registry.refusal?, hregister]; rfl⟩
  · cases registration <;> exact ⟨rfl, stopsAtRefusal_ok _⟩

theorem Event.perform_calls (event : Event) :
    (passOf (event.perform file pass)).registry =
        pass.registry.run (event.calls file pass.registry.nextSerial) ∧
      StopsAtRefusal (event.perform file pass) := by
  cases event with
  | opening parent name kind line => exact perform_opening_calls file pass parent name kind line
  | hook owner controller verb call =>
    exact addHandler_calls pass (Event.declaration file owner controller call call.handlerArgs) verb
  | route owner controller verb call =>
    rw [Event.perform, Event.calls, Event.route?]
    cases call.routePath? with
    | none => exact ⟨rfl, stopsAtRefusal_ok _⟩
    | some read =>
      cases read with
      | error reason => exact ⟨rfl, stopsAtRefusal_ok _⟩
      | ok path => exact addRoute_calls pass _

end OneEvent

/-! ### Whole extractions -/

/-- What every event keeps, whether or not it is refused, the pass over all of them keeps. -/
theorem perform_induction {file : SourceFile} {P : Pass → Prop} {events : List Event}
    (hevent : ∀ event ∈ events, ∀ pass, P pass → P (passOf (event.perform file pass)))
    {pass : Pass} (hpass : P pass) : P (passOf (perform file events pass)) := by
  induction events generalizing pass with
  | nil => exact hpass
  | cons event rest ih =>
    have hnext := hevent event List.mem_cons_self pass hpass
    rw [perform_cons]
    cases hperform : event.perform file pass with
    | error halt =>
      rw [hperform] at hnext
      exact hnext
    | ok mid =>
      rw [hperform] at hnext
      exact ih (fun other hother => hevent other (List.mem_cons_of_mem _ hother)) hnext

theorem perform_stopsAtRefusal (file : SourceFile) (events : List Event) (pass : Pass) :
    StopsAtRefusal (perform file events pass) := by
  induction events generalizing pass with
  | nil => exact stopsAtRefusal_ok pass
  | cons event rest ih =>
    rw [perform_cons]
    cases hperform : event.perform file pass with
    | error halt =>
      have hstops := (event.perform_calls file pass).2
      rw [hperform] at hstops
      exact hstops
    | ok mid => exact ih mid

end Extraction

namespace SourceFile

/-- The pass over a file, up to its end or to where it is stopped. -/
def lastPass (file : SourceFile) (registry : Registry) : Extraction.Pass :=
  Extraction.passOf (file.walk registry)

theorem extract_of_lastPass (file : SourceFile) (registry : Registry) :
    let pass := file.lastPass registry
    file.extract registry = ⟨.ok pass.summary, pass.registry, pass.warnings⟩ ∨
      ∃ error, file.extract registry = ⟨.error error, pass.registry, pass.warnings⟩ := by
  unfold extract lastPass
  cases file.walk registry with
  | ok pass => exact .inl rfl
  | error halt => exact .inr ⟨halt.error, rfl⟩

theorem extract_registry (file : SourceFile) (registry : Registry) :
    (file.extract registry).registry = (file.lastPass registry).registry := by
  rcases file.extract_of_lastPass registry with hextract | ⟨error, hextract⟩ <;> rw [hextract]

theorem lastPass_induction (file : SourceFile) {P : Extraction.Pass → Prop}
    (hevent : ∀ event ∈ file.events, ∀ pass, P pass →
      P (Extraction.passOf (event.perform file pass)))
    {registry : Registry} (hstart : P { registry }) : P (file.lastPass registry) := by
  rw [lastPass, walk_eq_perform]
  exact Extraction.perform_induction hevent hstart

/-- What the calls of every event keep, an extraction keeps. -/
theorem extract_induction (file : SourceFile) {P : Registry → Prop}
    (hcalls : ∀ event ∈ file.events, ∀ registry, P registry →
      P (registry.run (event.calls file registry.nextSerial)))
    {registry : Registry} (hregistry : P registry) : P (file.extract registry).registry := by
  rw [extract_registry]
  refine file.lastPass_induction (P := fun pass => P pass.registry)
    (fun event hevent pass hpass => ?_) hregistry
  rw [(event.perform_calls file pass).1]
  exact hcalls event hevent pass.registry hpass

/-- A file that stops leaves the registry that refused the call it stopped at. -/
theorem exists_refusal?_of_error (file : SourceFile) {registry : Registry} {error : RegistryError}
    (herror : (file.extract registry).result = .error error) :
    ∃ operation, (file.extract registry).registry.refusal? operation = some error := by
  have hstops : Extraction.StopsAtRefusal (file.walk registry) := by
    rw [walk_eq_perform]
    exact Extraction.perform_stopsAtRefusal file file.events { registry }
  unfold extract at herror ⊢
  cases hwalk : file.walk registry with
  | ok pass =>
    rw [hwalk] at herror
    cases herror
  | error halt =>
    rw [hwalk] at herror hstops
    obtain rfl := Except.error.inj herror
    exact hstops halt rfl

/-- An extraction changes the registry by calls that events of the file make. -/
theorem extract_eq_calls (file : SourceFile) (registry : Registry) :
    ∃ operations, (file.extract registry).registry = registry.run operations ∧
      ∀ operation ∈ operations, ∃ event ∈ file.events, ∃ serial,
        operation ∈ event.calls file serial := by
  refine file.extract_induction (P := fun after => ∃ operations, after = registry.run operations ∧
    ∀ operation ∈ operations, ∃ event ∈ file.events, ∃ serial,
      operation ∈ event.calls file serial) ?_ ⟨[], rfl, by simp⟩
  rintro event hevent _ ⟨operations, rfl, hcalls⟩
  refine ⟨operations ++ event.calls file (registry.run operations).nextSerial,
    List.foldl_append.symm, fun operation hoperation => ?_⟩
  rcases List.mem_append.1 hoperation with hoperation | hoperation
  · exact hcalls operation hoperation
  · exact ⟨event, hevent, _, hoperation⟩

theorem extract_eq_run (file : SourceFile) (registry : Registry) :
    ∃ operations, (file.extract registry).registry = registry.run operations := by
  obtain ⟨operations, hrun, -⟩ := file.extract_eq_calls registry
  exact ⟨operations, hrun⟩

theorem extract_extends (file : SourceFile) (registry : Registry) :
    registry.Extends (file.extract registry).registry := by
  obtain ⟨operations, hrun⟩ := file.extract_eq_run registry
  rw [hrun]
  exact registry.run_extends operations

end SourceFile

namespace Registry

theorem afterFiles_extends (registry : Registry) (files : List SourceFile) :
    registry.Extends (registry.afterFiles files) := by
  induction files generalizing registry with
  | nil => exact .refl registry
  | cons file files ih => exact (file.extract_extends registry).trans (ih _)

theorem afterFiles_append (registry : Registry) (earlier later : List SourceFile) :
    registry.afterFiles (earlier ++ later) = (registry.afterFiles earlier).afterFiles later :=
  List.foldl_append

/-- **The registry is append-only and its failures are atomic.** A refused call changes nothing, and
any other adds at most one element, at the end of one list. A file changes the registry by calls
only, and one that stops leaves the registry that refused it. Whatever files are extracted, to their
ends or not, everything that was registered before them stays where it is and as it is. -/
theorem append_only (registry : Registry) :
    registry.GrowsByOne ∧
      (∀ file : SourceFile,
        (∃ operations, (file.extract registry).registry = registry.run operations) ∧
          ∀ error, (file.extract registry).result = .error error →
            ∃ operation, (file.extract registry).registry.refusal? operation = some error) ∧
      ∀ earlier later : List SourceFile,
        (registry.afterFiles earlier).Extends (registry.afterFiles (earlier ++ later)) ∧
          (registry.afterFiles earlier).Keeps (registry.afterFiles (earlier ++ later)) := by
  refine ⟨registry.growsByOne, fun file => ⟨file.extract_eq_run registry, fun error herror => ?_⟩,
    fun earlier later => ?_⟩
  · exact file.exists_refusal?_of_error herror
  · rw [afterFiles_append]
    have hextends := (registry.afterFiles earlier).afterFiles_extends later
    exact ⟨hextends, hextends.keeps⟩

end Registry

/-- A class that declares a route, and after it a group under a name that is no path. -/
def SourceFile.haltingClass (name : String) : SourceFile where
  path := ⟨[]⟩
  source := ""
  tree := ⟨"program", none, "", 1,
    [⟨"class", none, "", 1,
      [⟨"constant", some "name", name, 1, []⟩,
        ⟨"call", none, "get :first", 2,
          [⟨"identifier", some "method", "get", 2, []⟩,
            ⟨"argument_list", some "arguments", ":first", 2,
              [⟨"simple_symbol", none, ":first", 2, []⟩]⟩]⟩,
        ⟨"call", none, "App.new.controllers", 3,
          [⟨"call", some "receiver", "App.new", 3, []⟩,
            ⟨"identifier", some "method", "controllers", 3, []⟩]⟩]⟩]⟩

theorem Registry.append_only_haltingClass :
    let after := Registry.empty.afterFiles [SourceFile.haltingClass "App"]
    after.routes.length = 1 ∧
      (∃ operation, after.refusal? operation = some (.malformedNamespace "App" "App.new")) ∧
      after.Keeps (after.afterFiles [SourceFile.haltingClass "Admin"]) := by
  intro after
  obtain ⟨-, hfiles, hgrows⟩ := Registry.append_only Registry.empty
  have hstopped : ((SourceFile.haltingClass "App").extract Registry.empty).result =
      .error (.malformedNamespace "App" "App.new") := by
    decide +kernel
  have hkeeps := (hgrows [SourceFile.haltingClass "App"] [SourceFile.haltingClass "Admin"]).2
  rw [Registry.afterFiles_append] at hkeeps
  exact ⟨by decide +kernel, (hfiles (SourceFile.haltingClass "App")).2 _ hstopped, hkeeps⟩

end RouteCatalog
