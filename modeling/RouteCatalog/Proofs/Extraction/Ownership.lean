import RouteCatalog.Proofs.Extraction.Additions
import RouteCatalog.Proofs.Extraction.Growth

/-!
# Who owns what is extracted

A walk carries the path of the namespace around and, apart from it, whether there is one at all. The
two agree: inside a class, module or grouping block the path is never that of the root, because a
name that is accepted means a path with a word in it (`Namespace.ne_root_of_resolve?`) and a block
without a receiver stays where it is. So the events that declare something stand below the root
(`Arises.isHomed`), and of the calls that they make a registry adds only what is owned
(`Registry.run_adds`).
-/

namespace RouteCatalog

theorem Namespace.ne_root_of_resolve? {parent name path : String}
    (hresolve : resolve? parent name = some path) : path ≠ "" := by
  have hword : ∀ relative : List Char, isRelativeName relative = true →
      String.ofList relative ≠ "" := by
    rintro relative hrelative hempty
    have hnil : relative = [] := by simpa using congrArg String.toList hempty
    rw [hnil] at hrelative
    exact absurd hrelative (by decide)
  unfold resolve? at hresolve
  split at hresolve
  · split_ifs at hresolve with hrelative
    obtain rfl := Option.some.inj hresolve
    exact hword _ hrelative
  · split_ifs at hresolve with hrelative
    obtain rfl := Option.some.inj hresolve
    unfold under
    split
    · exact hword _ hrelative
    · intro hempty
      simpa using congrArg String.toList hempty

namespace Extraction

/-- A declaration below the root, or no declaration at all. -/
def Event.IsHomed : Event → Prop
  | .opening _ _ _ _ => True
  | .hook owner _ _ _ => owner ≠ ""
  | .route owner _ _ _ => owner ≠ ""

theorem Arises.isHomed {place : Place} {events : List Event} (harises : Arises place events)
    (hplace : place.inside = true → place.owner ≠ "") : ∀ event ∈ events, event.IsHomed := by
  induction harises with
  | nil => simp
  | append _ _ hfirst hsecond =>
    intro event hevent
    rcases List.mem_append.1 hevent with hevent | hevent
    · exact hfirst hplace event hevent
    · exact hsecond hplace event hevent
  | malformed => simp [Event.IsHomed]
  | opened hresolve kind line _ ih =>
    have hbody := ih fun _ => Namespace.ne_root_of_resolve? hresolve
    rw [List.forall_mem_cons]
    exact ⟨trivial, hbody⟩
  | block hinside _ ih => exact ih fun _ => hplace hinside
  | hook hinside => simpa [Event.IsHomed] using hplace hinside
  | route hinside => simpa [Event.IsHomed] using hplace hinside

end Extraction

/-- The namespace of the record that a call wants to add. -/
def Operation.owner? : Operation → Option String
  | .addRoute route => some route.owner
  | .addHandler handler => some handler.owner
  | _ => none

theorem Extraction.Event.IsHomed.ne_root_of_calls {event : Event} (hhomed : event.IsHomed)
    (file : SourceFile) (serial : Nat) :
    ∀ operation ∈ event.calls file serial, operation.owner? ≠ some "" := by
  cases event with
  | opening => simp [Event.calls, Operation.owner?]
  | hook owner controller verb call =>
    intro operation hoperation
    rcases List.mem_cons.1 hoperation with rfl | hoperation
    · simp [Operation.owner?]
    · obtain ⟨handler, hhandler, rfl⟩ := List.mem_map.1 hoperation
      obtain rfl := Option.some.inj (Option.mem_toList.1 hhandler)
      exact fun hroot => hhomed (Option.some.inj hroot)
  | route owner controller verb call =>
    intro operation hoperation
    obtain ⟨route, hroute, rfl⟩ := List.mem_map.1 hoperation
    have howner := Event.owner_eq_of_route? (Option.mem_toList.1 hroute)
    rw [Operation.owner?, howner]
    exact fun hroot => hhomed (Option.some.inj hroot)

namespace Registry

/-! ### What calls add -/

/-- The records between two registries: calls asked for them, and their namespaces are there. -/
structure Adds (registry after : Registry) (operations : List Operation) (routes : List Route)
    (handlers : List Handler) : Prop where
  routes_eq : after.routes = registry.routes ++ routes
  handlers_eq : after.handlers = registry.handlers ++ handlers
  route_owned : ∀ route ∈ routes,
    .addRoute route ∈ operations ∧ route.owner ∈ after.owners
  handler_owned : ∀ handler ∈ handlers,
    .addHandler handler ∈ operations ∧ handler.owner ∈ after.owners

theorem adds_nothing {registry after : Registry} (operations : List Operation)
    (hroutes : after.routes = registry.routes) (hhandlers : after.handlers = registry.handlers) :
    ∃ routes handlers, Adds registry after operations routes handlers :=
  ⟨[], [], by rw [hroutes, List.append_nil], by rw [hhandlers, List.append_nil],
    List.forall_mem_nil _, List.forall_mem_nil _⟩

theorem apply_adds (registry : Registry) (operation : Operation) :
    ∃ routes handlers, Adds registry (registry.apply operation) [operation] routes handlers := by
  cases operation with
  | openNamespace parent name kind location =>
    rcases registry.apply_openNamespace_cases parent name kind location with
      hafter | ⟨_, -, -, -, hafter⟩
    · rw [hafter]
      exact adds_nothing _ rfl rfl
    · rw [hafter]
      exact adds_nothing _ rfl rfl
  | addRoute route =>
    rcases registry.apply_addRoute_cases route with hafter | ⟨hadmits, -, hafter⟩
    · rw [hafter]
      exact adds_nothing _ rfl rfl
    · rw [hafter]
      exact ⟨[route], [], rfl, (List.append_nil _).symm,
        List.forall_mem_singleton.2 ⟨List.mem_singleton_self _, hadmits.1⟩, List.forall_mem_nil _⟩
  | addHandler handler =>
    rcases registry.apply_addHandler_cases handler with hafter | ⟨hadmits, -, hafter⟩
    · rw [hafter]
      exact adds_nothing _ rfl rfl
    · rw [hafter]
      exact ⟨[], [handler], (List.append_nil _).symm, rfl, List.forall_mem_nil _,
        List.forall_mem_singleton.2 ⟨List.mem_singleton_self _, hadmits.1⟩⟩
  | takeSerial => exact adds_nothing _ rfl rfl

theorem Adds.trans {registry mid after : Registry} {first rest : List Operation}
    {routes moreRoutes : List Route} {handlers moreHandlers : List Handler}
    (hfirst : Adds registry mid first routes handlers)
    (hrest : Adds mid after rest moreRoutes moreHandlers) (hextends : mid.Extends after) :
    Adds registry after (first ++ rest) (routes ++ moreRoutes) (handlers ++ moreHandlers) where
  routes_eq := by rw [hrest.routes_eq, hfirst.routes_eq, List.append_assoc]
  handlers_eq := by rw [hrest.handlers_eq, hfirst.handlers_eq, List.append_assoc]
  route_owned route hroute := by
    rcases List.mem_append.1 hroute with hroute | hroute
    · obtain ⟨hcall, howned⟩ := hfirst.route_owned route hroute
      exact ⟨List.mem_append_left _ hcall, hextends.owners_subset howned⟩
    · obtain ⟨hcall, howned⟩ := hrest.route_owned route hroute
      exact ⟨List.mem_append_right _ hcall, howned⟩
  handler_owned handler hhandler := by
    rcases List.mem_append.1 hhandler with hhandler | hhandler
    · obtain ⟨hcall, howned⟩ := hfirst.handler_owned handler hhandler
      exact ⟨List.mem_append_left _ hcall, hextends.owners_subset howned⟩
    · obtain ⟨hcall, howned⟩ := hrest.handler_owned handler hhandler
      exact ⟨List.mem_append_right _ hcall, howned⟩

theorem run_adds (registry : Registry) (operations : List Operation) :
    ∃ routes handlers, Adds registry (registry.run operations) operations routes handlers := by
  induction operations generalizing registry with
  | nil => exact adds_nothing [] rfl rfl
  | cons operation rest ih =>
    obtain ⟨routes, handlers, hfirst⟩ := registry.apply_adds operation
    obtain ⟨moreRoutes, moreHandlers, hrest⟩ := ih (registry.apply operation)
    exact ⟨_, _, hfirst.trans hrest ((registry.apply operation).run_extends rest)⟩

end Registry

namespace SourceFile

theorem isHomed_of_mem_events (file : SourceFile) : ∀ event ∈ file.events, event.IsHomed := by
  have houtside : ({} : Extraction.Place).inside = true → ({} : Extraction.Place).owner ≠ "" := by
    simp
  exact (Extraction.arises_eventsAmong {} file.tree.children).isHomed houtside

/-- **Nothing is catalogued at the top level.** Whether or not it comes to its end, an extraction
adds records only at the ends of the lists, and each of them belongs to a registered namespace other
than the root. What the root owns stays as it was. -/
theorem extract_adds_below_root (file : SourceFile) (registry : Registry) :
    let after := (file.extract registry).registry
    (∃ routes handlers,
      after.routes = registry.routes ++ routes ∧ after.handlers = registry.handlers ++ handlers ∧
        (∀ route ∈ routes, route.owner ≠ "" ∧ route.owner ∈ after.owners) ∧
        ∀ handler ∈ handlers, handler.owner ≠ "" ∧ handler.owner ∈ after.owners) ∧
      after.routesIn "" = registry.routesIn "" ∧ after.handlersIn "" = registry.handlersIn "" := by
  intro after
  obtain ⟨operations, hrun, hcalls⟩ := file.extract_eq_calls registry
  have hhomed : ∀ operation ∈ operations, operation.owner? ≠ some "" := by
    intro operation hoperation
    obtain ⟨event, hevent, serial, hcall⟩ := hcalls operation hoperation
    exact (file.isHomed_of_mem_events event hevent).ne_root_of_calls file serial operation hcall
  obtain ⟨routes, handlers, hadds⟩ := registry.run_adds operations
  rw [← hrun] at hadds
  have hroutes : ∀ route ∈ routes, route.owner ≠ "" ∧ route.owner ∈ after.owners := by
    intro route hroute
    obtain ⟨hcall, howned⟩ := hadds.route_owned route hroute
    exact ⟨fun hroot => hhomed _ hcall (congrArg some hroot), howned⟩
  have hhandlers : ∀ handler ∈ handlers, handler.owner ≠ "" ∧ handler.owner ∈ after.owners := by
    intro handler hhandler
    obtain ⟨hcall, howned⟩ := hadds.handler_owned handler hhandler
    exact ⟨fun hroot => hhomed _ hcall (congrArg some hroot), howned⟩
  refine ⟨⟨routes, handlers, hadds.routes_eq, hadds.handlers_eq, hroutes, hhandlers⟩, ?_, ?_⟩
  · have hnone : routes.filter (fun route => route.owner == "") = [] :=
      List.filter_eq_nil_iff.2 fun route hroute => by simpa using (hroutes route hroute).1
    show after.routes.filter _ = _
    rw [hadds.routes_eq, List.filter_append, hnone, List.append_nil]
    rfl
  · have hnone : handlers.filter (fun handler => handler.owner == "") = [] :=
      List.filter_eq_nil_iff.2 fun handler hhandler => by simpa using (hhandlers handler hhandler).1
    show after.handlers.filter _ = _
    rw [hadds.handlers_eq, List.filter_append, hnone, List.append_nil]
    rfl

end SourceFile

end RouteCatalog
