import RouteCatalog.Proofs.Extraction.Steps

/-!
# What a run adds to the registry

Each list of the registry after a run is a function of the list before it and of the events alone.
The namespaces grow by what the events open (`Run.mem_owners_iff`), the handlers by what the hooks
declare, up to their numbers (`Run.handlers_eq`), and the routes by the first declaration of each
path (`Run.routes_eq`). Paths of different namespaces differ, so what becomes of the routes of one
namespace depends on the declarations in that namespace only (`Run.routesIn_eq`).
-/

namespace RouteCatalog

namespace Extraction

/-- The routes that events declare, those without a static path left out. -/
def declaredRoutes (file : SourceFile) (events : List Event) : List Route :=
  events.filterMap (Event.route? file)

/-- The handlers that events declare, without their numbers. -/
def declaredHandlers (file : SourceFile) (events : List Event) : List Handler :=
  events.filterMap (Event.handler? file 0)

theorem Event.map_unnumbered_handler? (file : SourceFile) (serial : Nat) (event : Event) :
    (event.handler? file serial).map Handler.unnumbered = event.handler? file 0 := by
  cases event <;> rfl

section Additions

variable {file : SourceFile} {pass after : Pass} {event : Event} {events : List Event}

/-! ### Namespaces -/

theorem Run.mem_owners_iff (hrun : Run file pass events after) {path : String} :
    path ∈ after.registry.owners ↔
      path ∈ pass.registry.owners ∨ path ∈ events.filterMap Event.opens? := by
  induction hrun with
  | nil pass => simp
  | @cons pass mid after event events hadvance _ ih =>
    rw [ih, hadvance.mem_owners_iff, or_assoc, List.mem_filterMap, List.mem_filterMap]
    simp

/-! ### Handlers -/

theorem Advance.handlers_eq (hadvance : Advance file pass event after) :
    after.registry.handlers.map Handler.unnumbered =
      pass.registry.handlers.map Handler.unnumbered ++ (event.handler? file 0).toList := by
  cases hadvance with
  | opened => simp [Registry.addNamespace_eq, Event.handler?]
  | handled hhandler =>
    rw [← Event.map_unnumbered_handler? file pass.registry.nextSerial, hhandler]
    simp
  | added => simp [Event.handler?]
  | repeated => simp [Event.handler?, Pass.skip]
  | unread => simp [Event.handler?, Pass.skip]

theorem Run.handlers_eq (hrun : Run file pass events after) :
    after.registry.handlers.map Handler.unnumbered =
      pass.registry.handlers.map Handler.unnumbered ++ declaredHandlers file events := by
  induction hrun with
  | nil pass => simp [declaredHandlers]
  | @cons pass mid after event events hadvance _ ih =>
    rw [ih, hadvance.handlers_eq, List.append_assoc, declaredHandlers, declaredHandlers,
      List.filterMap_cons]
    cases event.handler? file 0 <;> rfl

/-! ### Routes -/

/-- Keeps a route unless its path is held. -/
def adjoin (stored : List Route) (route : Route) : List Route :=
  if Record.path route ∈ stored.map Record.path then stored else stored ++ [route]

theorem adjoin_routes (hinv : pass.registry.WellFormed) {route : Route}
    (howned : route.owner ∈ pass.registry.owners) :
    adjoin pass.registry.routes route =
      if Record.path route ∈ pass.registry.paths then pass.registry.routes
      else pass.registry.routes ++ [route] := by
  have hheld : Record.path route ∈ pass.registry.routes.map Record.path ↔
      Record.path route ∈ pass.registry.paths := by
    rw [hinv.path_mem_paths_iff howned, List.mem_map]
  rw [adjoin]
  simp only [hheld]

theorem Advance.routes_eq (hinv : pass.registry.WellFormed)
    (hadvance : Advance file pass event after) :
    after.registry.routes = (event.route? file).toList.foldl adjoin pass.registry.routes := by
  cases hadvance with
  | opened => simp [Registry.addNamespace_eq, Event.route?]
  | handled => simp [Event.route?]
  | added hroute hadmits hfresh =>
    rw [hroute, Option.toList_some, List.foldl_cons, List.foldl_nil,
      adjoin_routes hinv hadmits.1, if_neg hfresh]
  | repeated hroute hadmits htaken warning =>
    rw [hroute, Option.toList_some, List.foldl_cons, List.foldl_nil,
      adjoin_routes hinv hadmits.1, if_pos htaken]
    rfl
  | unread howned hunread warning =>
    rw [hunread]
    rfl

theorem Run.routes_eq (hrun : Run file pass events after) (hnumbered : pass.registry.Numbered) :
    after.registry.routes = (declaredRoutes file events).foldl adjoin pass.registry.routes := by
  induction hrun with
  | nil pass => rfl
  | @cons pass mid after event events hadvance _ ih =>
    rw [ih (hadvance.numbered hnumbered).1, hadvance.routes_eq hnumbered.wellFormed,
      declaredRoutes, declaredRoutes, List.filterMap_cons, ← List.foldl_append]
    cases event.route? file <;> rfl

/-! ### The routes of one namespace -/

theorem Event.owner_eq_of_route? {route : Route} (hroute : event.route? file = some route) :
    route.owner = event.owner := by
  unfold Event.route? at hroute
  split at hroute
  · split at hroute
    · rw [← Option.some.inj hroute]
      rfl
    · cases hroute
  · cases hroute

theorem Advance.owner_mem (hadvance : Advance file pass event after) :
    event.owner ∈ pass.registry.owners := by
  cases hadvance with
  | opened kind line howned => exact howned
  | handled hhandler hadmits =>
    rw [← Option.some.inj hhandler] at hadmits
    exact hadmits.1
  | added hroute hadmits => exact Event.owner_eq_of_route? hroute ▸ hadmits.1
  | repeated hroute hadmits => exact Event.owner_eq_of_route? hroute ▸ hadmits.1
  | unread howned => exact howned

theorem Run.owner_mem (hrun : Run file pass events after) :
    ∀ event ∈ events, event.owner ∈ after.registry.owners := by
  induction hrun with
  | nil pass => simp
  | @cons pass mid after event events hadvance hrun ih =>
    intro other hother
    rcases List.mem_cons.1 hother with rfl | hother
    · exact hrun.mem_owners_iff.2 (.inl (hadvance.mem_owners_iff.2 (.inl hadvance.owner_mem)))
    · exact ih other hother

theorem Run.hash_not_mem_owner (hrun : Run file pass events after)
    (hnumbered : pass.registry.Numbered) :
    ∀ route ∈ declaredRoutes file events, '#' ∉ route.owner.toList := by
  intro route hroute
  obtain ⟨event, hevent, hroute⟩ := List.mem_filterMap.1 hroute
  rw [Event.owner_eq_of_route? hroute]
  exact (hrun.numbered hnumbered).1.wellFormed.hash_not_mem_owner (hrun.owner_mem event hevent)

theorem filter_adjoin {stored : List Route} {route : Route} (hhash : '#' ∉ route.owner.toList)
    (path : String) :
    (adjoin stored route).filter (fun other => other.owner == path) =
      ([route].filter fun other => other.owner == path).foldl adjoin
        (stored.filter fun other => other.owner == path) := by
  by_cases howner : route.owner = path
  · have hheld : Record.path route ∈ (stored.filter fun other => other.owner == path).map
        Record.path ↔ Record.path route ∈ stored.map Record.path := by
      simp only [List.mem_map, List.mem_filter, beq_iff_eq]
      constructor
      · rintro ⟨other, ⟨hother, -⟩, hpath⟩
        exact ⟨other, hother, hpath⟩
      · rintro ⟨other, hother, hpath⟩
        -- The owner is read back from the path, so whoever holds the path is in this namespace.
        have hsame := (Route.owner_verb_of_path_eq hhash hpath.symm).1
        exact ⟨other, ⟨hother, hsame.symm.trans howner⟩, hpath⟩
    rw [List.filter_cons_of_pos (by simpa using howner), List.filter_nil, List.foldl_cons,
      List.foldl_nil, adjoin, adjoin]
    simp only [hheld]
    split
    · rfl
    · rw [List.filter_append, List.filter_cons_of_pos (by simpa using howner), List.filter_nil]
  · rw [List.filter_cons_of_neg (by simpa using howner), List.filter_nil, List.foldl_nil, adjoin]
    split
    · rfl
    · rw [List.filter_append, List.filter_cons_of_neg (by simpa using howner), List.filter_nil,
        List.append_nil]

theorem filter_foldl_adjoin {declared : List Route}
    (hhash : ∀ route ∈ declared, '#' ∉ route.owner.toList) (stored : List Route) (path : String) :
    (declared.foldl adjoin stored).filter (fun route => route.owner == path) =
      (declared.filter fun route => route.owner == path).foldl adjoin
        (stored.filter fun route => route.owner == path) := by
  induction declared generalizing stored with
  | nil => rfl
  | cons route declared ih =>
    have hrest := ih (fun other hother => hhash other (List.mem_cons_of_mem _ hother))
      (adjoin stored route)
    rw [List.foldl_cons, hrest, filter_adjoin (hhash route List.mem_cons_self), ← List.foldl_append,
      ← List.filter_append, List.singleton_append]

/-! ### The records of one namespace after a run -/

theorem Run.routesIn_eq (hrun : Run file pass events after) (hnumbered : pass.registry.Numbered)
    (path : String) :
    after.registry.routesIn path =
      ((declaredRoutes file events).filter fun route => route.owner == path).foldl adjoin
        (pass.registry.routesIn path) := by
  rw [Registry.routesIn, hrun.routes_eq hnumbered,
    filter_foldl_adjoin (hrun.hash_not_mem_owner hnumbered)]
  rfl

theorem Run.handlersIn_eq (hrun : Run file pass events after) (path : String) :
    (after.registry.handlersIn path).map Handler.unnumbered =
      (pass.registry.handlersIn path).map Handler.unnumbered ++
        (declaredHandlers file events).filter fun handler => handler.owner == path := by
  rw [Registry.map_unnumbered_handlersIn, Registry.map_unnumbered_handlersIn, hrun.handlers_eq,
    List.filter_append]

end Additions

end Extraction

end RouteCatalog
