import RouteCatalog.Proofs.Extraction.Accounting
import RouteCatalog.Proofs.Extraction.Growth
import RouteCatalog.Proofs.Registry.Spending

/-!
# Extractions number their handlers in order

An event that declares a handler takes a number and uses it at once, so the numbers of the stored
handlers ascend and stay below the next one (`Registry.Ascending`), also where a file is stopped
between the two. Numbers are read back from identifiers, and so identifiers differ wherever numbers
do, however alike the handlers are otherwise.
-/

namespace RouteCatalog

namespace Registry

/-- The handlers carry ascending numbers, all below the next one. -/
structure Ascending (registry : Registry) : Prop where
  serials : (registry.handlers.map Handler.serial).Pairwise (· < ·)
  serial_lt : ∀ handler ∈ registry.handlers, handler.serial < registry.nextSerial

theorem ascending_ofTags (tags : TagLibrary) : (ofTags tags).Ascending where
  serials := List.Pairwise.nil
  serial_lt _ hhandler := absurd hhandler List.not_mem_nil

variable {registry : Registry}

theorem Ascending.of_frame {after : Registry} (hascending : registry.Ascending)
    (hframe : after.handlers = registry.handlers ∧ after.nextSerial = registry.nextSerial) :
    after.Ascending := by
  constructor
  · rw [hframe.1]
    exact hascending.serials
  · rw [hframe.1, hframe.2]
    exact hascending.serial_lt

theorem Ascending.addNumbered (hascending : registry.Ascending) {handler : Handler}
    (hserial : handler.serial = registry.nextSerial) :
    (registry.run [.takeSerial, .addHandler handler]).Ascending := by
  have htaken : (registry.apply .takeSerial).Ascending :=
    ⟨hascending.serials, fun other hother => Nat.lt_succ_of_lt (hascending.serial_lt other hother)⟩
  show ((registry.apply .takeSerial).apply (.addHandler handler)).Ascending
  rcases (registry.apply .takeSerial).apply_addHandler_cases handler with
    hafter | ⟨-, -, hafter⟩
  · rw [hafter]
    exact htaken
  · rw [hafter]
    constructor
    · rw [List.map_append, List.pairwise_append]
      refine ⟨hascending.serials, List.pairwise_singleton _ _, fun m hm n hn => ?_⟩
      obtain ⟨other, hother, rfl⟩ := List.mem_map.1 hm
      have hlt := hascending.serial_lt other hother
      obtain rfl : n = handler.serial := List.mem_singleton.1 hn
      omega
    · intro other hother
      rcases List.mem_append.1 hother with hother | hother
      · exact htaken.serial_lt other hother
      · rw [List.mem_singleton.1 hother, hserial]
        exact Nat.lt_succ_self _

theorem Ascending.calls (hascending : registry.Ascending) (file : SourceFile)
    (event : Extraction.Event) :
    (registry.run (event.calls file registry.nextSerial)).Ascending := by
  cases event with
  | opening parent name kind line =>
    exact hascending.of_frame (registry.apply_openNamespace_frame parent name kind _)
  | hook owner controller verb call => exact hascending.addNumbered rfl
  | route owner controller verb call =>
    rw [Extraction.Event.calls]
    cases (Extraction.Event.route owner controller verb call).route? file with
    | none => exact hascending
    | some route => exact hascending.of_frame (registry.apply_addRoute_frame route)

theorem Ascending.afterFiles (hascending : registry.Ascending) (files : List SourceFile) :
    (registry.afterFiles files).Ascending := by
  induction files generalizing registry with
  | nil => exact hascending
  | cons file files ih =>
    exact ih (file.extract_induction (fun event _ _ hbefore => hbefore.calls file event) hascending)

theorem map_number?_handlers (registry : Registry) :
    registry.handlers.map Handler.number? = (registry.handlers.map Handler.serial).map some := by
  rw [List.map_map]
  exact List.map_congr_left fun handler _ => handler.number?_eq

theorem Ascending.identifiers_nodup (hascending : registry.Ascending) :
    (registry.handlers.map Record.identifier).Nodup := by
  have hserials : (registry.handlers.map Handler.serial).Nodup :=
    hascending.serials.imp Nat.ne_of_lt
  have hnumbers : (registry.handlers.map Handler.number?).Nodup := by
    rw [map_number?_handlers]
    exact hserials.map fun _ _ => Option.some.inj
  -- The number is a function of the identifier, so equal identifiers would give equal numbers.
  apply List.Nodup.of_map fun identifier : String =>
    Text.readNat? 10 (Text.afterLast '#' identifier.toList)
  rw [List.map_map]
  exact hnumbers

/-- **Serial numbers keep handlers apart.** In a run of calls that gives every handler a number that
was taken before, and no number twice, a handler is added or refused, and never taken for one that
is there. After extractions, the numbers at the ends of the identifiers ascend in the order of the
handlers and are below the next one, and no two handlers of any namespaces share an identifier. -/
theorem serials_keep_handlers_apart (tags : TagLibrary) :
    (∀ operations, (ofTags tags).Spends [] operations →
      ∀ before handler after, operations = before ++ .addHandler handler :: after →
        (∃ next, ((ofTags tags).run before).registerHandler handler = (.ok .added, next)) ∨
          ∃ error, ((ofTags tags).run before).registerHandler handler =
            (.error error, (ofTags tags).run before)) ∧
      ∀ files : List SourceFile,
        let registry := (ofTags tags).afterFiles files
        ∃ numbers : List Nat, registry.handlers.map Handler.number? = numbers.map some ∧
          numbers.Pairwise (· < ·) ∧ (∀ n ∈ numbers, n < registry.nextSerial) ∧
          (registry.handlers.map Record.identifier).Nodup := by
  constructor
  · rintro _ hspends before handler after rfl
    exact (unspent_ofTags tags).run_outcome hspends
  · intro files registry
    have hascending : registry.Ascending := (ascending_ofTags tags).afterFiles files
    refine ⟨registry.handlers.map Handler.serial, registry.map_number?_handlers,
      hascending.serials, fun n hn => ?_, hascending.identifiers_nodup⟩
    obtain ⟨handler, hhandler, rfl⟩ := List.mem_map.1 hn
    exact hascending.serial_lt handler hhandler

/-- A hook of the root namespace, under a number. -/
def plainHandler (serial : Nat) : Handler :=
  { owner := "", controller := none, args := [], conditions := ⟨[]⟩, source := "before",
    location := ⟨⟨[]⟩, 1⟩, docstring := "", verb := .before, serial }

theorem serials_keep_plainHandlers_apart :
    let before : List Operation := [.takeSerial, .takeSerial, .addHandler (plainHandler 1)]
    let files := [SourceFile.repeatingClass "App", SourceFile.repeatingClass "App"]
    (ofTags .standard).Spends [] (before ++ [.addHandler (plainHandler 0)]) ∧
      (∃ next, ((ofTags .standard).run before).registerHandler (plainHandler 0) =
        (.ok .added, next)) ∧
      (((ofTags .standard).afterFiles files).handlers.map Record.identifier).Nodup := by
  intro before files
  obtain ⟨hruns, hfiles⟩ := serials_keep_handlers_apart .standard
  have hspends : (ofTags .standard).Spends [] (before ++ [.addHandler (plainHandler 0)]) := by
    decide +kernel
  have haccepted :
      (((ofTags .standard).run before).registerHandler (plainHandler 0)).1.isOk = true := by
    decide +kernel
  obtain ⟨-, -, -, -, hnodup⟩ := hfiles files
  refine ⟨hspends, ?_, hnodup⟩
  rcases hruns _ hspends before (plainHandler 0) [] rfl with hadded | ⟨error, hrefused⟩
  · exact hadded
  · rw [hrefused] at haccepted
    cases haccepted

end Registry

end RouteCatalog
