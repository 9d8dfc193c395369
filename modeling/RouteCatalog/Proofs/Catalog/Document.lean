import RouteCatalog.Catalog.Document
import RouteCatalog.Proofs.Catalog.Order
import RouteCatalog.Proofs.Registry.Invariant

/-!
# What the document shows

The document is put together from four orders: the namespaces as they were registered, the records
of one namespace in order, these by controller, and the sections by namespace. Over the registries
that can be reached they come to one: read from front to back, the document shows the stable sort
of all routes, and of all handlers. `Shows` says this of one type of record and one part of the
sections, together with where each entry stands; `Presents` says it of the whole document.
-/

namespace RouteCatalog

open Std (TransCmp)

variable {R : Type} [Record R]

/-! ### One type of record -/

/-- The sections show the records of a registry in one of their parts: all of them, in the order of
the stable sort, each under its namespace and its controller, the controllers of a namespace in
ascending order and none without entries. -/
structure Shows (library : TagLibrary) (cmp : R → R → Ordering) (records sorted : List R)
    (part : Section → List Listing) (sections : List Section) : Prop where
  stable : IsStableSort cmp records sorted
  entries_eq : (sections.flatMap part).flatMap Listing.entries =
    sorted.map (Document.entry library)
  controllers_ascending : ∀ space ∈ sections,
    ((part space).map Listing.controller).Pairwise fun a b => compare a b = .lt
  listing_nonempty : ∀ space ∈ sections, ∀ listing ∈ part space, listing.entries ≠ []
  placed : ∀ space ∈ sections, ∀ listing ∈ part space,
    listing.entries =
      (sorted.filter fun record => Record.owner record == space.owner &&
        Record.controllerKey record == listing.controller).map (Document.entry library)

namespace Document

theorem controllers_listings (library : TagLibrary) (records : List R) :
    (listings library records).map Listing.controller =
      (ControllerGroup.ofRecords records).map ControllerGroup.controller := by
  rw [listings, List.map_map]
  rfl

theorem entries_of_mem_listings {library : TagLibrary} {records : List R} {listing : Listing}
    (hlisting : listing ∈ listings library records) :
    listing.entries ≠ [] ∧
      listing.entries =
        (records.filter fun record => Record.controllerKey record == listing.controller).map
          (entry library) := by
  obtain ⟨group, hgroup, rfl⟩ := List.mem_map.1 hlisting
  have hgrouping := isGrouping_ofRecords records
  refine ⟨?_, ?_⟩
  · exact fun hnil => hgrouping.records_ne_nil hgroup (List.map_eq_nil_iff.1 hnil)
  · exact congrArg (List.map (entry library)) (hgrouping.records_eq group hgroup)

theorem flatMap_entries_listings {library : TagLibrary} {records : List R}
    (hsorted : records.Pairwise fun a b =>
      (compare (Record.controllerKey a) (Record.controllerKey b)).isLE = true) :
    (listings library records).flatMap Listing.entries = records.map (entry library) := by
  rw [listings, List.flatMap_map, ← List.map_flatMap,
    (isGrouping_ofRecords records).flatMap_records hsorted]

end Document

section Showing

variable {cmp : R → R → Ordering} [TransCmp cmp]

theorem pairwise_controllerKey_sortBy (hcmp : IsRecordOrder cmp) (records : List R)
    (path : String) :
    (sortBy cmp (records.filter fun record => Record.owner record == path)).Pairwise fun a b =>
      (compare (Record.controllerKey a) (Record.controllerKey b)).isLE = true := by
  have howner : ∀ record ∈ sortBy cmp (records.filter fun record => Record.owner record == path),
      Record.owner record = path := by
    intro record hrecord
    simpa using (List.mem_filter.1 ((sortBy_perm cmp _).mem_iff.1 hrecord)).2
  exact hcmp.pairwise_controllerKey howner (pairwise_sortBy cmp _)

theorem flatMap_filter_owner (hcmp : IsRecordOrder cmp) {records : List R} {paths : List String}
    (hascending : paths.Pairwise fun a b => compare a b = .lt)
    (hcover : ∀ record ∈ records, Record.owner record ∈ paths) :
    (paths.flatMap fun path =>
        sortBy cmp (records.filter fun record => Record.owner record == path)) =
      sortBy cmp records := by
  have hpieces := flatMap_filter_of_sorted
    ((pairwise_sortBy cmp records).imp fun hle => hcmp.owner_isLE hle) hascending
    fun record hrecord => hcover record ((sortBy_perm cmp records).mem_iff.1 hrecord)
  simpa only [filter_sortBy] using hpieces

/-- Sections that hold the sorted listings of their own namespaces show all records. -/
theorem shows_map (hcmp : IsRecordOrder cmp) {library : TagLibrary} {records : List R}
    {part : Section → List Listing} {sectionAt : String → Section} {paths : List String}
    (howner : ∀ path, (sectionAt path).owner = path)
    (hpart : ∀ path, part (sectionAt path) = Document.listings library
      (sortBy cmp (records.filter fun record => Record.owner record == path)))
    (hascending : paths.Pairwise fun a b => compare a b = .lt)
    (hcover : ∀ record ∈ records, Record.owner record ∈ paths) :
    Shows library cmp records (sortBy cmp records) part (paths.map sectionAt) := by
  refine
    { stable := sortBy_isStableSort cmp records
      entries_eq := ?_
      controllers_ascending := List.forall_mem_map.2 fun path _ => ?_
      listing_nonempty := List.forall_mem_map.2 fun path _ listing hlisting => ?_
      placed := List.forall_mem_map.2 fun path _ listing hlisting => ?_ }
  · have hread : ∀ path, (part (sectionAt path)).flatMap Listing.entries =
        (sortBy cmp (records.filter fun record => Record.owner record == path)).map
          (Document.entry library) := by
      intro path
      rw [hpart]
      exact Document.flatMap_entries_listings (pairwise_controllerKey_sortBy hcmp records path)
    -- The sort of all records is the sorts of the namespaces, one after another.
    rw [List.flatMap_map, List.flatMap_assoc, ← flatMap_filter_owner hcmp hascending hcover,
      List.map_flatMap]
    exact List.flatMap_congr fun path _ => hread path
  · rw [hpart, Document.controllers_listings]
    exact (isGrouping_ofRecords _).ascending
  · rw [hpart] at hlisting
    exact (Document.entries_of_mem_listings hlisting).1
  · rw [hpart] at hlisting
    rw [(Document.entries_of_mem_listings hlisting).2, howner, ← filter_sortBy, List.filter_filter]
    simp only [Bool.and_comm]

end Showing

/-! ### Counts -/

theorem Text.isEmpty_trim (cs : List Char) : (Text.trim cs).isEmpty = cs.all Text.isBlank := by
  induction cs with
  | nil => rfl
  | cons c cs ih =>
    by_cases hblank : Text.isBlank c = true
    · rw [List.all_cons, hblank, Bool.true_and, ← ih, Text.trim, Text.trimStart,
        List.dropWhile_cons_of_pos hblank]
      rfl
    · rw [Text.trim, Text.trimStart, List.dropWhile_cons_of_neg hblank]
      simp only [Text.trimEnd, List.reverse_cons, List.dropWhile_append, List.isEmpty_reverse]
      split <;> simp [hblank]

/-- Whether the docstring of an entry is blank from its first character to its last. -/
def CatalogEntry.isUndocumented (entry : CatalogEntry) : Bool :=
  entry.docstring.toList.all Text.isBlank

theorem isUndocumented_entry (library : TagLibrary) (record : R) :
    (Document.entry library record).isUndocumented =
      !(Record.declaration record).isDocumented := by
  rw [Declaration.isDocumented, Bool.not_not, Text.isEmpty_trim]
  rfl

/-- The counts of what is shown are those of the records. -/
theorem Shows.ofRecords_eq {library : TagLibrary} {cmp : R → R → Ordering} {records sorted : List R}
    {part : Section → List Listing} {sections : List Section}
    (hshows : Shows library cmp records sorted part sections) (name : String) :
    Statistic.ofRecords name records =
      { name
        total := Document.entryCount (sections.flatMap part)
        undocumented := ((sections.flatMap part).flatMap Listing.entries).countP
          CatalogEntry.isUndocumented } := by
  rw [Document.entryCount, hshows.entries_eq, List.length_map, List.countP_map,
    hshows.stable.perm.length_eq, hshows.stable.perm.countP_eq]
  simp only [Statistic.ofRecords, Function.comp_def, isUndocumented_entry]

/-! ### The whole document -/

/-- The document presents a registry: its sections ascend, none of them is empty, and they show all
routes and all handlers. -/
structure Presents (registry : Registry) (document : Document) : Prop where
  owners_ascending : (document.sections.map Section.owner).Pairwise fun a b => compare a b = .lt
  section_nonempty : ∀ space ∈ document.sections, space.routes ≠ [] ∨ space.handlers ≠ []
  routes : Shows registry.tags Route.order registry.routes (Route.sort registry.routes)
    Section.routes document.sections
  handlers : Shows registry.tags Handler.order registry.handlers (Handler.sort registry.handlers)
    Section.handlers document.sections

namespace Document

/-- Whether a namespace owns records. -/
def owns (registry : Registry) (path : String) : Bool :=
  !((registry.routesIn path).isEmpty && (registry.handlersIn path).isEmpty)

/-- The section of a namespace. -/
def sectionAt (registry : Registry) (path : String) : Section where
  owner := path
  routes := listings registry.tags (Route.sort (registry.routesIn path))
  handlers := listings registry.tags (Handler.sort (registry.handlersIn path))

/-- The namespaces that own records, in ascending order. -/
def shownOwners (registry : Registry) : List String :=
  sortBy compare (registry.owners.filter (owns registry))

theorem owns_iff {registry : Registry} {path : String} :
    owns registry path = true ↔
      registry.routesIn path ≠ [] ∨ registry.handlersIn path ≠ [] := by
  rw [owns, Bool.not_eq_true', Bool.and_eq_false_iff, List.isEmpty_eq_false_iff,
    List.isEmpty_eq_false_iff]

theorem section?_eq (registry : Registry) (path : String) : section? registry path =
    (Option.guard (owns registry) path).map (sectionAt registry) := by
  by_cases hempty : ((registry.routesIn path).isEmpty && (registry.handlersIn path).isEmpty) = true
  · simp [section?, owns, Option.guard, hempty]
  · simp [section?, owns, Option.guard, sectionAt, hempty]

theorem sections_build (registry : Registry) (reporter : Reporter) :
    (build registry reporter).sections = (shownOwners registry).map (sectionAt registry) := by
  have hsections : (registry.namespaces.filterMap fun space => section? registry space.path) =
      (registry.owners.filter (owns registry)).map (sectionAt registry) := by
    rw [← List.filterMap_eq_filter, List.map_filterMap, Registry.owners, List.filterMap_map]
    simp only [section?_eq, Function.comp_def]
  rw [build, hsections, shownOwners, sortBy, List.map_mergeSort]
  exact fun _ _ _ _ => rfl

theorem shownOwners_ascending {registry : Registry} (hinv : registry.WellFormed) :
    (shownOwners registry).Pairwise fun a b => compare a b = .lt := by
  refine ascending_sortBy id ?_
  rw [List.map_id]
  exact hinv.owners_nodup.filter _

theorem mem_shownOwners_iff {registry : Registry} {path : String} :
    path ∈ shownOwners registry ↔ path ∈ registry.owners ∧ owns registry path = true := by
  rw [shownOwners, (sortBy_perm compare _).mem_iff, List.mem_filter]

theorem listings_ne_nil {library : TagLibrary} {records : List R} (hrecords : records ≠ []) :
    listings library records ≠ [] := by
  obtain ⟨record, hrecord⟩ := List.exists_mem_of_ne_nil records hrecords
  intro hnil
  have hcontroller := ((isGrouping_ofRecords records).mem_controllers_iff _).2
    (List.mem_map_of_mem hrecord)
  rw [← controllers_listings library, hnil] at hcontroller
  exact List.not_mem_nil hcontroller

theorem sectionAt_nonempty {registry : Registry} {path : String}
    (howns : owns registry path = true) :
    (sectionAt registry path).routes ≠ [] ∨ (sectionAt registry path).handlers ≠ [] := by
  rcases owns_iff.1 howns with hroutes | hhandlers
  · exact .inl (listings_ne_nil (sortBy_ne_nil _ hroutes))
  · exact .inr (listings_ne_nil (sortBy_ne_nil _ hhandlers))

theorem presents_build {registry : Registry} (hinv : registry.WellFormed) (reporter : Reporter) :
    Presents registry (build registry reporter) := by
  have hascending := shownOwners_ascending hinv
  have hroutes : ∀ route ∈ registry.routes, Record.owner route ∈ shownOwners registry := by
    intro route hroute
    have hmem : route ∈ registry.routesIn (Record.owner route) :=
      List.mem_filter.2 ⟨hroute, beq_self_eq_true _⟩
    exact mem_shownOwners_iff.2
      ⟨(hinv.routes_admitted route hroute).1, owns_iff.2 (.inl (List.ne_nil_of_mem hmem))⟩
  have hhandlers : ∀ handler ∈ registry.handlers, Record.owner handler ∈ shownOwners registry := by
    intro handler hhandler
    have hmem : handler ∈ registry.handlersIn (Record.owner handler) :=
      List.mem_filter.2 ⟨hhandler, beq_self_eq_true _⟩
    exact mem_shownOwners_iff.2
      ⟨(hinv.handlers_admitted handler hhandler).1, owns_iff.2 (.inr (List.ne_nil_of_mem hmem))⟩
  refine ⟨?_, ?_, ?_, ?_⟩
  · have howners : (shownOwners registry).map (Section.owner ∘ sectionAt registry) =
        shownOwners registry := List.map_id _
    rw [sections_build, List.map_map, howners]
    exact hascending
  · rw [sections_build]
    exact List.forall_mem_map.2 fun path hpath => sectionAt_nonempty (mem_shownOwners_iff.1 hpath).2
  · rw [sections_build]
    exact shows_map Route.isRecordOrder_order (fun _ => rfl) (fun _ => rfl) hascending hroutes
  · rw [sections_build]
    exact shows_map Handler.isRecordOrder_order (fun _ => rfl) (fun _ => rfl) hascending hhandlers

/-- All routes of a document, from front to back. -/
def routeEntries (document : Document) : List CatalogEntry :=
  (document.sections.flatMap Section.routes).flatMap Listing.entries

/-- All handlers of a document, from front to back. -/
def handlerEntries (document : Document) : List CatalogEntry :=
  (document.sections.flatMap Section.handlers).flatMap Listing.entries

/-- **The document of a registry that can be reached loses, repeats and misplaces nothing**, and it
has as many entries as the registry has records. The standard counts are those of its entries. -/
theorem build_ofTags_run (tags : TagLibrary) (operations : List Operation) (reporter : Reporter) :
    let registry := (Registry.ofTags tags).run operations
    let document := build registry reporter
    let counted := build registry .standard
    Presents registry document ∧ document.routeCount = registry.routes.length ∧
      document.handlerCount = registry.handlers.length ∧
      counted.statistics =
        [⟨"P) Handlers", counted.handlerCount, counted.handlerEntries.countP
            CatalogEntry.isUndocumented⟩,
          ⟨"P) Routes", counted.routeCount, counted.routeEntries.countP
            CatalogEntry.isUndocumented⟩] := by
  intro registry document counted
  have hinv : registry.WellFormed := (Registry.wellFormed_ofTags tags).run operations
  have hdocument : Presents registry document := presents_build hinv reporter
  have hcounted : Presents registry counted := presents_build hinv .standard
  refine ⟨hdocument, ?_, ?_, ?_⟩
  · exact (congrArg Statistic.total (hdocument.routes.ofRecords_eq "")).symm
  · exact (congrArg Statistic.total (hdocument.handlers.ofRecords_eq "")).symm
  · show [Statistic.ofRecords "P) Handlers" registry.handlers,
      Statistic.ofRecords "P) Routes" registry.routes] = _
    rw [hcounted.handlers.ofRecords_eq, hcounted.routes.ofRecords_eq]
    rfl

end Document

end RouteCatalog
