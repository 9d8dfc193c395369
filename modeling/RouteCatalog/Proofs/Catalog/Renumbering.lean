import Mathlib.Data.List.Forall2
import RouteCatalog.Proofs.Catalog.Document
import RouteCatalog.Proofs.Registry.Serials

/-!
# Documents up to serial numbers

Two registries agree (`Registry.Agrees`) when they have the same tags and namespaces and, in every
namespace, the same routes and the same handlers up to their numbers, each in the same order. In
which order the namespaces were registered, and how the records of different namespaces were
interleaved, is left open. The document looks at one namespace at a time and at no number but in the
identifiers of handlers, so registries that agree have documents that are the same up to these
numbers (`Registry.Agrees.sameButSerials`).
-/

namespace RouteCatalog

/-- Two entries that are the same but for the number at the end of their identifiers. -/
def CatalogEntry.SameButSerial (a b : CatalogEntry) : Prop :=
  a = { b with identifier := a.identifier } ∧
    ∃ stem serial other, a.identifier = stem ++ "#" ++ Text.natText serial ∧
      b.identifier = stem ++ "#" ++ Text.natText other

def Listing.SameButSerials (a b : Listing) : Prop :=
  a.controller = b.controller ∧ List.Forall₂ CatalogEntry.SameButSerial a.entries b.entries

/-- Two sections of one namespace with the same routes, and the same handlers up to their numbers. -/
structure Section.SameButSerials (a b : Section) : Prop where
  owner_eq : a.owner = b.owner
  routes_eq : a.routes = b.routes
  handlers : List.Forall₂ Listing.SameButSerials a.handlers b.handlers

/-- Two documents that are the same up to the numbers of handlers. -/
structure Document.SameButSerials (a b : Document) : Prop where
  sections : List.Forall₂ Section.SameButSerials a.sections b.sections
  statistics_eq : a.statistics = b.statistics

/-! ### Lists -/

theorem forall₂_of_map_eq {α β : Type} {f : α → β} {l m : List α} (hmap : l.map f = m.map f) :
    List.Forall₂ (fun a b => f a = f b) l m := by
  rw [← List.forall₂_eq_eq_eq] at hmap
  exact List.forall₂_map_right_iff.1 (List.forall₂_map_left_iff.1 hmap)

/-- Lists with the same pieces of each key have the same elements. -/
theorem perm_of_filter_eq {α : Type} [DecidableEq α] (key : α → String) {l m : List α}
    (hpieces : ∀ k, (l.filter fun a => key a == k) = m.filter fun a => key a == k) :
    l.Perm m := by
  rw [List.perm_iff_count]
  intro a
  have hcount := congrArg (List.count a) (hpieces (key a))
  rwa [List.count_filter (by simp), List.count_filter (by simp)] at hcount

theorem Statistic.ofRecords_of_perm {R : Type} [Record R] (name : String) {l m : List R}
    (hperm : l.Perm m) : Statistic.ofRecords name l = Statistic.ofRecords name m := by
  rw [Statistic.ofRecords, Statistic.ofRecords, hperm.length_eq, hperm.countP_eq]

/-! ### Handlers -/

theorem Statistic.ofRecords_map_unnumbered (name : String) (handlers : List Handler) :
    Statistic.ofRecords name (handlers.map Handler.unnumbered) =
      Statistic.ofRecords name handlers := by
  rw [Statistic.ofRecords, Statistic.ofRecords, List.length_map, List.countP_map]
  rfl

theorem Handler.sort_map_unnumbered (handlers : List Handler) :
    (Handler.sort handlers).map Handler.unnumbered =
      Handler.sort (handlers.map Handler.unnumbered) :=
  List.map_mergeSort fun _ _ _ _ => rfl

namespace ControllerGroup

variable {R : Type} [Record R]

/-- A group whose records are replaced one by one. -/
def mapRecords (f : R → R) (group : ControllerGroup R) : ControllerGroup R :=
  ⟨group.controller, group.records.map f⟩

theorem insert_map (f : R → R)
    (hkey : ∀ record, Record.controllerKey (f record) = Record.controllerKey record)
    (groups : List (ControllerGroup R)) (record : R) :
    insert (groups.map (mapRecords f)) (f record) = (insert groups record).map (mapRecords f) := by
  have hcontroller : (Record.declaration (f record)).controllerKey =
      (Record.declaration record).controllerKey := hkey record
  induction groups with
  | nil => simp [insert, mapRecords, hcontroller]
  | cons group groups ih =>
    rw [List.map_cons, insert, insert, hcontroller]
    dsimp only [mapRecords]
    cases compare (Record.declaration record).controllerKey group.controller with
    | lt => simp [mapRecords]
    | eq => simp [mapRecords]
    | gt => exact congrArg (_ :: ·) ih

theorem ofRecords_map (f : R → R)
    (hkey : ∀ record, Record.controllerKey (f record) = Record.controllerKey record)
    (records : List R) :
    ofRecords (records.map f) = (ofRecords records).map (mapRecords f) := by
  -- The fold starts from any groups, since the induction is on the records.
  have hfold : ∀ groups : List (ControllerGroup R),
      (records.map f).foldl insert (groups.map (mapRecords f)) =
        (records.foldl insert groups).map (mapRecords f) := by
    induction records with
    | nil => exact fun _ => rfl
    | cons record records ih =>
      intro groups
      rw [List.map_cons, List.foldl_cons, List.foldl_cons, insert_map f hkey, ih]
  exact hfold []

end ControllerGroup

namespace Document

theorem sameButSerial_entry (library : TagLibrary) {a b : Handler}
    (hsame : a.unnumbered = b.unnumbered) :
    (entry library a).SameButSerial (entry library b) := by
  obtain ⟨declaration, verb, serial⟩ := a
  obtain ⟨other, otherVerb, otherSerial⟩ := b
  obtain ⟨rfl, rfl, -⟩ := Handler.mk.inj hsame
  exact ⟨rfl, declaration.identifier verb.name, serial, otherSerial, rfl, rfl⟩

theorem sameButSerials_listings (library : TagLibrary) {handlers others : List Handler}
    (hsame : handlers.map Handler.unnumbered = others.map Handler.unnumbered) :
    List.Forall₂ Listing.SameButSerials (listings library (Handler.sort handlers))
      (listings library (Handler.sort others)) := by
  have hgroups : (ControllerGroup.ofRecords (Handler.sort handlers)).map
        (ControllerGroup.mapRecords Handler.unnumbered) =
      (ControllerGroup.ofRecords (Handler.sort others)).map
        (ControllerGroup.mapRecords Handler.unnumbered) := by
    have hmap : ∀ records : List Handler,
        (ControllerGroup.ofRecords records).map (ControllerGroup.mapRecords Handler.unnumbered) =
          ControllerGroup.ofRecords (records.map Handler.unnumbered) :=
      fun records => (ControllerGroup.ofRecords_map Handler.unnumbered (fun _ => rfl) records).symm
    rw [hmap, hmap, Handler.sort_map_unnumbered, Handler.sort_map_unnumbered, hsame]
  rw [listings, listings, List.forall₂_map_left_iff, List.forall₂_map_right_iff]
  refine (forall₂_of_map_eq hgroups).imp fun group other hgroup => ?_
  obtain ⟨hcontroller, hrecords⟩ := ControllerGroup.mk.inj hgroup
  refine ⟨hcontroller, ?_⟩
  rw [List.forall₂_map_left_iff, List.forall₂_map_right_iff]
  exact (forall₂_of_map_eq hrecords).imp fun a b => sameButSerial_entry library

end Document

/-! ### Registries that agree -/

namespace Registry

/-- Two registries with the same contents in every namespace, up to the numbers of handlers. -/
structure Agrees (registry other : Registry) : Prop where
  tags_eq : registry.tags = other.tags
  mem_owners_iff : ∀ path, path ∈ registry.owners ↔ path ∈ other.owners
  routesIn_eq : ∀ path, registry.routesIn path = other.routesIn path
  handlersIn_eq : ∀ path, (registry.handlersIn path).map Handler.unnumbered =
    (other.handlersIn path).map Handler.unnumbered

variable {registry other : Registry}

theorem Agrees.owns_eq (hagrees : registry.Agrees other) (path : String) :
    Document.owns registry path = Document.owns other path := by
  have hempty := congrArg List.isEmpty (hagrees.handlersIn_eq path)
  rw [List.isEmpty_map, List.isEmpty_map] at hempty
  rw [Document.owns, Document.owns, hagrees.routesIn_eq, hempty]

theorem Agrees.shownOwners_eq (hagrees : registry.Agrees other) (hinv : registry.WellFormed)
    (hother : other.WellFormed) : Document.shownOwners registry = Document.shownOwners other := by
  have hperm : (Document.shownOwners registry).Perm (Document.shownOwners other) := by
    have hnodup : ∀ {space : Registry}, space.WellFormed → (Document.shownOwners space).Nodup :=
      fun hspace => (Document.shownOwners_ascending hspace).imp ne_of_compare_lt
    rw [List.perm_ext_iff_of_nodup (hnodup hinv) (hnodup hother)]
    intro path
    rw [Document.mem_shownOwners_iff, Document.mem_shownOwners_iff, hagrees.mem_owners_iff,
      hagrees.owns_eq]
  -- The same paths in ascending order, and no two of them compare equal.
  refine hperm.eq_of_pairwise (fun a b _ _ hlt hgt => ?_) (Document.shownOwners_ascending hinv)
    (Document.shownOwners_ascending hother)
  exact absurd (Std.OrientedCmp.gt_of_lt hgt) (by rw [hlt]; decide)

theorem Agrees.sameButSerials_sectionAt (hagrees : registry.Agrees other) (path : String) :
    (Document.sectionAt registry path).SameButSerials (Document.sectionAt other path) where
  owner_eq := rfl
  routes_eq := by rw [Document.sectionAt, Document.sectionAt, hagrees.routesIn_eq, hagrees.tags_eq]
  handlers := by
    rw [Document.sectionAt, Document.sectionAt, hagrees.tags_eq]
    exact Document.sameButSerials_listings _ (hagrees.handlersIn_eq path)

theorem Agrees.records_eq (hagrees : registry.Agrees other) :
    Reporter.records registry = Reporter.records other := by
  have hroutes : registry.routes.Perm other.routes :=
    perm_of_filter_eq (fun route : Route => route.owner) hagrees.routesIn_eq
  have hhandlers : (registry.handlers.map Handler.unnumbered).Perm
      (other.handlers.map Handler.unnumbered) := by
    refine perm_of_filter_eq (fun handler : Handler => handler.owner) fun path => ?_
    rw [← map_unnumbered_handlersIn, ← map_unnumbered_handlersIn, hagrees.handlersIn_eq]
  rw [Reporter.records, Reporter.records, Statistic.ofRecords_of_perm _ hroutes,
    ← Statistic.ofRecords_map_unnumbered, Statistic.ofRecords_of_perm _ hhandlers,
    Statistic.ofRecords_map_unnumbered]

/-- **Registries that agree have the same document**, up to the numbers of handlers. -/
theorem Agrees.sameButSerials (hagrees : registry.Agrees other) (hinv : registry.WellFormed)
    (hother : other.WellFormed) :
    (Document.build registry .standard).SameButSerials (Document.build other .standard) where
  sections := by
    rw [Document.sections_build, Document.sections_build, hagrees.shownOwners_eq hinv hother,
      List.forall₂_map_left_iff, List.forall₂_map_right_iff, List.forall₂_same]
    exact fun path _ => hagrees.sameButSerials_sectionAt path
  statistics_eq := by
    show Reporter.records registry ++ [] = Reporter.records other ++ []
    rw [hagrees.records_eq]

end Registry

end RouteCatalog
