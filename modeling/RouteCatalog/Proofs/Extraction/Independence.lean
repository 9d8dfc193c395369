import RouteCatalog.Proofs.Catalog.Renumbering
import RouteCatalog.Proofs.Extraction.Accounting
import RouteCatalog.Proofs.Extraction.Additions

/-!
# Independent files

Two files that declare nothing in a common namespace may be extracted in either order. Whether a file
is refused does not depend on what was extracted before, and neither do the records that it leaves in
a namespace where nothing else declares any. The two registries agree in every namespace
(`Extraction.agrees_of_runs`), and so their documents are the same up to the numbers of handlers.
-/

namespace RouteCatalog

/-- The extraction came to the end of the file. -/
def Extraction.Finished (extraction : Extraction) : Prop :=
  ∃ summary, extraction.result = .ok summary

namespace SourceFile

/-- The namespaces in which a file declares handlers, or routes with a static path. -/
def declaredOwners (file : SourceFile) : List String :=
  (Extraction.declaredRoutes file file.events).map (fun route => route.owner) ++
    (Extraction.declaredHandlers file file.events).map fun handler => handler.owner

theorem declared_eq_nil {file : SourceFile} {path : String} (hpath : path ∉ file.declaredOwners) :
    ((Extraction.declaredRoutes file file.events).filter fun route => route.owner == path) = [] ∧
      ((Extraction.declaredHandlers file file.events).filter
        fun handler => handler.owner == path) = [] := by
  rw [declaredOwners, List.mem_append, not_or, List.mem_map, List.mem_map] at hpath
  obtain ⟨hroutes, hhandlers⟩ := hpath
  constructor
  · refine List.filter_eq_nil_iff.2 fun route hroute howner => hroutes ⟨route, hroute, ?_⟩
    exact beq_iff_eq.1 howner
  · refine List.filter_eq_nil_iff.2 fun handler hhandler howner =>
      hhandlers ⟨handler, hhandler, ?_⟩
    exact beq_iff_eq.1 howner

theorem finished_iff (file : SourceFile) {registry : Registry} (hnumbered : registry.Numbered) :
    (file.extract registry).Finished ↔ file.refusal? registry.tags = none := by
  constructor
  · rintro ⟨summary, hresult⟩
    exact file.refusal?_eq_none_of_result hnumbered hresult
  · intro hnone
    obtain ⟨after, -, hextract⟩ := file.extract_of_refusal?_eq_none hnumbered hnone
    exact ⟨after.summary, by rw [hextract]⟩

/-- Two files are both extracted to their ends exactly if neither is refused. -/
theorem both_finished_iff (first second : SourceFile) {registry : Registry}
    (hnumbered : registry.Numbered) :
    ((first.extract registry).Finished ∧
        (second.extract (first.extract registry).registry).Finished) ↔
      first.refusal? registry.tags = none ∧ second.refusal? registry.tags = none := by
  obtain ⟨hmid, hextends⟩ := first.extract_numbered hnumbered
  rw [first.finished_iff hnumbered, second.finished_iff hmid, hextends.tags_eq]

/-- The runs of two files one after the other, when neither is refused. -/
theorem exists_runs_of_both (first second : SourceFile) {registry : Registry}
    (hnumbered : registry.Numbered) (hfirst : first.refusal? registry.tags = none)
    (hsecond : second.refusal? registry.tags = none) :
    ∃ a ab : Extraction.Pass, Extraction.Run first { registry } first.events a ∧
      Extraction.Run second { registry := a.registry } second.events ab ∧
      (second.extract (first.extract registry).registry).registry = ab.registry := by
  obtain ⟨a, ha, hextractA⟩ := first.extract_of_refusal?_eq_none hnumbered hfirst
  obtain ⟨hmid, hextends⟩ := ha.numbered hnumbered
  rw [← hextends.tags_eq] at hsecond
  obtain ⟨ab, hab, hextractAB⟩ := second.extract_of_refusal?_eq_none hmid hsecond
  exact ⟨a, ab, ha, hab, by rw [hextractA, hextractAB]⟩

end SourceFile

namespace Extraction

/-- Independent files leave registries that agree, whichever is extracted first. -/
theorem agrees_of_runs {first second : SourceFile} {registry : Registry} {a b ab ba : Pass}
    (hnumbered : registry.Numbered)
    (hindependent : first.declaredOwners.Disjoint second.declaredOwners)
    (ha : Run first { registry } first.events a)
    (hab : Run second { registry := a.registry } second.events ab)
    (hb : Run second { registry } second.events b)
    (hba : Run first { registry := b.registry } first.events ba) :
    ab.registry.Agrees ba.registry := by
  obtain ⟨hnumberedA, hextendsA⟩ := ha.numbered hnumbered
  obtain ⟨hnumberedB, hextendsB⟩ := hb.numbered hnumbered
  refine ⟨?_, fun path => ?_, fun path => ?_, fun path => ?_⟩
  · rw [(hab.numbered hnumberedA).2.tags_eq, (hba.numbered hnumberedB).2.tags_eq,
      hextendsA.tags_eq, hextendsB.tags_eq]
  · rw [hab.mem_owners_iff, hba.mem_owners_iff, ha.mem_owners_iff, hb.mem_owners_iff, or_assoc,
      or_assoc, or_comm (a := path ∈ first.events.filterMap Event.opens?)]
  · rw [hab.routesIn_eq hnumberedA, hba.routesIn_eq hnumberedB, ha.routesIn_eq hnumbered,
      hb.routesIn_eq hnumbered]
    -- In each namespace one of the two files has nothing to say.
    by_cases hfirst : path ∈ first.declaredOwners
    · rw [(SourceFile.declared_eq_nil (hindependent hfirst)).1]
      rfl
    · rw [(SourceFile.declared_eq_nil hfirst).1]
      rfl
  · rw [hab.handlersIn_eq, hba.handlersIn_eq, ha.handlersIn_eq, hb.handlersIn_eq]
    by_cases hfirst : path ∈ first.declaredOwners
    · rw [(SourceFile.declared_eq_nil (hindependent hfirst)).2]
      simp
    · rw [(SourceFile.declared_eq_nil hfirst).2]
      simp

end Extraction

namespace SourceFile

/-- **Independent files commute.** Two files are both extracted to their ends in the one order
exactly if they are in the other. If they declare nothing in a common namespace, then the document
with the standard counts is the same either way, up to the numbers of handlers. -/
theorem extract_comm (tags : TagLibrary) (first second : SourceFile) :
    let fresh := Registry.ofTags tags
    let a := first.extract fresh
    let ab := second.extract a.registry
    let b := second.extract fresh
    let ba := first.extract b.registry
    (a.Finished ∧ ab.Finished ↔ b.Finished ∧ ba.Finished) ∧
      (first.declaredOwners.Disjoint second.declaredOwners → a.Finished ∧ ab.Finished →
        (Document.build ab.registry .standard).SameButSerials
          (Document.build ba.registry .standard)) := by
  intro fresh a ab b ba
  have hnumbered : fresh.Numbered := Registry.numbered_ofTags tags
  have hforth := both_finished_iff first second hnumbered
  have hback := both_finished_iff second first hnumbered
  refine ⟨?_, fun hindependent hfinished => ?_⟩
  · rw [hforth, hback, and_comm]
  · obtain ⟨hfirst, hsecond⟩ := hforth.1 hfinished
    obtain ⟨passA, passAB, hrunA, hrunAB, hab⟩ :=
      exists_runs_of_both first second hnumbered hfirst hsecond
    obtain ⟨passB, passBA, hrunB, hrunBA, hba⟩ :=
      exists_runs_of_both second first hnumbered hsecond hfirst
    have hagrees : ab.registry.Agrees ba.registry := by
      rw [hab, hba]
      exact Extraction.agrees_of_runs hnumbered hindependent hrunA hrunAB hrunB hrunBA
    have hwellAB := (second.extract_numbered (first.extract_numbered hnumbered).1).1.wellFormed
    have hwellBA := (first.extract_numbered (second.extract_numbered hnumbered).1).1.wellFormed
    exact hagrees.sameButSerials hwellAB hwellBA

theorem extract_comm_repeatingClass :
    let fresh := Registry.ofTags .standard
    let ab := (repeatingClass "Admin").extract ((repeatingClass "App").extract fresh).registry
    let ba := (repeatingClass "App").extract ((repeatingClass "Admin").extract fresh).registry
    ab.Finished ∧
      (Document.build ab.registry .standard).SameButSerials
        (Document.build ba.registry .standard) := by
  have hindependent :
      (repeatingClass "App").declaredOwners.Disjoint (repeatingClass "Admin").declaredOwners := by
    have happ : (repeatingClass "App").declaredOwners = ["App", "App", "App"] := by decide +kernel
    have hadmin : "App" ∉ (repeatingClass "Admin").declaredOwners := by decide +kernel
    rw [happ]
    simpa using hadmin
  have happ : ((repeatingClass "App").extract (Registry.ofTags .standard)).Finished :=
    ⟨⟨1, 1, 1⟩, by decide +kernel⟩
  have hadmin : ((repeatingClass "Admin").extract
      ((repeatingClass "App").extract (Registry.ofTags .standard)).registry).Finished :=
    ⟨⟨1, 1, 1⟩, by decide +kernel⟩
  have hcomm := extract_comm .standard (repeatingClass "App") (repeatingClass "Admin")
  exact ⟨hadmin, hcomm.2 hindependent ⟨happ, hadmin⟩⟩

end SourceFile

end RouteCatalog
