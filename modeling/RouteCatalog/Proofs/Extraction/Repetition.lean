import RouteCatalog.Proofs.Extraction.Accounting
import RouteCatalog.Proofs.Extraction.Additions

/-!
# Extracting a file twice

After a run, the registry has absorbed every event of it: the namespaces around and opened are
registered and the paths of the routes are held, by these routes or by others (`Absorbed`). Nothing
is ever taken away, so this stays. An event that is absorbed can only add a handler, and so a second
extraction of a file adds its handlers again, under new numbers, and nothing else.
-/

namespace RouteCatalog

namespace Extraction

/-- What an event would open or hold is there. -/
structure Absorbed (file : SourceFile) (registry : Registry) (event : Event) : Prop where
  opened : ∀ path, event.opens? = some path → path ∈ registry.owners
  held : ∀ route, event.route? file = some route → Record.path route ∈ registry.paths

section Absorbing

variable {file : SourceFile} {pass after : Pass} {event : Event} {events : List Event}

theorem Absorbed.mono {registry later : Registry} (habsorbed : Absorbed file registry event)
    (hextends : registry.Extends later) : Absorbed file later event where
  opened path hpath := hextends.owners_subset (habsorbed.opened path hpath)
  held route hroute := hextends.paths.subset (habsorbed.held route hroute)

theorem Advance.absorbed (hadvance : Advance file pass event after) :
    Absorbed file after.registry event := by
  refine ⟨fun path hpath => hadvance.mem_owners_iff.2 (.inr hpath), fun route hroute => ?_⟩
  cases hadvance with
  | opened => cases hroute
  | handled => cases hroute
  | added hadded =>
    obtain rfl := Option.some.inj (hadded.symm.trans hroute)
    exact List.mem_cons_self
  | repeated hrepeated hadmits htaken =>
    obtain rfl := Option.some.inj (hrepeated.symm.trans hroute)
    exact htaken
  | unread howned hunread => cases hunread.symm.trans hroute

theorem Run.absorbed (hrun : Run file pass events after) (hnumbered : pass.registry.Numbered) :
    ∀ event ∈ events, Absorbed file after.registry event := by
  induction hrun with
  | nil pass => simp
  | @cons pass mid after event events hadvance hrun ih =>
    have hmid := (hadvance.numbered hnumbered).1
    intro other hother
    rcases List.mem_cons.1 hother with rfl | hother
    · exact hadvance.absorbed.mono (hrun.numbered hmid).2
    · exact ih hmid other hother

/-- Nothing but the handlers of the registry changed, and no route was counted. -/
structure Settled (pass after : Pass) : Prop where
  namespaces_eq : after.registry.namespaces = pass.registry.namespaces
  routes_eq : after.registry.routes = pass.registry.routes
  count_eq : after.summary.routes = pass.summary.routes

theorem Advance.settled (hadvance : Advance file pass event after)
    (habsorbed : Absorbed file pass.registry event) : Settled pass after := by
  cases hadvance with
  | @opened parent name path kind line howned hresolve =>
    have hheld : path ∈ pass.registry.owners := habsorbed.opened path hresolve
    rw [Registry.addNamespace_eq, if_pos hheld]
    exact ⟨rfl, rfl, rfl⟩
  | handled => exact ⟨rfl, rfl, rfl⟩
  | added hroute hadmits hfresh => exact absurd (habsorbed.held _ hroute) hfresh
  | repeated => exact ⟨rfl, rfl, rfl⟩
  | unread => exact ⟨rfl, rfl, rfl⟩

theorem Run.settled (hrun : Run file pass events after) (hnumbered : pass.registry.Numbered)
    (habsorbed : ∀ event ∈ events, Absorbed file pass.registry event) : Settled pass after := by
  induction hrun with
  | nil pass => exact ⟨rfl, rfl, rfl⟩
  | @cons pass mid after event events hadvance hrun ih =>
    obtain ⟨hmid, hextends⟩ := hadvance.numbered hnumbered
    have hfirst := hadvance.settled (habsorbed event List.mem_cons_self)
    have hrest := ih hmid fun other hother =>
      (habsorbed other (List.mem_cons_of_mem _ hother)).mono hextends
    exact ⟨hrest.namespaces_eq.trans hfirst.namespaces_eq, hrest.routes_eq.trans hfirst.routes_eq,
      hrest.count_eq.trans hfirst.count_eq⟩

/-- What a run adds to the handlers, as a list. -/
theorem Run.exists_added (hrun : Run file pass events after)
    (hnumbered : pass.registry.Numbered) :
    ∃ added, after.registry.handlers = pass.registry.handlers ++ added ∧
      added.map Handler.unnumbered = declaredHandlers file events := by
  obtain ⟨added, hadded⟩ := (hrun.numbered hnumbered).2.handlers
  have hhandlers := hrun.handlers_eq
  rw [← hadded, List.map_append] at hhandlers
  exact ⟨added, hadded.symm, List.append_cancel_left hhandlers⟩

/-- The counts of a second run over the same events. -/
theorem Run.summary_again {registry : Registry} {first second : Pass}
    (hfirst : Run file { registry } events first)
    (hsecond : Run file { registry := first.registry } events second)
    (hnone : second.summary.routes = 0) :
    second.summary =
      ⟨0, first.summary.handlers, first.summary.routes + first.summary.skipped⟩ := by
  obtain ⟨-, -, hhooks, hattempts, -⟩ := hfirst.accounts
  obtain ⟨-, -, hhooks', hattempts', -⟩ := hsecond.accounts
  have hhandlers : second.summary.handlers = first.summary.handlers := hhooks'.trans hhooks.symm
  have hskipped : second.summary.skipped = first.summary.routes + first.summary.skipped := by
    have hequal := hattempts'.trans hattempts.symm
    rwa [hnone, Nat.zero_add] at hequal
  rw [← hnone, ← hhandlers, ← hskipped]

/-- The handlers of a second run over the same events. -/
theorem Run.handlers_again {registry : Registry} {first second : Pass}
    (hnumbered : registry.Numbered) (hfirst : Run file { registry } events first)
    (hsecond : Run file { registry := first.registry } events second) :
    ∃ added again, first.registry.handlers = registry.handlers ++ added ∧
      second.registry.handlers = first.registry.handlers ++ again ∧
      again.length = first.summary.handlers ∧
      again.map Handler.unnumbered = added.map Handler.unnumbered := by
  obtain ⟨added, hadded, haddedDeclared⟩ := hfirst.exists_added hnumbered
  obtain ⟨again, hagain, hagainDeclared⟩ := hsecond.exists_added (hfirst.numbered hnumbered).1
  have hsame : again.map Handler.unnumbered = added.map Handler.unnumbered :=
    hagainDeclared.trans haddedDeclared.symm
  refine ⟨added, again, hadded, hagain, ?_, hsame⟩
  have hlength : again.length = added.length := by simpa using congrArg List.length hsame
  have hcount := hfirst.accounts.handlers
  simp only [hadded, List.length_append] at hcount
  omega

end Absorbing

end Extraction

namespace SourceFile

/-- **Extracting a file again changes nothing but the handlers.** If a file was extracted to its
end, so it is a second time; no namespace and no route is added, every route is skipped, and the
handlers are added once more, in order and with everything but their numbers. -/
theorem extract_again (tags : TagLibrary) (earlier : List SourceFile) (file : SourceFile)
    (summary : Summary)
    (hresult : (file.extract ((Registry.ofTags tags).afterFiles earlier)).result = .ok summary) :
    let registry := (Registry.ofTags tags).afterFiles earlier
    let once := (file.extract registry).registry
    let twice := (file.extract once).registry
    (file.extract once).result = .ok ⟨0, summary.handlers, summary.routes + summary.skipped⟩ ∧
      twice.namespaces = once.namespaces ∧ twice.routes = once.routes ∧
      ∃ added again, once.handlers = registry.handlers ++ added ∧
        twice.handlers = once.handlers ++ again ∧ again.length = summary.handlers ∧
        again.map Handler.unnumbered = added.map Handler.unnumbered := by
  intro registry once twice
  obtain ⟨hnumbered, -⟩ := Registry.numbered_ofTags_afterFiles tags earlier
  have hnone := file.refusal?_eq_none_of_result hnumbered hresult
  obtain ⟨first, hfirst, rfl, honce⟩ := file.exists_run_of_result hnumbered hresult
  obtain ⟨hnext, hextends⟩ := hfirst.numbered hnumbered
  -- Whether a file is refused depends on the tags alone, and they are the same.
  rw [← hextends.tags_eq] at hnone
  obtain ⟨second, hsecond, hagain⟩ := file.extract_of_refusal?_eq_none hnext hnone
  have hsettled := hsecond.settled hnext (hfirst.absorbed hnumbered)
  have hsummary := hfirst.summary_again hsecond hsettled.count_eq
  have hextract : file.extract once =
      ⟨.ok second.summary, second.registry, second.warnings⟩ := by rw [← hagain, ← honce]
  have htwice : twice = second.registry := congrArg Extraction.registry hextract
  change once = first.registry at honce
  rw [hextract, hsummary, htwice, honce]
  exact ⟨rfl, hsettled.namespaces_eq, hsettled.routes_eq, hfirst.handlers_again hnumbered hsecond⟩

theorem extract_repeatingClass_again :
    let once := ((repeatingClass "App").extract (Registry.ofTags .standard)).registry
    ((repeatingClass "App").extract (Registry.ofTags .standard)).result = .ok ⟨1, 1, 1⟩ ∧
      ((repeatingClass "App").extract once).result = .ok ⟨0, 1, 2⟩ := by
  have hresult : ((repeatingClass "App").extract
      ((Registry.ofTags .standard).afterFiles [])).result = .ok ⟨1, 1, 1⟩ := by
    decide +kernel
  exact ⟨hresult, (extract_again .standard [] (repeatingClass "App") _ hresult).1⟩

end SourceFile

end RouteCatalog
