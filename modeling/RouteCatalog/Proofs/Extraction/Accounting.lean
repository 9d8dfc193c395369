import RouteCatalog.Proofs.Extraction.Steps

/-!
# What the counts of an extraction say

`Extraction.Accounts` ties the counts of a pass to the lists of its registry and to the events that
were performed: every hook gives a handler under a number of its own, and every route is added or
skipped. One event accounts for itself (`Advance.accounts`), and a run for all of its events.
-/

namespace RouteCatalog

namespace Extraction

namespace Event

def isHook : Event → Bool
  | .hook _ _ _ _ => true
  | _ => false

def isRoute : Event → Bool
  | .route _ _ _ _ => true
  | _ => false

end Event

/-- The counts and the registry of a pass grew by what the events declare. -/
structure Accounts (pass : Pass) (events : List Event) (after : Pass) : Prop where
  routes : after.registry.routes.length + pass.summary.routes =
    pass.registry.routes.length + after.summary.routes
  handlers : after.registry.handlers.length + pass.summary.handlers =
    pass.registry.handlers.length + after.summary.handlers
  hooks : after.summary.handlers = pass.summary.handlers + events.countP Event.isHook
  attempts : after.summary.routes + after.summary.skipped =
    pass.summary.routes + pass.summary.skipped + events.countP Event.isRoute
  serial : after.registry.nextSerial = pass.registry.nextSerial + events.countP Event.isHook

theorem Advance.accounts {file : SourceFile} {pass after : Pass} {event : Event}
    (hadvance : Advance file pass event after) : Accounts pass [event] after := by
  cases hadvance with
  | opened => constructor <;> simp [Registry.addNamespace_eq, Event.isHook, Event.isRoute]
  | handled => constructor <;> simp [Event.isHook, Event.isRoute]; omega
  | added => constructor <;> simp [Event.isHook, Event.isRoute] <;> omega
  | repeated => constructor <;> simp [Pass.skip, Event.isHook, Event.isRoute]; omega
  | unread => constructor <;> simp [Pass.skip, Event.isHook, Event.isRoute]; omega

theorem Run.accounts {file : SourceFile} {pass after : Pass} {events : List Event}
    (hrun : Run file pass events after) : Accounts pass events after := by
  induction hrun with
  | nil pass => constructor <;> simp
  | @cons pass mid after event events hadvance _ ih =>
    obtain ⟨hroutes, hhandlers, hhooks, hattempts, hserial⟩ := hadvance.accounts
    obtain ⟨hroutes', hhandlers', hhooks', hattempts', hserial'⟩ := ih
    have hcount : ∀ p : Event → Bool,
        (event :: events).countP p = [event].countP p + events.countP p := by
      intro p
      rw [← List.countP_append, List.singleton_append]
    have hhook := hcount Event.isHook
    have hroute := hcount Event.isRoute
    constructor <;> omega

end Extraction

namespace SourceFile

open Extraction (Event)

/-- **The counts of an extraction are exact**, in every registry that extractions reach: the lists
of the registry grow by as many routes and handlers as are counted, every hook gives a handler with a
number of its own, and every route that is not added is skipped. -/
theorem extract_accounts (tags : TagLibrary) (earlier : List SourceFile) (file : SourceFile)
    (summary : Summary)
    (hresult : (file.extract ((Registry.ofTags tags).afterFiles earlier)).result = .ok summary) :
    let registry := (Registry.ofTags tags).afterFiles earlier
    let after := (file.extract registry).registry
    after.routes.length = registry.routes.length + summary.routes ∧
      after.handlers.length = registry.handlers.length + summary.handlers ∧
      summary.handlers = file.events.countP Event.isHook ∧
      summary.routes + summary.skipped = file.events.countP Event.isRoute ∧
      after.nextSerial = registry.nextSerial + summary.handlers := by
  intro registry after
  obtain ⟨hnumbered, -⟩ := Registry.numbered_ofTags_afterFiles tags earlier
  obtain ⟨pass, hrun, rfl, hafter⟩ := file.exists_run_of_result hnumbered hresult
  obtain ⟨hroutes, hhandlers, hhooks, hattempts, hserial⟩ := hrun.accounts
  rw [← hafter] at hroutes hhandlers hserial
  simp only [Nat.add_zero, Nat.zero_add] at hroutes hhandlers hhooks hattempts
  exact ⟨hroutes, hhandlers, hhooks, hattempts, by rw [hserial, hhooks]⟩

/-- A class that declares a hook, and the same route twice. -/
def repeatingClass (name : String) : SourceFile where
  path := ⟨[]⟩
  source := ""
  tree := ⟨"program", none, "", 1,
    [⟨"class", none, "", 1,
      [⟨"constant", some "name", name, 1, []⟩,
        ⟨"call", none, "before", 2, [⟨"identifier", some "method", "before", 2, []⟩]⟩,
        get 3, get 4]⟩]⟩
where
  get (line : Nat) : Node :=
    ⟨"call", none, "get :index", line,
      [⟨"identifier", some "method", "get", line, []⟩,
        ⟨"argument_list", some "arguments", ":index", line,
          [⟨"simple_symbol", none, ":index", line, []⟩]⟩]⟩

theorem extract_repeatingClass :
    let registry := (Registry.ofTags .standard).afterFiles [repeatingClass "Admin"]
    ((repeatingClass "App").extract registry).result = .ok ⟨1, 1, 1⟩ ∧
      (repeatingClass "App").events.countP Event.isHook = 1 ∧
      (repeatingClass "App").events.countP Event.isRoute = 2 := by
  have hresult : ((repeatingClass "App").extract
      ((Registry.ofTags .standard).afterFiles [repeatingClass "Admin"])).result =
        .ok ⟨1, 1, 1⟩ := by
    decide +kernel
  obtain ⟨-, -, hhooks, hroutes, -⟩ :=
    extract_accounts .standard [repeatingClass "Admin"] (repeatingClass "App") _ hresult
  exact ⟨hresult, hhooks.symm, hroutes.symm⟩

end SourceFile

end RouteCatalog
