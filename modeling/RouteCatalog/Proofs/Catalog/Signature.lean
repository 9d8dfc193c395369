import RouteCatalog.Proofs.Extraction.Ownership
import RouteCatalog.Proofs.Literal.Inspection

/-!
# Signatures determine what they show

The display name of a record is its verb, which holds no space, and after a space its arguments.
Where the arguments are legible (`Literal.Legible`) both can be read off it, and the arguments can
be read off their bracketed form. The argument of an extracted route is a literal that its call
spells, so it is legible (`Registry.afterFiles_routes`).
-/

namespace RouteCatalog

open Literal (Legible)

namespace Declaration

theorem argsText_inj {declaration other : Declaration} (hargs : Legible declaration.args)
    (hothers : Legible other.args) (heq : declaration.argsText = other.argsText) :
    declaration.args = other.args := by
  apply Literal.inspectAll_inj hargs hothers
  have htexts := congrArg String.toList heq
  simp only [argsText, String.toList_append] at htexts
  exact String.toList_injective
    (List.append_cancel_left (List.append_cancel_right htexts))

/-- What a display name shows after the verb. -/
def shownArgs (args : List Literal) : List Char :=
  match args with
  | [] => []
  | args => ' ' :: (Literal.inspectAll args).toList

theorem toList_displayName (declaration : Declaration) (verb : String) :
    (declaration.displayName verb).toList = verb.toList ++ shownArgs declaration.args := by
  unfold displayName shownArgs
  split <;> simp_all

theorem head?_shownArgs (args : List Literal) : ∀ c ∈ (shownArgs args).head?, c = ' ' := by
  cases args <;> simp [shownArgs]

theorem shownArgs_inj {args others : List Literal} (hargs : Legible args)
    (hothers : Legible others) (heq : shownArgs args = shownArgs others) : args = others := by
  cases args with
  | nil =>
    cases others with
    | nil => rfl
    | cons => cases heq
  | cons value rest =>
    cases others with
    | nil => cases heq
    | cons other more =>
      apply Literal.inspectAll_inj hargs hothers
      exact String.toList_injective (List.cons.inj heq).2

theorem displayName_inj {declaration other : Declaration} {verb otherVerb : String}
    (hverb : ' ' ∉ verb.toList) (hotherVerb : ' ' ∉ otherVerb.toList)
    (hargs : Legible declaration.args) (hothers : Legible other.args)
    (heq : declaration.displayName verb = other.displayName otherVerb) :
    verb = otherVerb ∧ declaration.args = other.args := by
  have hnames := congrArg String.toList heq
  rw [toList_displayName, toList_displayName] at hnames
  obtain ⟨hverbs, hshown⟩ := Text.upTo_append_inj hverb hotherVerb (head?_shownArgs _)
    (head?_shownArgs _) hnames
  exact ⟨String.toList_injective hverbs, shownArgs_inj hargs hothers hshown⟩

end Declaration

/-! ### Verbs -/

theorem RouteVerb.space_not_mem_name (verb : RouteVerb) : ' ' ∉ verb.name.toList := by
  cases verb <;> decide

theorem HookVerb.space_not_mem_name (verb : HookVerb) : ' ' ∉ verb.name.toList := by
  cases verb <;> decide

theorem HookVerb.eq_of_name_eq {verb other : HookVerb} (hname : verb.name = other.name) :
    verb = other := by
  cases verb <;> cases other <;> simp_all [name]

/-! ### Extracted routes -/

theorem Node.isKnown_of_literal? {node : Node} {value : Literal}
    (hvalue : node.literal? = some value) : value.isKnown = true := by
  unfold literal? at hvalue
  split at hvalue
  case h_3 | h_4 | h_6 =>
    obtain ⟨_, -, rfl⟩ := Option.map_eq_some_iff.1 hvalue
    rfl
  case h_7 => cases hvalue
  all_goals
    obtain rfl := Option.some.inj hvalue
    rfl

theorem Extraction.Event.args_of_route? {file : SourceFile} {event : Event} {route : Route}
    (hroute : event.route? file = some route) :
    ∃ value, route.args = [value] ∧ value.isKnown = true := by
  cases event with
  | opening => cases hroute
  | hook => cases hroute
  | route owner controller verb call =>
    rw [Event.route?, Node.routePath?] at hroute
    split at hroute
    case h_1 path hpath =>
      obtain rfl := Option.some.inj hroute
      obtain ⟨argument, -, hread⟩ := Option.map_eq_some_iff.1 hpath
      exact ⟨path, rfl, Node.isKnown_of_literal? (Node.literal_eq_ok_iff.1 hread)⟩
    case h_2 => cases hroute

theorem Extraction.Event.route?_of_calls {file : SourceFile} {event : Event} {serial : Nat}
    {route : Route} (hcall : .addRoute route ∈ event.calls file serial) :
    event.route? file = some route := by
  cases event <;> simp_all [Event.calls]

theorem SourceFile.extract_routes (file : SourceFile) (registry : Registry) :
    ∀ route ∈ (file.extract registry).registry.routes,
      route ∈ registry.routes ∨ ∃ value, route.args = [value] ∧ value.isKnown = true := by
  intro route hroute
  obtain ⟨operations, hrun, hcalls⟩ := file.extract_eq_calls registry
  obtain ⟨routes, handlers, hadds⟩ := registry.run_adds operations
  rw [hrun, hadds.routes_eq] at hroute
  rcases List.mem_append.1 hroute with hroute | hroute
  · exact .inl hroute
  · obtain ⟨event, -, serial, hcall⟩ := hcalls _ (hadds.route_owned route hroute).1
    exact .inr (Extraction.Event.args_of_route? (Extraction.Event.route?_of_calls hcall))

theorem Registry.afterFiles_routes (registry : Registry) (files : List SourceFile) :
    ∀ route ∈ (registry.afterFiles files).routes,
      route ∈ registry.routes ∨ ∃ value, route.args = [value] ∧ value.isKnown = true := by
  induction files generalizing registry with
  | nil => exact fun route hroute => .inl hroute
  | cons file files ih =>
    intro route hroute
    rcases ih _ route hroute with hroute | hone
    · exact file.extract_routes registry route hroute
    · exact .inr hone

/-- **Rendered arguments are unambiguous.** Where arguments are scalars, or one value that may also
be a pattern, their bracketed form determines them, and a display name determines verb and
arguments, for routes as for handlers. Every extracted route has one such argument. No two names
are written as one symbol, bare or quoted, and no two texts as one quoted text. -/
theorem Record.signatures_unambiguous :
    (∀ declaration other : Declaration, Legible declaration.args → Legible other.args →
        declaration.argsText = other.argsText → declaration.args = other.args) ∧
      (∀ route other : Route, Legible route.args → Legible other.args →
        displayName route = displayName other → route.verb = other.verb ∧ route.args = other.args) ∧
      (∀ handler other : Handler, Legible handler.args → Legible other.args →
        displayName handler = displayName other →
          handler.verb = other.verb ∧ handler.args = other.args) ∧
      (∀ (tags : TagLibrary) (files : List SourceFile),
        ∀ route ∈ ((Registry.ofTags tags).afterFiles files).routes,
          ∃ value, route.args = [value] ∧ value.isKnown = true) ∧
      Function.Injective (fun name => (Literal.symbol name).inspect) ∧
      Function.Injective Text.quote := by
  refine ⟨fun _ _ hargs hothers heq => Declaration.argsText_inj hargs hothers heq, ?_, ?_, ?_, ?_,
    Text.quote_prefixFree.injective⟩
  · intro route other hargs hothers heq
    obtain ⟨hverbs, hargs⟩ := Declaration.displayName_inj route.verb.space_not_mem_name
      other.verb.space_not_mem_name hargs hothers heq
    exact ⟨RouteVerb.eq_of_name_eq hverbs, hargs⟩
  · intro handler other hargs hothers heq
    obtain ⟨hverbs, hargs⟩ := Declaration.displayName_inj handler.verb.space_not_mem_name
      other.verb.space_not_mem_name hargs hothers heq
    exact ⟨HookVerb.eq_of_name_eq hverbs, hargs⟩
  · intro tags files route hroute
    rcases Registry.afterFiles_routes _ files route hroute with hroute | hone
    · simp [Registry.ofTags] at hroute
    · exact hone
  · intro name other heq
    have hsymbols : Literal.symbol name = .symbol other := Literal.inspect_inj rfl rfl heq
    exact Literal.symbol.inj hsymbols

/-- A hook of a namespace with arguments that hold quotes, commas and brackets of their own. -/
def Handler.thorny (owner : String) (serial : Nat) : Handler where
  owner := owner
  controller := none
  args := [.symbol "a-b", .text "x, :y\", \n]", .symbol "[]=", .integer (-3)]
  conditions := {}
  source := ""
  location := ⟨⟨[]⟩, serial⟩
  docstring := ""
  verb := .before
  serial := serial

-- A comma inside a text is not the comma between two texts.
theorem Record.signatures_unambiguous_thorny :
    Legible (Handler.thorny "App" 0).args ∧
      displayName (Handler.thorny "App" 0) = displayName (Handler.thorny "Admin" 1) ∧
      (Handler.thorny "App" 0).verb = (Handler.thorny "Admin" 1).verb ∧
      (Handler.thorny "App" 0).args = (Handler.thorny "Admin" 1).args ∧
      { Handler.thorny "App" 0 with args := [.text "a, b"] }.argsText ≠
        { Handler.thorny "App" 0 with args := [.text "a", .text "b"] }.argsText := by
  have hlegible : Legible (Handler.thorny "App" 0).args := .inl (by decide)
  have hnames : displayName (Handler.thorny "App" 0) = displayName (Handler.thorny "Admin" 1) := rfl
  obtain ⟨htexts, -, hhandlers, -⟩ := Record.signatures_unambiguous
  obtain ⟨hverbs, hargs⟩ := hhandlers _ _ hlegible hlegible hnames
  refine ⟨hlegible, hnames, hverbs, hargs, fun heq => ?_⟩
  have hlists := htexts _ _ (.inl (by decide)) (.inl (by decide)) heq
  exact absurd hlists (by decide)

end RouteCatalog
