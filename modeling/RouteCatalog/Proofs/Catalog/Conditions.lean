import Mathlib.Data.List.Forall2
import Mathlib.Data.List.Induction
import RouteCatalog.Proofs.Catalog.Document

/-!
# Which options the document shows

A tag library is made step by step: kinds are defined, defined again and made visible. Of all that,
two things are left in the end (`TagLibrary.definition?_ofSteps`, `TagLibrary.isVisible_ofSteps`):
the last definition of each kind, and which kinds were ever made visible.

Records carry condition tags only, and a registry takes no tag that is not defined. So the two
filters of `Document.visibleTags` keep the options of a stored record together: all of them are
shown, or none is (`Document.conditions_entry`). Nothing else of the library matters, neither to the
registry (`Registry.run_withTags`) nor to the document (`Document.build_withTags`).
-/

namespace RouteCatalog

/-! ### Making a library -/

/-- One step in the making of a tag library. -/
inductive TagStep where
  | define (definition : TagDefinition)
  | reveal (name : String)
  | addConditions
  deriving DecidableEq, Repr, Inhabited

namespace TagStep

/-- The definitions that a step makes. -/
def definitions : TagStep → List TagDefinition
  | .define definition => [definition]
  | .reveal _ => []
  | .addConditions => [⟨"Conditions", Tag.condition, true⟩]

/-- The kinds that a step makes visible. -/
def revealed : TagStep → List String
  | .define _ => []
  | .reveal name => [name]
  | .addConditions => [Tag.condition]

/-- The last definition of a name in a row of steps. -/
def lastDefinition? (steps : List TagStep) (name : String) : Option TagDefinition :=
  ((steps.flatMap definitions).filter fun definition => definition.name == name).getLast?

/-- A step of the row makes a name visible. -/
def Reveals (steps : List TagStep) (name : String) : Prop :=
  ∃ step ∈ steps, name ∈ step.revealed

instance (steps : List TagStep) (name : String) : Decidable (Reveals steps name) :=
  inferInstanceAs (Decidable (∃ step ∈ steps, name ∈ step.revealed))

end TagStep

namespace TagLibrary

/-- The library after a step. -/
def apply (library : TagLibrary) : TagStep → TagLibrary
  | .define definition => library.define definition
  | .reveal name => library.reveal name
  | .addConditions => library.addConditions

/-- The library that steps make of the empty one. -/
def ofSteps (steps : List TagStep) : TagLibrary :=
  steps.foldl apply {}

theorem ofSteps_append_last (steps : List TagStep) (step : TagStep) :
    ofSteps (steps ++ [step]) = (ofSteps steps).apply step := by
  simp [ofSteps]

theorem find?_definition (first : TagDefinition) (rest : List TagDefinition) (name : String) :
    (first :: rest).find? (fun definition => definition.name == name) =
      if first.name = name then some first
      else rest.find? fun definition => definition.name == name := by
  by_cases hname : first.name = name
  · rw [if_pos hname, List.find?_cons_of_pos (by simpa using hname)]
  · rw [if_neg hname, List.find?_cons_of_neg (by simpa using hname)]

theorem find?_insertDefinition (definition : TagDefinition) (name : String)
    (definitions : List TagDefinition) :
    (insertDefinition definition definitions).find? (fun other => other.name == name) =
      if definition.name = name then some definition
      else definitions.find? fun other => other.name == name := by
  fun_induction insertDefinition definition definitions with
  | case1 => rw [find?_definition]
  | case2 first rest hfirst =>
    rw [find?_definition, find?_definition, hfirst]
    split <;> rfl
  | case3 first rest hfirst ih =>
    rw [find?_definition, find?_definition, ih]
    by_cases hname : first.name = name
    · have hother : definition.name ≠ name := fun heq => hfirst (hname.trans heq.symm)
      rw [if_pos hname, if_pos hname, if_neg hother]
    · rw [if_neg hname, if_neg hname]

theorem definition?_define (library : TagLibrary) (definition : TagDefinition) (name : String) :
    (library.define definition).definition? name =
      if definition.name = name then some definition else library.definition? name :=
  find?_insertDefinition definition name library.definitions

theorem definition?_reveal (library : TagLibrary) (shown name : String) :
    (library.reveal shown).definition? name = library.definition? name := by
  unfold reveal
  split <;> rfl

theorem isVisible_reveal (library : TagLibrary) (shown name : String) :
    (library.reveal shown).isVisible name = true ↔
      name = shown ∨ library.isVisible name = true := by
  by_cases hshown : library.isVisible shown = true
  · rw [reveal, if_pos hshown]
    refine ⟨.inr, ?_⟩
    rintro (rfl | hvisible)
    · exact hshown
    · exact hvisible
  · rw [reveal, if_neg hshown]
    simp [isVisible, or_comm]

theorem definition?_apply (library : TagLibrary) (step : TagStep) (name : String) :
    (library.apply step).definition? name =
      (step.definitions.filter fun definition => definition.name == name).getLast?.or
        (library.definition? name) := by
  have hdefine : ∀ definition : TagDefinition,
      (library.define definition).definition? name =
        ([definition].filter fun other => other.name == name).getLast?.or
          (library.definition? name) := by
    intro definition
    rw [definition?_define]
    by_cases hname : definition.name = name
    · simp [hname]
    · simp [hname]
  cases step with
  | define definition => exact hdefine definition
  | reveal shown => exact definition?_reveal library shown name
  | addConditions => exact (definition?_reveal _ _ name).trans (hdefine _)

theorem isVisible_apply (library : TagLibrary) (step : TagStep) (name : String) :
    (library.apply step).isVisible name = true ↔
      name ∈ step.revealed ∨ library.isVisible name = true := by
  cases step with
  | define definition => exact ⟨.inr, fun hname => hname.resolve_left List.not_mem_nil⟩
  | reveal shown =>
    rw [TagStep.revealed, List.mem_singleton]
    exact isVisible_reveal library shown name
  | addConditions =>
    rw [TagStep.revealed, List.mem_singleton]
    exact isVisible_reveal _ _ name

/-- The last definition of a name is the one that counts. -/
theorem definition?_ofSteps (steps : List TagStep) (name : String) :
    (ofSteps steps).definition? name = TagStep.lastDefinition? steps name := by
  induction steps using List.reverseRecOn with
  | nil => rfl
  | append_singleton steps step ih =>
    rw [ofSteps_append_last, definition?_apply, ih]
    simp [TagStep.lastDefinition?, List.getLast?_append]

/-- What was made visible once stays visible. -/
theorem isVisible_ofSteps (steps : List TagStep) (name : String) :
    (ofSteps steps).isVisible name = true ↔ TagStep.Reveals steps name := by
  induction steps using List.reverseRecOn with
  | nil => simp [TagStep.Reveals, ofSteps, isVisible]
  | append_singleton steps step ih =>
    rw [ofSteps_append_last, isVisible_apply, ih]
    simp [TagStep.Reveals, or_and_right, exists_or, or_comm]

end TagLibrary

/-! ### The options of a record -/

/-- An entry shows an option, as a note of the kind that is defined. -/
structure ShowsOption (definition? : Option TagDefinition) (option : Literal × Literal)
    (entry : ConditionEntry) : Prop where
  label_eq : definition?.map TagDefinition.label = some entry.label
  name_eq : entry.name = some option.1.inspect
  text_eq : entry.text = "+" ++ option.2.inspect ++ "+"

namespace Document

variable {R : Type} [Record R]

/-- The tags of a declaration that a library shows, in terms of the condition tag alone. -/
theorem visibleTags_tags (library : TagLibrary) (declaration : Declaration) :
    visibleTags library declaration.tags =
      if library.isVisible Tag.condition then
        declaration.conditions.entries.filterMap fun option =>
          (library.definition? Tag.condition).map fun definition =>
            ⟨definition.label, some option.1.inspect, "+" ++ option.2.inspect ++ "+"⟩
      else [] := by
  rw [visibleTags, Declaration.tags, List.filter_map, List.filterMap_map]
  by_cases hvisible : library.isVisible Tag.condition = true
  · simp [Function.comp_def, hvisible]
  · simp [Function.comp_def, hvisible]

theorem conditions_entry {library : TagLibrary} {record : R}
    (hcovers : library.covers (Record.declaration record).conditions = true) :
    (library.isVisible Tag.condition = true →
        List.Forall₂ (ShowsOption (library.definition? Tag.condition))
          (Record.declaration record).conditions.entries (entry library record).conditions) ∧
      (¬library.isVisible Tag.condition = true → (entry library record).conditions = []) := by
  have hconditions : (entry library record).conditions =
      visibleTags library (Record.declaration record).tags := rfl
  rw [hconditions, visibleTags_tags]
  constructor
  · intro hvisible
    rw [if_pos hvisible]
    cases hdefinition : library.definition? Tag.condition with
    | none =>
      -- Without a definition, no record with options gets into the registry.
      have hnone : (Record.declaration record).conditions.entries = [] := by
        simpa [TagLibrary.covers, TagLibrary.isDefined, hdefinition] using hcovers
      rw [hnone]
      exact .nil
    | some definition =>
      simp only [Option.map_some, List.filterMap_eq_map']
      rw [List.forall₂_map_right_iff, List.forall₂_same]
      exact fun option _ => ⟨rfl, rfl, rfl⟩
  · intro hvisible
    rw [if_neg hvisible]

/-- Of the library, an entry depends on the condition tag alone. -/
theorem entry_congr {library other : TagLibrary}
    (hdefinition : other.definition? Tag.condition = library.definition? Tag.condition)
    (hvisible : other.isVisible Tag.condition = library.isVisible Tag.condition) (record : R) :
    entry other record = entry library record := by
  simp only [entry, visibleTags_tags, hdefinition, hvisible]

end Document

namespace Registry

/-- The registry over another library. -/
def withTags (registry : Registry) (tags : TagLibrary) : Registry :=
  { registry with tags }

variable {registry : Registry} {tags : TagLibrary}

theorem admits_withTags
    (hdefined : tags.isDefined Tag.condition = registry.tags.isDefined Tag.condition)
    {declaration : Declaration} :
    (registry.withTags tags).Admits declaration ↔ registry.Admits declaration := by
  have hcovers : tags.covers declaration.conditions =
      registry.tags.covers declaration.conditions := by
    rw [TagLibrary.covers, TagLibrary.covers, hdefined]
  rw [admits_iff, admits_iff, ← hcovers]
  rfl

theorem addNamespace_withTags (space : Namespace) :
    (registry.withTags tags).addNamespace space = (registry.addNamespace space).withTags tags := by
  rw [addNamespace_eq, addNamespace_eq]
  rfl

theorem apply_addRoute_of_fresh {route : Route} (hadmits : registry.Admits route.toDeclaration)
    (hfresh : Record.path route ∉ registry.paths) :
    registry.apply (.addRoute route) =
      { registry with
        routes := registry.routes ++ [route], paths := Record.path route :: registry.paths } := by
  rw [apply, registerRoute_of_admits hadmits, if_neg hfresh]

theorem apply_addRoute_of_refused {route : Route}
    (hrefused : ¬(registry.Admits route.toDeclaration ∧ Record.path route ∉ registry.paths)) :
    registry.apply (.addRoute route) = registry := by
  rcases registry.apply_addRoute_cases route with hafter | ⟨hadmits, hfresh, -⟩
  · exact hafter
  · exact absurd ⟨hadmits, hfresh⟩ hrefused

theorem apply_addHandler_of_fresh {handler : Handler}
    (hadmits : registry.Admits handler.toDeclaration)
    (hfresh : Record.path handler ∉ registry.paths) :
    registry.apply (.addHandler handler) =
      { registry with
        handlers := registry.handlers ++ [handler],
        paths := Record.path handler :: registry.paths } := by
  rw [apply, registerHandler_of_admits hadmits, if_neg hfresh]

theorem apply_addHandler_of_refused {handler : Handler}
    (hrefused : ¬(registry.Admits handler.toDeclaration ∧ Record.path handler ∉ registry.paths)) :
    registry.apply (.addHandler handler) = registry := by
  rcases registry.apply_addHandler_cases handler with hafter | ⟨hadmits, hfresh, -⟩
  · exact hafter
  · exact absurd ⟨hadmits, hfresh⟩ hrefused

theorem apply_withTags
    (hdefined : tags.isDefined Tag.condition = registry.tags.isDefined Tag.condition)
    (operation : Operation) :
    (registry.withTags tags).apply operation = (registry.apply operation).withTags tags := by
  cases operation with
  | openNamespace parent name kind location =>
    rw [apply, apply]
    by_cases hparent : parent ∈ registry.owners
    · have hother : parent ∈ (registry.withTags tags).owners := hparent
      rw [registerNamespace_of_owned hparent, registerNamespace_of_owned hother]
      cases Namespace.resolve? parent name with
      | none => rfl
      | some path => exact addNamespace_withTags ⟨path, kind, some location⟩
    · have hother : parent ∉ (registry.withTags tags).owners := hparent
      rw [registerNamespace_of_not_owned hparent, registerNamespace_of_not_owned hother]
  | addRoute route =>
    by_cases hadded : registry.Admits route.toDeclaration ∧ Record.path route ∉ registry.paths
    · have hother := (admits_withTags hdefined).2 hadded.1
      rw [apply_addRoute_of_fresh hadded.1 hadded.2, apply_addRoute_of_fresh hother hadded.2]
      rfl
    · have hother := mt (And.imp_left (admits_withTags hdefined).1) hadded
      rw [apply_addRoute_of_refused hadded, apply_addRoute_of_refused hother]
  | addHandler handler =>
    by_cases hadded : registry.Admits handler.toDeclaration ∧ Record.path handler ∉ registry.paths
    · have hother := (admits_withTags hdefined).2 hadded.1
      rw [apply_addHandler_of_fresh hadded.1 hadded.2, apply_addHandler_of_fresh hother hadded.2]
      rfl
    · have hother := mt (And.imp_left (admits_withTags hdefined).1) hadded
      rw [apply_addHandler_of_refused hadded, apply_addHandler_of_refused hother]
  | takeSerial => rfl

theorem run_withTags (registry : Registry)
    (hdefined : tags.isDefined Tag.condition = registry.tags.isDefined Tag.condition)
    (operations : List Operation) :
    (registry.withTags tags).run operations = (registry.run operations).withTags tags := by
  induction operations generalizing registry with
  | nil => rfl
  | cons operation operations ih =>
    have htags : (registry.apply operation).tags = registry.tags := run_tags registry [operation]
    rw [run, List.foldl_cons, apply_withTags hdefined]
    exact ih _ (by rw [htags, hdefined])

end Registry

namespace Document

theorem build_withTags {registry : Registry} {tags : TagLibrary}
    (hdefinition : tags.definition? Tag.condition = registry.tags.definition? Tag.condition)
    (hvisible : tags.isVisible Tag.condition = registry.tags.isVisible Tag.condition) :
    build (registry.withTags tags) .standard = build registry .standard := by
  have hlistings : ∀ {R : Type} [Record R] (records : List R),
      listings tags records = listings registry.tags records := by
    intro R _ records
    simp only [listings, funext (entry_congr (R := R) hdefinition hvisible)]
  have hsection : section? (registry.withTags tags) = section? registry := by
    funext path
    simp only [section?]
    rw [show (registry.withTags tags).tags = tags from rfl, hlistings, hlistings]
    rfl
  rw [build, build, hsection]
  rfl

/-- The options of a record are shown in its entry one by one, under the last definition of their
tag, or none of them is. -/
structure ShowsOptions (steps : List TagStep) (options : Conditions)
    (shown : List ConditionEntry) : Prop where
  whole : TagStep.Reveals steps Tag.condition →
    List.Forall₂ (ShowsOption (TagStep.lastDefinition? steps Tag.condition)) options.entries shown
  none : ¬TagStep.Reveals steps Tag.condition → shown = []

theorem showsOptions_entry {R : Type} [Record R] {steps : List TagStep} (record : R)
    (hcovers : (TagLibrary.ofSteps steps).covers (Record.declaration record).conditions = true) :
    ShowsOptions steps (Record.declaration record).conditions
      (entry (.ofSteps steps) record).conditions := by
  obtain ⟨hwhole, hnone⟩ := conditions_entry hcovers
  rw [TagLibrary.isVisible_ofSteps] at hwhole hnone
  rw [TagLibrary.definition?_ofSteps] at hwhole
  exact ⟨hwhole, hnone⟩

theorem entry_mem_of_shows {R : Type} [Record R] {library : TagLibrary} {cmp : R → R → Ordering}
    {records sorted : List R} {part : Section → List Listing} {sections : List Section}
    (hshows : Shows library cmp records sorted part sections) {record : R}
    (hrecord : record ∈ records) :
    entry library record ∈ (sections.flatMap part).flatMap Listing.entries := by
  rw [hshows.entries_eq]
  exact List.mem_map_of_mem (hshows.stable.perm.mem_iff.2 hrecord)

/-- **Options reach the document whole or not at all.** Whatever steps made the tag library and
whatever calls filled the registry, each stored record has an entry in the document, and the entry
shows all options of the record or none. Of the steps, only the last definition of the condition tag
matters, and whether the tag was ever made visible: other steps that agree on the two give the same
records and the same document. -/
theorem options_whole_or_none (steps : List TagStep) (operations : List Operation)
    (reporter : Reporter) :
    let registry := (Registry.ofTags (.ofSteps steps)).run operations
    let document := build registry reporter
    (∀ route ∈ registry.routes, entry registry.tags route ∈ document.routeEntries ∧
        ShowsOptions steps route.conditions (entry registry.tags route).conditions) ∧
      (∀ handler ∈ registry.handlers, entry registry.tags handler ∈ document.handlerEntries ∧
        ShowsOptions steps handler.conditions (entry registry.tags handler).conditions) ∧
      ∀ others : List TagStep,
        TagStep.lastDefinition? others Tag.condition =
            TagStep.lastDefinition? steps Tag.condition →
          (TagStep.Reveals others Tag.condition ↔ TagStep.Reveals steps Tag.condition) →
          let other := (Registry.ofTags (.ofSteps others)).run operations
          other = { registry with tags := .ofSteps others } ∧
            build other .standard = build registry .standard := by
  intro registry document
  have htags : registry.tags = .ofSteps steps := Registry.run_tags _ operations
  have hinv : registry.WellFormed := (Registry.wellFormed_ofTags _).run operations
  have hpresents : Presents registry document := presents_build hinv reporter
  refine ⟨fun route hroute => ⟨?_, ?_⟩, fun handler hhandler => ⟨?_, ?_⟩,
    fun others hdefinition hreveals => ?_⟩
  · exact entry_mem_of_shows hpresents.routes hroute
  · have hcovers := (Registry.admits_iff.1 (hinv.routes_admitted route hroute)).2
    rw [htags] at hcovers ⊢
    exact showsOptions_entry route hcovers
  · exact entry_mem_of_shows hpresents.handlers hhandler
  · have hcovers := (Registry.admits_iff.1 (hinv.handlers_admitted handler hhandler)).2
    rw [htags] at hcovers ⊢
    exact showsOptions_entry handler hcovers
  · have hdefinition : (TagLibrary.ofSteps others).definition? Tag.condition =
        registry.tags.definition? Tag.condition := by
      rw [htags, TagLibrary.definition?_ofSteps, TagLibrary.definition?_ofSteps, hdefinition]
    have hvisible : (TagLibrary.ofSteps others).isVisible Tag.condition =
        registry.tags.isVisible Tag.condition := by
      rw [htags, Bool.eq_iff_iff, TagLibrary.isVisible_ofSteps, TagLibrary.isVisible_ofSteps,
        hreveals]
    have hother : (Registry.ofTags (.ofSteps others)).run operations =
        registry.withTags (.ofSteps others) := by
      refine Registry.run_withTags (.ofTags (.ofSteps steps)) ?_ operations
      rw [TagLibrary.isDefined, TagLibrary.isDefined, hdefinition, htags]
      rfl
    refine ⟨hother, ?_⟩
    rw [hother, build_withTags hdefinition hvisible]

/-- The condition tag is made visible, and then defined twice. -/
def definedTwice : List TagStep :=
  [.reveal Tag.condition, .define ⟨"Options", Tag.condition, true⟩,
    .define ⟨"Rules", Tag.condition, false⟩]

/-- The standard definition of the condition tag, and a later one between steps about others. -/
def definedOver : List TagStep :=
  [.addConditions, .define ⟨"Notes", "padrino.note", true⟩, .reveal "padrino.note",
    .define ⟨"Rules", Tag.condition, false⟩, .reveal Tag.condition]

/-- A route with two options. -/
def optionRoute : Route where
  owner := "App"
  controller := none
  args := [.text "/"]
  conditions := ⟨[(.symbol "provides", .symbol "json"), (.text "a", .raw "x + y")]⟩
  source := ""
  location := ⟨⟨[]⟩, 2⟩
  docstring := ""
  verb := .get

/-- The calls that register the route in its namespace. -/
def registerOptionRoute : List Operation :=
  [.openNamespace "" "App" .classBody ⟨⟨[]⟩, 1⟩, .addRoute optionRoute]

theorem options_whole_or_none_optionRoute :
    let registry := (Registry.ofTags (.ofSteps definedTwice)).run registerOptionRoute
    let other := (Registry.ofTags (.ofSteps definedOver)).run registerOptionRoute
    optionRoute ∈ registry.routes ∧ TagStep.Reveals definedTwice Tag.condition ∧
      List.Forall₂ (ShowsOption (some ⟨"Rules", Tag.condition, false⟩))
        [(.symbol "provides", .symbol "json"), (.text "a", .raw "x + y")]
        (entry registry.tags optionRoute).conditions ∧
      TagStep.lastDefinition? definedOver Tag.condition =
        TagStep.lastDefinition? definedTwice Tag.condition ∧
      TagStep.Reveals definedOver Tag.condition ∧
      build other .standard = build registry .standard := by
  intro registry other
  have hroute : optionRoute ∈ registry.routes := by decide +kernel
  have hreveals : TagStep.Reveals definedTwice Tag.condition := by decide
  have hothers : TagStep.Reveals definedOver Tag.condition := by decide
  have hlast : TagStep.lastDefinition? definedOver Tag.condition =
      TagStep.lastDefinition? definedTwice Tag.condition := by decide
  obtain ⟨hroutes, -, hdepends⟩ :=
    options_whole_or_none definedTwice registerOptionRoute .standard
  refine ⟨hroute, hreveals, (hroutes optionRoute hroute).2.whole hreveals, hlast, hothers, ?_⟩
  exact (hdepends definedOver hlast ⟨fun _ => hreveals, fun _ => hothers⟩).2

end Document

end RouteCatalog
