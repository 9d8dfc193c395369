import Mathlib.Data.List.TakeWhile
import RouteCatalog.Proofs.Registry.Invariant

/-!
# What becomes of a route

A registry compares the path of a new route with those it holds, and only then the arguments and the
controller; it never compares namespaces or verbs. This is enough. A path can be cut at its first
`#` into the namespace and the identifier, because neither holds the mark, and an identifier starts
with its verb and an underscore, which stands in no verb. So routes of one path have one namespace
and one verb (`Route.owner_verb_of_path_eq`), and no handler has the path of a route, because its
serial number follows a second mark (`Route.path_ne_handler_path`). `Registry.Classifies` is what
follows for the outcome of a registration.
-/

namespace RouteCatalog

/-! ### Identifiers -/

namespace Declaration

theorem toList_identifier (declaration : Declaration) (verb : String) :
    (declaration.identifier verb).toList =
      ['_'].intercalate (verb.toList ::
        (declaration.controller.toList ++ declaration.args.map Literal.content).map
          fun text => Text.toWordChars text.toList) := by
  simp [identifier, identifierPart, Function.comp_def]

theorem isWordChar_of_mem_identifier {declaration : Declaration} {verb : String}
    (hverb : ∀ c ∈ verb.toList, Text.isWordChar c = true) :
    ∀ c ∈ (declaration.identifier verb).toList, Text.isWordChar c = true := by
  rw [toList_identifier]
  apply Text.forall_mem_intercalate
  · intro c hc
    rw [List.mem_singleton.1 hc]
    decide
  · intro part hpart
    rcases List.mem_cons.1 hpart with rfl | hpart
    · exact hverb
    · obtain ⟨text, -, rfl⟩ := List.mem_map.1 hpart
      intro c hc
      exact Text.isWordChar_of_mem_toWordChars hc

/-- The verb of an identifier is what stands in front of the first underscore. -/
theorem takeWhile_identifier (declaration : Declaration) {verb : String}
    (hverb : '_' ∉ verb.toList) :
    (declaration.identifier verb).toList.takeWhile (· != '_') = verb.toList := by
  have hfree : ∀ c ∈ verb.toList, (c != '_') = true := by
    intro c hc
    simpa using fun heq : c = '_' => hverb (heq ▸ hc)
  rw [toList_identifier]
  generalize (declaration.controller.toList ++ declaration.args.map Literal.content).map
    (fun text => Text.toWordChars text.toList) = parts
  cases parts with
  | nil => rw [List.intercalate_singleton, List.takeWhile_eq_self_iff.2 hfree]
  | cons part rest =>
    rw [List.intercalate_cons_cons, List.append_assoc, List.takeWhile_append_of_pos hfree]
    simp

end Declaration

namespace RouteVerb

theorem isWordChar_of_mem_name (verb : RouteVerb) :
    ∀ c ∈ verb.name.toList, Text.isWordChar c = true := by
  rw [← List.all_eq_true]
  cases verb <;> decide

theorem underscore_not_mem_name (verb : RouteVerb) : '_' ∉ verb.name.toList := by
  cases verb <;> simp [name]

theorem eq_of_name_eq {verb other : RouteVerb} (hname : verb.name = other.name) : verb = other := by
  cases verb <;> cases other <;> simp_all [name]

end RouteVerb

/-! ### Paths of records -/

theorem Record.toList_path {R : Type} [Record R] (record : R) :
    (path record).toList =
      (declaration record).owner.toList ++ '#' :: (identifier record).toList := by
  simp [path]

namespace Route

theorem hash_not_mem_identifier (route : Route) : '#' ∉ (Record.identifier route).toList := by
  intro hhash
  have hword := Declaration.isWordChar_of_mem_identifier
    (RouteVerb.isWordChar_of_mem_name route.verb) '#' hhash
  exact absurd hword (by decide)

/-- A path that a route has is cut into its namespace and its identifier in one way. -/
theorem cut_path {R : Type} [Record R] {route : Route} {record : R}
    (howner : '#' ∉ route.owner.toList) (hpath : Record.path route = Record.path record) :
    route.owner = (Record.declaration record).owner ∧
      Record.identifier route = Record.identifier record := by
  have hlists := congrArg String.toList hpath
  rw [Record.toList_path, Record.toList_path] at hlists
  obtain ⟨howners, -, hidentifiers⟩ :=
    (List.append_cons_inj_of_notMem howner (hash_not_mem_identifier route)).1 hlists
  exact ⟨String.toList_injective howners, String.toList_injective hidentifiers⟩

theorem owner_verb_of_path_eq {route other : Route} (howner : '#' ∉ route.owner.toList)
    (hpath : Record.path route = Record.path other) :
    route.owner = other.owner ∧ route.verb = other.verb := by
  obtain ⟨howners, hidentifiers⟩ := cut_path howner hpath
  refine ⟨howners, RouteVerb.eq_of_name_eq (String.toList_injective ?_)⟩
  have hverbs : (Record.identifier route).toList.takeWhile (· != '_') =
      (Record.identifier other).toList.takeWhile (· != '_') := by rw [hidentifiers]
  exact (route.takeWhile_identifier route.verb.underscore_not_mem_name).symm.trans
    (hverbs.trans (other.takeWhile_identifier other.verb.underscore_not_mem_name))

theorem path_ne_handler_path {route : Route} (howner : '#' ∉ route.owner.toList)
    (handler : Handler) : Record.path route ≠ Record.path handler := by
  intro hpath
  obtain ⟨-, hidentifiers⟩ := cut_path howner hpath
  apply hash_not_mem_identifier route
  rw [hidentifiers]
  simp [Record.identifier]

end Route

namespace Registry

/-! ### The holder of a path -/

theorem WellFormed.hash_not_mem_owner {registry : Registry} (hinv : registry.WellFormed)
    {path : String} (hpath : path ∈ registry.owners) : '#' ∉ path.toList := by
  rcases hinv.owners_named path hpath with rfl | hname
  · simp
  · exact hname.hash_not_mem

/-- The holder of a path is the one stored route that has it. -/
theorem WellFormed.holder?_eq_some {registry : Registry} (hinv : registry.WellFormed)
    {stored : Route} (hstored : stored ∈ registry.routes) :
    registry.holder? (Record.path stored) = some stored := by
  have hnodup : (registry.routes.map Record.path).Nodup :=
    (List.nodup_append.1 hinv.recordPaths_nodup).1
  cases hholder : registry.holder? (Record.path stored) with
  | none =>
    have hnone := List.find?_eq_none.1 hholder stored hstored
    simp at hnone
  | some holder =>
    have hpath : Record.path holder = Record.path stored := by simpa using List.find?_some hholder
    rw [List.inj_on_of_nodup_map hnodup (List.mem_of_find?_eq_some hholder) hstored hpath]

/-- A path that a route would have is held by a route, never by a handler. -/
theorem WellFormed.path_mem_paths_iff {registry : Registry} (hinv : registry.WellFormed)
    {route : Route} (howned : route.owner ∈ registry.owners) :
    Record.path route ∈ registry.paths ↔
      ∃ stored ∈ registry.routes, Record.path stored = Record.path route := by
  rw [hinv.mem_paths_iff, recordPaths, List.mem_append, List.mem_map, List.mem_map]
  constructor
  · rintro (⟨stored, hstored, hpath⟩ | ⟨handler, -, hpath⟩)
    · exact ⟨stored, hstored, hpath⟩
    · exact absurd hpath.symm
        (Route.path_ne_handler_path (hinv.hash_not_mem_owner howned) handler)
  · rintro ⟨stored, hstored, hpath⟩
    exact .inl ⟨stored, hstored, hpath⟩

/-! ### Outcomes -/

/-- A stored route declares the same as a route: in its namespace, under its controller, with its
verb and arguments. -/
def Repeats (registry : Registry) (route : Route) : Prop :=
  ∃ stored ∈ registry.routes, stored.owner = route.owner ∧ stored.verb = route.verb ∧
    stored.controller = route.controller ∧ stored.args = route.args

/-- A stored route has the path of a route and declares something else. -/
def ClashesWith (route stored : Route) : Prop :=
  Record.path stored = Record.path route ∧
    (stored.controller ≠ route.controller ∨ stored.args ≠ route.args)

/-- The outcome of registering a route that the registry admits. -/
structure Classifies (registry : Registry) (route : Route) (registration : Registration)
    (after : Registry) : Prop where
  duplicate_iff : registration = .duplicate ↔ registry.Repeats route
  collision_iff : (∃ holder, registration = .collision holder) ↔
    ∃ stored ∈ registry.routes, ClashesWith route stored
  collision_with : ∀ stored ∈ registry.routes, ClashesWith route stored →
    stored.owner = route.owner ∧ stored.verb = route.verb ∧
      registration = .collision (some stored) ∧
      registration.warning? route = some (.sharedPath (Record.displayName route) route.location
        (some (Record.displayName stored)) (Record.path route))
  added_of_not : ¬registry.Repeats route → (¬∃ stored ∈ registry.routes, ClashesWith route stored) →
    registration = .added
  added : registration = .added →
    after = { registry with
      routes := registry.routes ++ [route], paths := Record.path route :: registry.paths }
  unchanged : registration ≠ .added → after = registry

theorem Repeats.exists_path_eq {registry : Registry} {route : Route}
    (hrepeats : registry.Repeats route) :
    ∃ stored ∈ registry.routes, Record.path stored = Record.path route ∧
      stored.controller = route.controller ∧ stored.args = route.args := by
  obtain ⟨stored, hstored, howner, hverb, hcontroller, hargs⟩ := hrepeats
  refine ⟨stored, hstored, ?_, hcontroller, hargs⟩
  simp [Record.path, Record.declaration, Record.identifier, Declaration.identifier, howner, hverb,
    hcontroller, hargs]

theorem classifies_added {registry : Registry} {route : Route}
    (hfresh : ¬∃ stored ∈ registry.routes, Record.path stored = Record.path route) :
    Classifies registry route .added
      { registry with
        routes := registry.routes ++ [route], paths := Record.path route :: registry.paths } := by
  have hrepeats : ¬registry.Repeats route := by
    intro hrepeats
    obtain ⟨stored, hstored, hpath, -⟩ := hrepeats.exists_path_eq
    exact hfresh ⟨stored, hstored, hpath⟩
  have hclashes : ¬∃ stored ∈ registry.routes, ClashesWith route stored := by
    rintro ⟨stored, hstored, hpath, -⟩
    exact hfresh ⟨stored, hstored, hpath⟩
  exact
    { duplicate_iff := by simp [hrepeats]
      collision_iff := by simpa using hclashes
      collision_with := fun stored hstored hclash => absurd ⟨stored, hstored, hclash⟩ hclashes
      added_of_not := fun _ _ => rfl
      added := fun _ => rfl
      unchanged := fun h => absurd rfl h }

variable {registry : Registry} {route stored : Route}

/-- The stored route that holds the path of a new one is the only one to compare with. -/
theorem WellFormed.eq_of_path_eq (hinv : registry.WellFormed) (hstored : stored ∈ registry.routes)
    (hpath : Record.path stored = Record.path route) {other : Route}
    (hother : other ∈ registry.routes) (hotherPath : Record.path other = Record.path route) :
    other = stored := by
  have hholder := hinv.holder?_eq_some hother
  rw [hotherPath, ← hpath, hinv.holder?_eq_some hstored] at hholder
  exact (Option.some.inj hholder).symm

theorem WellFormed.classifies_duplicate (hinv : registry.WellFormed)
    (hstored : stored ∈ registry.routes) (hpath : Record.path stored = Record.path route)
    (howned : stored.owner ∈ registry.owners)
    (hargs : stored.args = route.args) (hcontroller : stored.controller = route.controller) :
    Classifies registry route .duplicate registry := by
  obtain ⟨howner, hverb⟩ := Route.owner_verb_of_path_eq (hinv.hash_not_mem_owner howned) hpath
  have hrepeats : registry.Repeats route :=
    ⟨stored, hstored, howner, hverb, hcontroller, hargs⟩
  have hclashes : ¬∃ other ∈ registry.routes, ClashesWith route other := by
    rintro ⟨other, hother, hotherPath, hdiffers⟩
    obtain rfl := hinv.eq_of_path_eq hstored hpath hother hotherPath
    rcases hdiffers with hdiffers | hdiffers
    · exact hdiffers hcontroller
    · exact hdiffers hargs
  exact
    { duplicate_iff := by simp [hrepeats]
      collision_iff := by simpa using hclashes
      collision_with := fun other hother hclash => absurd ⟨other, hother, hclash⟩ hclashes
      added_of_not := fun h => absurd hrepeats h
      added := nofun
      unchanged := fun _ => rfl }

theorem WellFormed.classifies_collision (hinv : registry.WellFormed)
    (hstored : stored ∈ registry.routes) (hpath : Record.path stored = Record.path route)
    (howned : stored.owner ∈ registry.owners)
    (hdiffers : ¬(stored.args = route.args ∧ stored.controller = route.controller)) :
    Classifies registry route (.collision (some stored)) registry := by
  have hclash : ClashesWith route stored :=
    ⟨hpath, (not_and_or.1 hdiffers).symm⟩
  have hrepeats : ¬registry.Repeats route := by
    intro hrepeats
    obtain ⟨other, hother, hotherPath, hcontroller, hargs⟩ := hrepeats.exists_path_eq
    obtain rfl := hinv.eq_of_path_eq hstored hpath hother hotherPath
    exact hdiffers ⟨hargs, hcontroller⟩
  refine
    { duplicate_iff := by simp [hrepeats]
      collision_iff := ⟨fun _ => ⟨stored, hstored, hclash⟩, fun _ => ⟨some stored, rfl⟩⟩
      collision_with := fun other hother hotherClash => ?_
      added_of_not := fun _ h => absurd ⟨stored, hstored, hclash⟩ h
      added := nofun
      unchanged := fun _ => rfl }
  obtain rfl := hinv.eq_of_path_eq hstored hpath hother hotherClash.1
  obtain ⟨howner, hverb⟩ := Route.owner_verb_of_path_eq (hinv.hash_not_mem_owner howned) hpath
  exact ⟨howner, hverb, rfl, rfl⟩

theorem WellFormed.registerRoute_classifies (hinv : registry.WellFormed)
    (hadmits : registry.Admits route.toDeclaration) :
    ∃ registration after, registry.registerRoute route = (.ok registration, after) ∧
      Classifies registry route registration after := by
  rw [registerRoute_of_admits hadmits]
  by_cases htaken : ∃ stored ∈ registry.routes, Record.path stored = Record.path route
  · rw [if_pos ((hinv.path_mem_paths_iff hadmits.1).2 htaken)]
    obtain ⟨stored, hstored, hpath⟩ := htaken
    have howned := (hinv.routes_admitted stored hstored).1
    refine ⟨_, _, rfl, ?_⟩
    rw [rejection, ← hpath, hinv.holder?_eq_some hstored]
    dsimp only
    split_ifs with hsame
    · exact hinv.classifies_duplicate hstored hpath howned hsame.1 hsame.2
    · exact hinv.classifies_collision hstored hpath howned hsame
  · rw [if_neg (mt (hinv.path_mem_paths_iff hadmits.1).1 htaken)]
    exact ⟨_, _, rfl, classifies_added htaken⟩

/-- **Registering a route classifies it exactly**, in every registry that can be reached. -/
theorem registerRoute_ofTags_run (tags : TagLibrary) (operations : List Operation) (route : Route)
    (hadmits : ((ofTags tags).run operations).Admits route.toDeclaration) :
    ∃ registration after,
      ((ofTags tags).run operations).registerRoute route = (.ok registration, after) ∧
        Classifies ((ofTags tags).run operations) route registration after :=
  ((wellFormed_ofTags tags).run operations).registerRoute_classifies hadmits

/-- A route of the namespace `App` that declares a path and nothing else. -/
def plainRoute (path : String) : Route where
  owner := "App"
  controller := none
  args := [.text path]
  conditions := {}
  source := ""
  location := ⟨⟨[]⟩, 1⟩
  docstring := ""
  verb := .get

-- Both paths come down to the word `_a_b`.
theorem registerRoute_plainRoute_clash :
    let registry := (ofTags .standard).run
      [.openNamespace "" "App" .classBody ⟨⟨[]⟩, 1⟩, .addRoute (plainRoute "/a-b")]
    registry.Admits (plainRoute "/a_b").toDeclaration ∧
      ∃ after, registry.registerRoute (plainRoute "/a_b") =
          (.ok (.collision (some (plainRoute "/a-b"))), after) ∧
        Classifies registry (plainRoute "/a_b") (.collision (some (plainRoute "/a-b"))) after := by
  intro registry
  have hadmits : registry.Admits (plainRoute "/a_b").toDeclaration := ⟨by decide, nofun⟩
  obtain ⟨registration, after, hregister, hclassifies⟩ := registerRoute_ofTags_run _ _ _ hadmits
  have hclash : ClashesWith (plainRoute "/a_b") (plainRoute "/a-b") :=
    ⟨by decide +kernel, .inr (by decide)⟩
  obtain ⟨-, -, rfl, -⟩ := hclassifies.collision_with (plainRoute "/a-b") (by decide +kernel) hclash
  exact ⟨hadmits, after, hregister, hclassifies⟩

end Registry

end RouteCatalog
