import RouteCatalog.Proofs.Extraction.Growth
import RouteCatalog.Proofs.Extraction.Pruning

/-!
# Splitting what is declared

A file may be cut between two of its statements, and a class may be closed and opened again, and
nothing changes (`SourceFile.extract_split`). Two facts carry this. A pass over events only adds to
the counts and warnings that it starts with (`perform_after`), so what crosses a cut is the registry
alone. And an opening that was performed once is performed again without any effect, because
registered namespaces stay (`perform_echoes`): closing a class and opening it again makes one such
event more (`echoes_of_reopened`), at whatever depth it is done.
-/

namespace RouteCatalog

namespace Extraction

/-! ### A pass after another -/

/-- A pass with the counts and warnings of an earlier one in front of its own. -/
def Pass.after (pass earlier : Pass) : Pass :=
  { registry := pass.registry
    summary := earlier.summary + pass.summary
    warnings := earlier.warnings ++ pass.warnings }

/-- The result of a pass that an earlier one comes before. -/
def resume (earlier : Pass) : Except Halt Pass → Except Halt Pass
  | .ok pass => .ok (pass.after earlier)
  | .error halt => .error ⟨halt.error, halt.pass.after earlier⟩

section Resuming

variable (file : SourceFile) (pass earlier : Pass)

theorem Pass.fresh_after : ({ registry := earlier.registry } : Pass).after earlier = earlier := by
  show (⟨earlier.registry, earlier.summary, earlier.warnings ++ []⟩ : Pass) = earlier
  rw [List.append_nil]

theorem Pass.skip_after (warning : Warning) :
    (pass.after earlier).skip warning = (pass.skip warning).after earlier := by
  have hwarnings : (earlier.warnings ++ pass.warnings) ++ [warning] =
      earlier.warnings ++ (pass.warnings ++ [warning]) := List.append_assoc _ _ _
  show (⟨pass.registry, _, (earlier.warnings ++ pass.warnings) ++ [warning]⟩ : Pass) = _
  rw [hwarnings]
  rfl

theorem Pass.addRoute_after (route : Route) :
    (pass.after earlier).addRoute route = resume earlier (pass.addRoute route) := by
  have hregistry : (pass.after earlier).registry = pass.registry := rfl
  unfold Pass.addRoute
  rw [hregistry]
  rcases pass.registry.registerRoute route with ⟨error | registration, after⟩
  · rfl
  · dsimp only
    cases registration.warning? route with
    | none => rfl
    | some warning => exact congrArg Except.ok (skip_after { pass with registry := _ } earlier _)

theorem Pass.addHandler_after (declaration : Declaration) (verb : HookVerb) :
    (pass.after earlier).addHandler declaration verb =
      resume earlier (pass.addHandler declaration verb) := by
  have hserial : (pass.after earlier).registry.takeSerial = pass.registry.takeSerial := rfl
  unfold Pass.addHandler
  rw [hserial]
  dsimp only
  rcases pass.registry.takeSerial.2.registerHandler _ with ⟨error | registration, after⟩
  · rfl
  · cases registration <;> rfl

theorem Event.perform_after (event : Event) :
    event.perform file (pass.after earlier) = resume earlier (event.perform file pass) := by
  cases event with
  | opening parent name kind line =>
    have hregistry : (pass.after earlier).registry = pass.registry := rfl
    rw [Event.perform, Event.perform, Pass.openNamespace, Pass.openNamespace, hregistry]
    rcases pass.registry.registerNamespace parent name kind ⟨file.path, line⟩ with
      ⟨error | path, after⟩ <;> rfl
  | hook owner controller verb call => exact pass.addHandler_after earlier _ verb
  | route owner controller verb call =>
    rw [Event.perform, Event.perform]
    cases call.routePath? with
    | none => exact congrArg Except.ok (pass.skip_after earlier _)
    | some read =>
      cases read with
      | error reason => exact congrArg Except.ok (pass.skip_after earlier _)
      | ok path => exact pass.addRoute_after earlier _

end Resuming

theorem perform_after (file : SourceFile) (events : List Event) (pass earlier : Pass) :
    perform file events (pass.after earlier) = resume earlier (perform file events pass) := by
  induction events generalizing pass with
  | nil => rfl
  | cons event rest ih =>
    rw [perform_cons, perform_cons, event.perform_after file pass earlier]
    cases event.perform file pass with
    | error halt => rfl
    | ok mid => exact ih mid

/-! ### Openings that repeat -/

/-- The second events are the first, or have one opening more, which repeats one before it. -/
inductive Echoes : List Event → List Event → Prop
  | same (events : List Event) : Echoes events events
  | again (before between after : List Event) (parent name : String) (kind : NamespaceKind)
      (line : Nat) :
      Echoes (before ++ .opening parent name kind line :: (between ++ after))
        (before ++ .opening parent name kind line ::
          (between ++ .opening parent name kind line :: after))

theorem Echoes.context {events echoed : List Event} (hechoes : Echoes events echoed)
    (front back : List Event) : Echoes (front ++ events ++ back) (front ++ echoed ++ back) := by
  cases hechoes with
  | same => exact .same _
  | again before between after parent name kind line =>
    have hagain := Echoes.again (front ++ before) between (after ++ back) parent name kind line
    simpa only [List.append_assoc, List.cons_append] using hagain

theorem perform_extends (file : SourceFile) {events : List Event} {pass after : Pass}
    (hperform : perform file events pass = .ok after) :
    pass.registry.Extends after.registry := by
  have hextends : pass.registry.Extends (passOf (perform file events pass)).registry := by
    refine perform_induction (P := fun later => pass.registry.Extends later.registry)
      (fun event _ later hlater => ?_) (.refl _)
    rw [(event.perform_calls file later).1]
    exact hlater.trans (later.registry.run_extends _)
  rwa [hperform] at hextends

theorem perform_opening_of_held (file : SourceFile) {pass : Pass} {parent name path : String}
    (hparent : parent ∈ pass.registry.owners)
    (hresolve : Namespace.resolve? parent name = some path) (hpath : path ∈ pass.registry.owners)
    (kind : NamespaceKind) (line : Nat) :
    Event.perform file pass (.opening parent name kind line) = .ok pass := by
  rw [Event.perform, Pass.openNamespace, Registry.registerNamespace_of_owned hparent, hresolve]
  dsimp only
  rw [Registry.addNamespace_eq, if_pos hpath]
  rfl

theorem held_of_perform_opening (file : SourceFile) {pass after : Pass} {parent name : String}
    {kind : NamespaceKind} {line : Nat}
    (hperform : Event.perform file pass (.opening parent name kind line) = .ok after) :
    ∃ path, Namespace.resolve? parent name = some path ∧ parent ∈ after.registry.owners ∧
      path ∈ after.registry.owners := by
  rw [Event.perform, Pass.openNamespace] at hperform
  rcases hregister : pass.registry.registerNamespace parent name kind ⟨file.path, line⟩ with
    ⟨error | path, registry⟩
  · rw [hregister] at hperform
    cases hperform
  · rw [hregister] at hperform
    obtain rfl := Except.ok.inj hperform
    obtain ⟨hparent, hresolve, -⟩ := Registry.registerNamespace_cases hregister
    have hadded : registry =
        pass.registry.addNamespace ⟨path, kind, some ⟨file.path, line⟩⟩ := by
      rw [Registry.registerNamespace_of_owned hparent, hresolve] at hregister
      exact (congrArg Prod.snd hregister).symm
    refine ⟨path, hresolve, ?_, ?_⟩
    · exact hadded ▸ Registry.mem_owners_addNamespace.2 (.inl hparent)
    · exact hadded ▸ Registry.mem_owners_addNamespace.2 (.inr rfl)

theorem perform_echoes (file : SourceFile) {events echoed : List Event}
    (hechoes : Echoes events echoed) (pass : Pass) :
    perform file echoed pass = perform file events pass := by
  cases hechoes with
  | same => rfl
  | again before between after parent name kind line =>
    rw [perform_append, perform_append]
    congr 1
    funext pass
    rw [perform_cons, perform_cons]
    cases hfirst : Event.perform file pass (.opening parent name kind line) with
    | error halt => rfl
    | ok mid =>
      show perform file (between ++ .opening parent name kind line :: after) mid =
        perform file (between ++ after) mid
      rw [perform_append, perform_append]
      cases hbetween : perform file between mid with
      | error halt => rfl
      | ok late =>
        -- What the first opening found or registered is still registered when the second comes.
        obtain ⟨path, hresolve, hparent, hpath⟩ := held_of_perform_opening file hfirst
        have hkept := (perform_extends file hbetween).owners_subset
        show perform file (.opening parent name kind line :: after) late = perform file after late
        rw [perform_cons,
          perform_opening_of_held file (hkept hparent) hresolve (hkept hpath) kind line]
        rfl

end Extraction

/-! ### Definitions that share a body -/

namespace Node

open Extraction (isHeading)

-- The statements that one child of a body stands for, and those of all of them: wrappers are taken
-- apart, and headings and clauses left out.
mutual

def statementsOf : Node → List Node
  | ⟨kind, field, source, line, children⟩ =>
    if isHeading field then []
    else if kind ∈ ["body_statement", "block_body"] then statements children
    else if kind ∈ ["rescue", "ensure", "else", "superclass", "block_parameters"] then []
    else [⟨kind, field, source, line, children⟩]

def statements : List Node → List Node
  | [] => []
  | node :: rest => statementsOf node ++ statements rest

end

/-- What there is of a definition besides its body. -/
structure Title where
  kind : String
  /-- The name as it is written, if there is one. -/
  name : Option String
  source : String
  line : Nat
  deriving DecidableEq, Repr

def title (definition : Node) : Title :=
  { kind := definition.kind
    name := (definition.child? "name").map Node.source
    source := definition.source
    line := definition.line }

/-- Two definitions with the title of a third have its statements between them. -/
structure Shares (whole first second : Node) : Prop where
  definition : whole.kind ∈ ["class", "module"]
  walked : isHeading whole.field = false ∧ isHeading first.field = false ∧
    isHeading second.field = false
  title_first : first.title = whole.title
  title_second : second.title = whole.title
  body : statements whole.children = statements first.children ++ statements second.children

/-- One definition somewhere in a walked body is two that share its statements in the other, and all
else is the same. -/
inductive Reopened : List Node → List Node → Prop
  | here {whole first second : Node} (hshares : Shares whole first second)
      (before after : List Node) :
      Reopened (before ++ whole :: after) (before ++ first :: second :: after)
  | inBody (node : Node) {body split : List Node}
      (hkind : node.kind ∈ ["body_statement", "block_body", "singleton_class", "class", "module"])
      (hwalked : isHeading node.field = false) (hbody : Reopened body split)
      (before after : List Node) :
      Reopened (before ++ { node with children := body } :: after)
        (before ++ { node with children := split } :: after)
  | inBlock {call block : Node} {body split : List Node} (parts more : List Node)
      (hkind : call.kind = "call") (hwalked : isHeading call.field = false)
      (hblock : block.field = some "block")
      (hopens : opensBlock
        { call with children := parts ++ { block with children := body } :: more } = true)
      (hbody : Reopened body split) (before after : List Node) :
      Reopened
        (before ++ { call with children := parts ++ { block with children := body } :: more } ::
          after)
        (before ++ { call with children := parts ++ { block with children := split } :: more } ::
          after)

theorem sameCall_block (call : Node) {block : Node} (hfield : block.field = some "block")
    (parts more body split : List Node) :
    SameCall { call with children := parts ++ { block with children := body } :: more }
      { call with children := parts ++ { block with children := split } :: more } where
  source_eq := rfl
  line_eq := rfl
  child?_eq name hname := by
    have hother : (block.field == some name) = false := by
      rw [hfield]
      simpa using hname.symm
    simp [child?, List.find?_append, hother]

theorem not_name_of_walked {field : Option String} (hwalked : isHeading field = false) :
    (field == some "name") = false := by
  rw [beq_eq_false_iff_ne]
  rintro rfl
  exact absurd hwalked (by decide)

/-- A definition keeps its name where something in its body is opened again. -/
theorem Reopened.find?_name {body split : List Node} (hreopened : Reopened body split) :
    body.find? (fun child => child.field == some "name") =
      split.find? fun child => child.field == some "name" := by
  cases hreopened with
  | @here whole first second hshares before after =>
    obtain ⟨hwhole, hfirst, hsecond⟩ := hshares.walked
    simp [List.find?_append, not_name_of_walked hwhole, not_name_of_walked hfirst,
      not_name_of_walked hsecond]
  | inBody node _ hwalked => simp [List.find?_append, not_name_of_walked hwalked]
  | inBlock parts more _ hwalked => simp [List.find?_append, not_name_of_walked hwalked]

/-! ### A body in one node -/

theorem statements_append (first second : List Node) :
    statements (first ++ second) = statements first ++ statements second := by
  induction first with
  | nil => rfl
  | cons node rest ih => rw [List.cons_append, statements, statements, ih, List.append_assoc]

theorem statements_headings {headings : List Node}
    (hheadings : ∀ heading ∈ headings, isHeading heading.field = true) :
    statements headings = [] := by
  induction headings with
  | nil => rfl
  | cons heading rest ih =>
    rw [List.forall_mem_cons] at hheadings
    obtain ⟨kind, field, source, line, children⟩ := heading
    rw [statements, statementsOf, if_pos hheadings.1, ih hheadings.2]
    rfl

/-- The form that the grammar gives a definition: headings, and one node for the body. -/
theorem shares_of_bodies (definition wrapper : Node) (headings : List Node)
    (hkind : definition.kind ∈ ["class", "module"]) (hwalked : isHeading definition.field = false)
    (hheadings : ∀ heading ∈ headings, isHeading heading.field = true)
    (hwrapper : wrapper.kind ∈ ["body_statement", "block_body"])
    (hbody : isHeading wrapper.field = false) (first second : List Node) :
    Shares
      { definition with children := headings ++ [{ wrapper with children := first ++ second }] }
      { definition with children := headings ++ [{ wrapper with children := first }] }
      { definition with children := headings ++ [{ wrapper with children := second }] } := by
  have hname : ∀ body : List Node,
      Node.title { definition with children := headings ++ [{ wrapper with children := body }] } =
        Node.title { definition with children := headings } := by
    intro body
    simp [title, child?, List.find?_append, not_name_of_walked hbody]
  have hstatements : ∀ body : List Node,
      statements (headings ++ [{ wrapper with children := body }]) = statements body := by
    intro body
    rw [statements_append, statements_headings hheadings, statements, statementsOf,
      if_neg (by rw [hbody]; decide), if_pos hwrapper]
    simp [statements]
  refine ⟨hkind, ⟨hwalked, hwalked, hwalked⟩, ?_, ?_, ?_⟩
  · rw [hname, hname]
  · rw [hname, hname]
  · show statements (headings ++ [_]) = statements (headings ++ [_]) ++ statements (headings ++ [_])
    rw [hstatements, hstatements, hstatements, statements_append]

end Node

namespace Extraction

open Node (statements statementsOf Shares Reopened)

/-! ### The events of a shared body -/

theorem eventsAmong_append (place : Place) (first second : List Node) :
    eventsAmong place (first ++ second) = eventsAmong place first ++ eventsAmong place second := by
  induction first with
  | nil => rfl
  | cons node rest ih =>
    rw [List.cons_append, eventsAmong, eventsAmong, ih, List.append_assoc]

theorem eventsOf_of_clause (place : Place) {kind : String}
    (hclause : kind ∈ ["rescue", "ensure", "else", "superclass", "block_parameters"])
    (field : Option String) (source : String) (line : Nat) (children : List Node) :
    eventsOf place ⟨kind, field, source, line, children⟩ = [] := by
  rw [eventsOf]
  simp only [List.mem_cons, List.not_mem_nil, or_false] at hclause
  rcases hclause with rfl | rfl | rfl | rfl | rfl <;> simp

mutual

theorem eventsAmong_statementsOf (place : Place) : ∀ node : Node,
    eventsAmong place (statementsOf node) = eventsOf place node
  | ⟨kind, field, source, line, children⟩ => by
    rw [statementsOf]
    split_ifs with hheading hwrapper hclause
    · rw [eventsOf, if_pos (isHeading_iff.1 hheading)]
      rfl
    · have htransparent : kind ∈ ["body_statement", "block_body", "singleton_class"] := by
        simp at hwrapper ⊢
        tauto
      rw [eventsOf, if_neg (mt isHeading_iff.2 hheading), if_pos htransparent]
      exact eventsAmong_statements place children
    · rw [eventsOf_of_clause place hclause]
      rfl
    · rw [eventsAmong, eventsAmong, List.append_nil]

theorem eventsAmong_statements (place : Place) : ∀ nodes : List Node,
    eventsAmong place (statements nodes) = eventsAmong place nodes
  | [] => rfl
  | node :: rest => by
    rw [statements, eventsAmong_append, eventsAmong_statementsOf place node,
      eventsAmong_statements place rest, eventsAmong]

end

theorem not_mem_headings {field : Option String} (hwalked : isHeading field = false) :
    field ∉ [some "name", some "superclass", some "parameters", some "value"] := by
  rw [← isHeading_iff, hwalked]
  decide

/-- The events of a definition, as its title and its statements give them. -/
def eventsOfTitle (place : Place) (title : Node.Title) (body : List Node) : List Event :=
  match title.name with
  | some name =>
    opened place name (if title.kind = "module" then .moduleBody else .classBody) title.line
      fun path => eventsAmong (place.inNamespace path) body
  | none => []

theorem eventsOf_eq_eventsOfTitle (place : Place) {node : Node}
    (hkind : node.kind ∈ ["class", "module"]) (hwalked : isHeading node.field = false) :
    eventsOf place node = eventsOfTitle place node.title node.children := by
  obtain ⟨kind, field, source, line, children⟩ := node
  have hfield := not_mem_headings hwalked
  have hwrapper : kind ∉ ["body_statement", "block_body", "singleton_class"] := by
    have hkinds : kind = "class" ∨ kind = "module" := by simpa using hkind
    rcases hkinds with rfl | rfl <;> decide
  rw [eventsOf, if_neg hfield, if_neg hwrapper, if_pos hkind, eventsOfTitle, Node.title]
  cases Node.child? ⟨kind, field, source, line, children⟩ "name" <;> rfl

theorem eventsOfTitle_statements (place : Place) (title : Node.Title) (body : List Node) :
    eventsOfTitle place title (statements body) = eventsOfTitle place title body := by
  unfold eventsOfTitle
  simp only [eventsAmong_statements]

theorem echoes_eventsOfTitle (place : Place) (title : Node.Title) (first second : List Node) :
    Echoes (eventsOfTitle place title (first ++ second))
      (eventsOfTitle place title first ++ eventsOfTitle place title second) := by
  unfold eventsOfTitle
  cases title.name with
  | none => exact .same []
  | some name =>
    dsimp only
    unfold opened
    cases Namespace.resolve? place.owner name with
    | none => exact .again [] [] [] place.owner name _ _
    | some path =>
      dsimp only
      rw [eventsAmong_append]
      exact .again [] _ _ place.owner name _ _

/-! ### The events around a shared body -/

theorem echoes_opened (place : Place) (name : String) (kind : NamespaceKind) (line : Nat)
    {body split : String → List Event} (hbody : ∀ path, Echoes (body path) (split path)) :
    Echoes (opened place name kind line body) (opened place name kind line split) := by
  unfold opened
  cases Namespace.resolve? place.owner name with
  | none => exact .same _
  | some path => simpa using (hbody path).context [.opening place.owner name kind line] []

theorem echoes_grouped (place : Place) {call other : Node} (hsame : Node.SameCall call other)
    {block split : String → List Event} (hblock : ∀ path, Echoes (block path) (split path)) :
    Echoes (grouped place call block) (grouped place other split) := by
  unfold grouped
  rw [hsame.explicitReceiver?_eq, hsame.line_eq]
  cases other.explicitReceiver? with
  | some receiver => exact echoes_opened place _ _ _ hblock
  | none =>
    dsimp only
    split_ifs
    · exact hblock place.owner
    · exact .same []

theorem echoes_eventsInBlock (place : Place) {block : Node} (hfield : block.field = some "block")
    {body split : List Node} (hbody : Echoes (eventsAmong place body) (eventsAmong place split))
    (parts more : List Node) :
    Echoes (eventsInBlock place (parts ++ { block with children := body } :: more))
      (eventsInBlock place (parts ++ { block with children := split } :: more)) := by
  induction parts with
  | nil =>
    rw [List.nil_append, List.nil_append, eventsInBlock, eventsInBlock, if_pos hfield,
      if_pos hfield]
    exact hbody
  | cons part rest ih =>
    obtain ⟨kind, field, source, line, children⟩ := part
    rw [List.cons_append, List.cons_append, eventsInBlock, eventsInBlock]
    split_ifs
    · exact .same _
    · exact ih

theorem echoes_around {place : Place} {nodes others : List Node}
    (hechoes : Echoes (eventsAmong place nodes) (eventsAmong place others))
    (before after : List Node) :
    Echoes (eventsAmong place (before ++ nodes ++ after))
      (eventsAmong place (before ++ others ++ after)) := by
  simp only [eventsAmong_append]
  exact hechoes.context _ _

theorem eventsAmong_singleton (place : Place) (node : Node) :
    eventsAmong place [node] = eventsOf place node :=
  List.append_nil _

theorem echoes_shares {whole first second : Node} (hshares : Shares whole first second)
    (place : Place) : Echoes (eventsAmong place [whole]) (eventsAmong place [first, second]) := by
  obtain ⟨hwhole, hfirst, hsecond⟩ := hshares.walked
  have hkind : ∀ node : Node, node.title = whole.title → node.kind ∈ ["class", "module"] := by
    intro node htitle
    have hkinds : node.kind = whole.kind := congrArg Node.Title.kind htitle
    exact hkinds ▸ hshares.definition
  have hpair : eventsAmong place [first, second] =
      eventsOf place first ++ eventsOf place second := by
    rw [eventsAmong, eventsAmong_singleton]
  rw [hpair, eventsAmong_singleton, eventsOf_eq_eventsOfTitle place hshares.definition hwhole,
    eventsOf_eq_eventsOfTitle place (hkind first hshares.title_first) hfirst,
    eventsOf_eq_eventsOfTitle place (hkind second hshares.title_second) hsecond,
    hshares.title_first, hshares.title_second, ← eventsOfTitle_statements,
    ← eventsOfTitle_statements place _ first.children,
    ← eventsOfTitle_statements place _ second.children, hshares.body]
  exact echoes_eventsOfTitle place whole.title _ _

theorem echoes_inBody {node : Node} {body split : List Node}
    (hkind : node.kind ∈ ["body_statement", "block_body", "singleton_class", "class", "module"])
    (hwalked : isHeading node.field = false) (hreopened : Reopened body split)
    (hbody : ∀ place, Echoes (eventsAmong place body) (eventsAmong place split)) (place : Place) :
    Echoes (eventsAmong place [{ node with children := body }])
      (eventsAmong place [{ node with children := split }]) := by
  rw [eventsAmong_singleton, eventsAmong_singleton]
  by_cases hdefinition : node.kind ∈ ["class", "module"]
  · have htitle : ({ node with children := split } : Node).title =
        ({ node with children := body } : Node).title := by
      simp only [Node.title, Node.child?, hreopened.find?_name]
    have hevents : ∀ children : List Node, eventsOf place { node with children } =
        eventsOfTitle place ({ node with children } : Node).title children :=
      fun children => eventsOf_eq_eventsOfTitle place hdefinition hwalked
    rw [hevents, hevents, htitle]
    unfold eventsOfTitle
    cases ({ node with children := body } : Node).title.name with
    | none => exact .same []
    | some name => exact echoes_opened place _ _ _ fun path => hbody (place.inNamespace path)
  · have hwrapper : node.kind ∈ ["body_statement", "block_body", "singleton_class"] := by
      simp only [List.mem_cons, List.not_mem_nil, or_false] at hkind hdefinition ⊢
      tauto
    have hfield := not_mem_headings hwalked
    rw [eventsOf, eventsOf, if_neg hfield, if_pos hwrapper, if_neg hfield, if_pos hwrapper]
    exact hbody place

theorem echoes_inBlock {call block : Node} {body split : List Node} (parts more : List Node)
    (hkind : call.kind = "call") (hwalked : isHeading call.field = false)
    (hblock : block.field = some "block")
    (hopens : Node.opensBlock
      { call with children := parts ++ { block with children := body } :: more } = true)
    (hbody : ∀ place, Echoes (eventsAmong place body) (eventsAmong place split)) (place : Place) :
    Echoes
      (eventsAmong place
        [{ call with children := parts ++ { block with children := body } :: more }])
      (eventsAmong place
        [{ call with children := parts ++ { block with children := split } :: more }]) := by
  have hsame := Node.sameCall_block call hblock parts more body split
  have hfield := not_mem_headings hwalked
  have hkinds : call.kind ∉ ["body_statement", "block_body", "singleton_class"] ∧
      call.kind ∉ ["class", "module"] := by
    rw [hkind]
    decide
  rw [eventsAmong_singleton, eventsAmong_singleton, eventsOf, eventsOf, if_neg hfield,
    if_neg hkinds.1, if_neg hkinds.2, if_pos hkind, if_neg hfield, if_neg hkinds.1,
    if_neg hkinds.2, if_pos hkind, ← hsame.method?_eq, ← hsame.controllerName?_eq]
  rw [Node.opensBlock_eq] at hopens
  -- Only a grouping call has a block that is walked.
  cases hmethod : Node.method?
      { call with children := parts ++ { block with children := body } :: more } with
  | none => simp [hmethod] at hopens
  | some method =>
    cases method with
    | helpers =>
      exact echoes_grouped place hsame fun path =>
        echoes_eventsInBlock _ hblock (hbody (place.inNamespace path)) parts more
    | controllers =>
      exact echoes_grouped place hsame fun path =>
        echoes_eventsInBlock _ hblock (hbody ⟨path, true, _⟩) parts more
    | hook verb => simp [hmethod, Method.isGrouping] at hopens
    | route verb => simp [hmethod, Method.isGrouping] at hopens

theorem echoes_of_reopened {body split : List Node} (hreopened : Reopened body split) :
    ∀ place, Echoes (eventsAmong place body) (eventsAmong place split) := by
  induction hreopened with
  | here hshares before after =>
    intro place
    simpa using echoes_around (echoes_shares hshares place) before after
  | inBody node hkind hwalked hbody before after ih =>
    intro place
    simpa using echoes_around (echoes_inBody hkind hwalked hbody ih place) before after
  | inBlock parts more hkind hwalked hblock hopens hbody before after ih =>
    intro place
    simpa using
      echoes_around (echoes_inBlock parts more hkind hwalked hblock hopens ih place) before after

end Extraction

namespace SourceFile

/-- The file with other statements. -/
def withStatements (file : SourceFile) (statements : List Node) : SourceFile :=
  { file with tree := { file.tree with children := statements } }

/-- Extracts a file and, if it was extracted to its end, another one. The counts add up. -/
def extractThen (first second : SourceFile) (registry : Registry) : Extraction :=
  let once := first.extract registry
  match once.result with
  | .error _ => once
  | .ok summary =>
    let twice := second.extract once.registry
    { result := twice.result.map (summary + ·)
      registry := twice.registry
      warnings := once.warnings ++ twice.warnings }

theorem withStatements_self (file : SourceFile) :
    file.withStatements file.tree.children = file := by
  obtain ⟨path, source, ⟨kind, field, text, line, children⟩⟩ := file
  rfl

theorem extract_withStatements (file : SourceFile) (statements : List Node)
    (registry : Registry) :
    (file.withStatements statements).extract registry =
      match Extraction.perform file (Extraction.eventsAmong {} statements) { registry } with
      | .ok pass => ⟨.ok pass.summary, pass.registry, pass.warnings⟩
      | .error halt => ⟨.error halt.error, halt.pass.registry, halt.pass.warnings⟩ := by
  rw [extract, walk_eq_perform]
  rfl

theorem extract_append (file : SourceFile) (first second : List Node) (registry : Registry) :
    (file.withStatements (first ++ second)).extract registry =
      (file.withStatements first).extractThen (file.withStatements second) registry := by
  unfold extractThen
  rw [extract_withStatements, extract_withStatements, Extraction.eventsAmong_append,
    Extraction.perform_append]
  cases Extraction.perform file (Extraction.eventsAmong {} first) { registry } with
  | error halt => rfl
  | ok pass =>
    have hafter := Extraction.perform_after file (Extraction.eventsAmong {} second)
      { registry := pass.registry } pass
    rw [Extraction.Pass.fresh_after] at hafter
    dsimp only
    rw [extract_withStatements]
    show (match Extraction.perform file (Extraction.eventsAmong {} second) pass with
      | .ok pass => (⟨.ok pass.summary, pass.registry, pass.warnings⟩ : Extraction)
      | .error halt => ⟨.error halt.error, halt.pass.registry, halt.pass.warnings⟩) = _
    rw [hafter]
    cases Extraction.perform file (Extraction.eventsAmong {} second)
      { registry := pass.registry } <;> rfl

theorem extract_reopened (file : SourceFile) {body : List Node}
    (hreopened : Node.Reopened file.tree.children body) (registry : Registry) :
    (file.withStatements body).extract registry = file.extract registry := by
  have hechoes := Extraction.echoes_of_reopened hreopened {}
  calc (file.withStatements body).extract registry
      = (file.withStatements file.tree.children).extract registry := by
        rw [extract_withStatements, extract_withStatements,
          Extraction.perform_echoes file hechoes]
    _ = file.extract registry := by rw [withStatements_self]

/-- **Splitting declarations changes nothing.** A file whose statements are two rows after one
another is extracted as a file with the first row and, unless that stops, a file with the second. A
definition anywhere in what is walked can be closed and opened again between two of its statements.
The counts or the refusal, the registry and the warnings are the same, whatever the registry. -/
theorem extract_split (file : SourceFile) (registry : Registry) :
    (∀ first second : List Node,
      (file.withStatements (first ++ second)).extract registry =
        (file.withStatements first).extractThen (file.withStatements second) registry) ∧
      ∀ body : List Node, Node.Reopened file.tree.children body →
        (file.withStatements body).extract registry = file.extract registry :=
  ⟨fun first second => file.extract_append first second registry,
    fun _ hreopened => file.extract_reopened hreopened registry⟩

end SourceFile

/-- A class or module with statements in its body. -/
def Node.defining (kind name : String) (body : List Node) : Node :=
  ⟨kind, none, "", 1,
    [⟨"constant", some "name", name, 1, []⟩] ++ [⟨"body_statement", some "body", "", 1, body⟩]⟩

/-- A route by the symbol of a name. -/
def Node.getting (name : String) : Node :=
  ⟨"call", none, "", 2,
    [⟨"identifier", some "method", "get", 2, []⟩,
      ⟨"argument_list", some "arguments", "", 2, [⟨"simple_symbol", none, ":" ++ name, 2, []⟩]⟩]⟩

/-- A class in a module, with two routes. -/
def SourceFile.moduleOf (classes : List Node) : SourceFile :=
  ⟨⟨[]⟩, "", ⟨"program", none, "", 1, [.defining "module" "Blog" classes]⟩⟩

theorem SourceFile.extract_split_moduleOf :
    let whole := moduleOf [.defining "class" "App" [.getting "first", .getting "second"]]
    let split := moduleOf
      [.defining "class" "App" [.getting "first"], .defining "class" "App" [.getting "second"]]
    (whole.extract .empty).result = .ok ⟨2, 0, 0⟩ ∧
      Node.Reopened whole.tree.children split.tree.children ∧
      split.extract .empty = whole.extract .empty := by
  intro whole split
  have hshares : Node.Shares (.defining "class" "App" [.getting "first", .getting "second"])
      (.defining "class" "App" [.getting "first"]) (.defining "class" "App" [.getting "second"]) :=
    Node.shares_of_bodies (.defining "class" "App" []) ⟨"body_statement", some "body", "", 1, []⟩
      [⟨"constant", some "name", "App", 1, []⟩] (by decide) (by decide) (by decide) (by decide)
      (by decide) [.getting "first"] [.getting "second"]
  have hbody := Node.Reopened.inBody ⟨"body_statement", some "body", "", 1, []⟩ (by decide)
    (by decide) (.here hshares [] []) [⟨"constant", some "name", "Blog", 1, []⟩] []
  have hreopened : Node.Reopened whole.tree.children split.tree.children :=
    .inBody (.defining "module" "Blog" []) (by decide) (by decide) hbody [] []
  exact ⟨by decide +kernel, hreopened, (extract_split whole .empty).2 _ hreopened⟩

end RouteCatalog
