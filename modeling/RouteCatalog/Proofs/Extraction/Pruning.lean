import Mathlib.Tactic.SplitIfs
import RouteCatalog.Proofs.Extraction.Events

/-!
# Code that is not entered

`Node.prune` takes out of a tree what a walk has no business with: in every body that is walked, the
statements other than classes, modules, singleton classes and calls, the clauses, parameters,
superclasses and values, and the blocks of calls that open no block of declarations. What it leaves
keeps its kind, field, source and line. Method bodies, rescue clauses and the blocks of routes are
all among what goes: nothing that is not entered is left (`Node.BareBody`). None of it matters
(`SourceFile.extract_pruned`): extraction cannot tell a file from its pruned form.

A call keeps its method, receiver and arguments whole, and a walk asks a call for nothing else but
its block (`Node.SameCall`).
-/

namespace RouteCatalog

namespace Node

/-! ### Pruning -/

/-- Whether a call is of a method that opens a block of declarations. -/
def opensBlock (call : Node) : Bool :=
  (call.child? "method").any fun method =>
    method.source ∈ ["helpers", "controllers", "controller"]

/-- The parts of a call other than its block. -/
def withoutBlock (parts : List Node) : List Node :=
  parts.filter fun part => part.field != some "block"

-- What is left of one child of a walked body, of all of them, and of the parts of a call that opens
-- a block.
mutual

def prune? : Node → Option Node
  | ⟨kind, field, source, line, children⟩ =>
    let node : Node := ⟨kind, field, source, line, children⟩
    if field = some "name" then some node
    else if field = some "superclass" ∨ field = some "parameters" ∨ field = some "value" then none
    else if kind ∈ ["class", "module", "singleton_class", "body_statement", "block_body"] then
      some ⟨kind, field, source, line, pruneBody children⟩
    else if kind = "call" then
      some ⟨kind, field, source, line,
        if node.opensBlock then pruneBlock children else withoutBlock children⟩
    else none

def pruneBody : List Node → List Node
  | [] => []
  | node :: rest => (prune? node).toList ++ pruneBody rest

def pruneBlock : List Node → List Node
  | [] => []
  | ⟨kind, field, source, line, children⟩ :: rest =>
    ⟨kind, field, source, line, if field = some "block" then pruneBody children else children⟩ ::
      pruneBlock rest

end

/-- A tree without the code that a walk over it does not enter. -/
def prune (tree : Node) : Node :=
  { tree with children := pruneBody tree.children }

-- A child of a walked body without anything that is not entered, a body of such children, and the
-- parts of a call whose block is such a body.
mutual

def Bare : Node → Prop
  | ⟨kind, field, source, line, children⟩ =>
    field = some "name" ∨
      ¬(field = some "superclass" ∨ field = some "parameters" ∨ field = some "value") ∧
        (kind ∈ ["class", "module", "singleton_class", "body_statement", "block_body"] ∧
            BareBody children ∨
          kind = "call" ∧
            if opensBlock ⟨kind, field, source, line, children⟩ then BareBlock children
            else ∀ part ∈ children, part.field ≠ some "block")

def BareBody : List Node → Prop
  | [] => True
  | node :: rest => Bare node ∧ BareBody rest

def BareBlock : List Node → Prop
  | [] => True
  | ⟨_, field, _, _, children⟩ :: rest =>
    (field = some "block" → BareBody children) ∧ BareBlock rest

end

/-! ### What pruning keeps of a node -/

theorem field_of_mem_prune? {node pruned : Node} (hpruned : pruned ∈ (prune? node).toList) :
    pruned.field = node.field := by
  obtain ⟨kind, field, source, line, children⟩ := node
  rw [Option.mem_toList, prune?] at hpruned
  split_ifs at hpruned <;> (obtain rfl := Option.some.inj hpruned; rfl)

theorem find?_name_pruneBody (children : List Node) :
    (pruneBody children).find? (fun child => child.field == some "name") =
      children.find? fun child => child.field == some "name" := by
  induction children with
  | nil => rfl
  | cons node rest ih =>
    rw [pruneBody, List.find?_append, ih]
    by_cases hname : node.field = some "name"
    · have hkept : prune? node = some node := by
        obtain ⟨kind, field, source, line, children⟩ := node
        rw [prune?, if_pos hname]
      rw [hkept, List.find?_cons_of_pos (by simpa using hname)]
      simp [hname]
    · have hnone : (prune? node).toList.find? (fun child => child.field == some "name") = none := by
        rw [List.find?_eq_none]
        intro pruned hpruned
        simpa [field_of_mem_prune? hpruned] using hname
      rw [hnone, List.find?_cons_of_neg (by simpa using hname), Option.none_or]

theorem child?_name_pruneBody (kind : String) (field : Option String) (source : String) (line : Nat)
    (children : List Node) :
    Node.child? ⟨kind, field, source, line, pruneBody children⟩ "name" =
      Node.child? ⟨kind, field, source, line, children⟩ "name" :=
  find?_name_pruneBody children

/-- Two calls that a walk can tell apart by their blocks only. -/
structure SameCall (call other : Node) : Prop where
  source_eq : call.source = other.source
  line_eq : call.line = other.line
  child?_eq : ∀ field, field ≠ "block" → call.child? field = other.child? field

theorem find?_withoutBlock {field : String} (hfield : field ≠ "block") (parts : List Node) :
    (withoutBlock parts).find? (fun part => part.field == some field) =
      parts.find? fun part => part.field == some field := by
  rw [withoutBlock, List.find?_filter]
  congr 1
  funext part
  by_cases hpart : part.field = some field
  · simp [hpart, hfield]
  · simp [hpart]

theorem find?_pruneBlock {field : String} (hfield : field ≠ "block") (parts : List Node) :
    (pruneBlock parts).find? (fun part => part.field == some field) =
      parts.find? fun part => part.field == some field := by
  induction parts with
  | nil => rfl
  | cons part rest ih =>
    obtain ⟨kind, own, source, line, children⟩ := part
    rw [pruneBlock]
    by_cases hpart : own = some field
    · have hblock : own ≠ some "block" := fun heq => hfield (Option.some.inj (hpart.symm.trans heq))
      rw [if_neg hblock, List.find?_cons_of_pos (by simpa using hpart),
        List.find?_cons_of_pos (by simpa using hpart)]
    · rw [List.find?_cons_of_neg (by simpa using hpart),
        List.find?_cons_of_neg (by simpa using hpart), ih]

theorem sameCall_prune (kind : String) (field : Option String) (source : String) (line : Nat)
    (children : List Node) (opens : Bool) :
    SameCall
      ⟨kind, field, source, line, if opens then pruneBlock children else withoutBlock children⟩
      ⟨kind, field, source, line, children⟩ where
  source_eq := rfl
  line_eq := rfl
  child?_eq name hname := by
    cases opens with
    | true => exact find?_pruneBlock hname children
    | false => exact find?_withoutBlock hname children

/-! ### What a walk asks a call for -/

namespace SameCall

variable {call other : Node}

theorem opensBlock_eq (hsame : SameCall call other) : call.opensBlock = other.opensBlock := by
  rw [opensBlock, opensBlock, hsame.child?_eq "method" (by decide)]

theorem method?_eq (hsame : SameCall call other) : call.method? = other.method? := by
  rw [method?, method?, hsame.child?_eq "method" (by decide)]

theorem explicitReceiver?_eq (hsame : SameCall call other) :
    call.explicitReceiver? = other.explicitReceiver? := by
  rw [explicitReceiver?, explicitReceiver?, hsame.child?_eq "receiver" (by decide), hsame.source_eq]

theorem positional_eq (hsame : SameCall call other) : call.positional = other.positional := by
  rw [positional, positional, hsame.child?_eq "arguments" (by decide)]

theorem controllerName?_eq (hsame : SameCall call other) :
    call.controllerName? = other.controllerName? := by
  rw [controllerName?, controllerName?, hsame.positional_eq]

theorem handlerArgs_eq (hsame : SameCall call other) : call.handlerArgs = other.handlerArgs := by
  rw [handlerArgs, handlerArgs, hsame.positional_eq]

theorem routePath?_eq (hsame : SameCall call other) : call.routePath? = other.routePath? := by
  rw [routePath?, routePath?, hsame.positional_eq]

end SameCall

/-! ### What pruning takes away -/

theorem bareBody_append {first second : List Node} (hfirst : BareBody first)
    (hsecond : BareBody second) : BareBody (first ++ second) := by
  induction first with
  | nil => exact hsecond
  | cons node rest ih => exact ⟨hfirst.1, ih hfirst.2⟩

theorem field_of_mem_withoutBlock {parts : List Node} :
    ∀ part ∈ withoutBlock parts, part.field ≠ some "block" := by
  intro part hpart
  simpa using (List.mem_filter.1 hpart).2

mutual

theorem bareBody_prune? : ∀ node : Node, BareBody node.prune?.toList
  | ⟨kind, field, source, line, children⟩ => by
    rw [prune?]
    split_ifs with hname hpart hkind hcall hopens
    · exact ⟨.inl hname, trivial⟩
    · trivial
    · exact ⟨.inr ⟨hpart, .inl ⟨hkind, bareBody_pruneBody children⟩⟩, trivial⟩
    · have hsame : SameCall ⟨kind, field, source, line, pruneBlock children⟩ _ :=
        sameCall_prune kind field source line children true
      refine ⟨.inr ⟨hpart, .inr ⟨hcall, ?_⟩⟩, trivial⟩
      rw [if_pos (hsame.opensBlock_eq.trans hopens)]
      exact bareBlock_pruneBlock children
    · have hsame : SameCall ⟨kind, field, source, line, withoutBlock children⟩ _ :=
        sameCall_prune kind field source line children false
      refine ⟨.inr ⟨hpart, .inr ⟨hcall, ?_⟩⟩, trivial⟩
      rw [if_neg fun hpruned => hopens (hsame.opensBlock_eq.symm.trans hpruned)]
      exact field_of_mem_withoutBlock
    · trivial

theorem bareBody_pruneBody : ∀ nodes : List Node, BareBody (pruneBody nodes)
  | [] => trivial
  | node :: rest => by
    rw [pruneBody]
    exact bareBody_append (bareBody_prune? node) (bareBody_pruneBody rest)

theorem bareBlock_pruneBlock : ∀ parts : List Node, BareBlock (pruneBlock parts)
  | [] => trivial
  | ⟨kind, field, source, line, children⟩ :: rest => by
    rw [pruneBlock]
    refine ⟨fun hblock => ?_, bareBlock_pruneBlock rest⟩
    rw [if_pos hblock]
    exact bareBody_pruneBody children

end

theorem opensBlock_eq (call : Node) : call.opensBlock = call.method?.any Method.isGrouping := by
  rw [opensBlock, method?]
  cases call.child? "method" with
  | none => rfl
  | some method =>
    show decide (method.source ∈ ["helpers", "controllers", "controller"]) =
      (Method.ofName? method.source).any Method.isGrouping
    generalize method.source = name
    unfold Method.ofName?
    split
    · rfl
    · rfl
    · rfl
    · rename_i hhelpers hcontrollers hcontroller
      have hother : name ∉ ["helpers", "controllers", "controller"] := by
        simpa using ⟨hhelpers, hcontrollers, hcontroller⟩
      rw [decide_eq_false hother]
      cases HookVerb.ofMethod? name with
      | some verb => rfl
      | none => cases RouteVerb.ofMethod? name <;> rfl

end Node

namespace Extraction

/-! ### The walk -/

section Calls

variable {call other : Node} (file : SourceFile) (scope : Scope)

theorem effectiveMethod?_eq (hsame : Node.SameCall call other) :
    effectiveMethod? scope call = effectiveMethod? scope other := by
  rw [effectiveMethod?, effectiveMethod?, hsame.method?_eq, hsame.explicitReceiver?_eq]

theorem blockNamespace_eq (hsame : Node.SameCall call other) :
    blockNamespace file scope call = blockNamespace file scope other := by
  funext pass
  rw [blockNamespace, blockNamespace, hsame.explicitReceiver?_eq, hsame.line_eq]

theorem declaration_eq (hsame : Node.SameCall call other) (controllers : Controllers)
    (args : List Literal) :
    declaration file scope controllers call args = declaration file scope controllers other args := by
  rw [declaration, declaration, hsame.positional_eq, hsame.source_eq, hsame.line_eq]

theorem declareHandler_eq (hsame : Node.SameCall call other) (controllers : Controllers)
    (verb : HookVerb) :
    declareHandler file scope controllers call verb =
      declareHandler file scope controllers other verb := by
  funext pass
  rw [declareHandler, declareHandler, hsame.handlerArgs_eq, declaration_eq file scope hsame]

theorem declareRoute_eq (hsame : Node.SameCall call other) (controllers : Controllers)
    (verb : RouteVerb) :
    declareRoute file scope controllers call verb =
      declareRoute file scope controllers other verb := by
  funext pass
  unfold declareRoute
  rw [hsame.routePath?_eq, hsame.line_eq]
  simp only [declaration_eq file scope hsame]

end Calls

theorem walkAll_append (file : SourceFile) (scope : Scope) (first second : List Node)
    (pass : Pass) :
    walkAll file scope (first ++ second) pass =
      walkAll file scope first pass >>= walkAll file scope second := by
  induction first generalizing pass with
  | nil => rfl
  | cons node rest ih =>
    rw [List.cons_append, walkAll, walkAll, bind_assoc]
    congr 1
    funext pass
    exact ih pass

theorem walkAll_singleton (file : SourceFile) (scope : Scope) (node : Node) (pass : Pass) :
    walkAll file scope [node] pass = walk file scope node pass :=
  bind_pure _

/-- Pruning a child of a body, in the terms of the walk. -/
theorem prune?_of_body {kind : String} {field : Option String} (hbody : ¬isHeading field = true)
    (source : String) (line : Nat) (children : List Node) :
    Node.prune? ⟨kind, field, source, line, children⟩ =
      match Role.ofKind kind with
      | .transparent => some ⟨kind, field, source, line, Node.pruneBody children⟩
      | .definition _ => some ⟨kind, field, source, line, Node.pruneBody children⟩
      | .call =>
        some ⟨kind, field, source, line,
          if Node.opensBlock ⟨kind, field, source, line, children⟩ then Node.pruneBlock children
          else Node.withoutBlock children⟩
      | .other => none := by
  have hparts : field ≠ some "name" ∧
      ¬(field = some "superclass" ∨ field = some "parameters" ∨ field = some "value") := by
    simpa [isHeading_iff] using hbody
  have hwrappers : ["body_statement", "block_body", "singleton_class"] ⊆
      ["class", "module", "singleton_class", "body_statement", "block_body"] := by decide
  have hdefinitions : ["class", "module"] ⊆
      ["class", "module", "singleton_class", "body_statement", "block_body"] := by decide
  rw [Node.prune?, if_neg hparts.1, if_neg hparts.2]
  obtain ⟨hwrapper, hrole⟩ | ⟨-, hdefinition, hrole⟩ | ⟨rfl, hrole⟩ |
    ⟨hwrapper, hdefinition, hcall, hrole⟩ := Role.ofKind_cases kind
  · rw [if_pos (hwrappers hwrapper), hrole]
  · rw [if_pos (hdefinitions hdefinition), hrole]
  · rw [if_neg (by decide), if_pos rfl, hrole]
  · have hother :
        kind ∉ ["class", "module", "singleton_class", "body_statement", "block_body"] := by
      simp_all
    rw [if_neg hother, if_neg hcall, hrole]

theorem prune?_of_heading {field : Option String} (hheading : isHeading field = true)
    (kind source : String) (line : Nat) (children : List Node) :
    Node.prune? ⟨kind, field, source, line, children⟩ = none ∨
      Node.prune? ⟨kind, field, source, line, children⟩ =
        some ⟨kind, field, source, line, children⟩ := by
  have hfield : field = some "name" ∨
      field = some "superclass" ∨ field = some "parameters" ∨ field = some "value" := by
    simpa [isHeading_iff] using hheading
  rw [Node.prune?]
  rcases hfield with hname | hpart
  · exact .inr (if_pos hname)
  · by_cases hname : field = some "name"
    · exact .inr (if_pos hname)
    · exact .inl (by rw [if_neg hname, if_pos hpart])

/-- A walk that enters the block of a call enters it also after pruning. -/
theorem opensBlock_of_effectiveMethod? {scope : Scope} {call : Node} {method : Method}
    (hmethod : effectiveMethod? scope call = some method) (hgrouping : method.isGrouping = true) :
    call.opensBlock = true := by
  rw [Node.opensBlock_eq, (Option.filter_eq_some_iff.1 hmethod).1]
  exact hgrouping

mutual

theorem walkAll_prune? (file : SourceFile) (tree : Node) (scope : Scope) :
    ∀ (node : Node) (pass : Pass),
      walkAll { file with tree } scope node.prune?.toList pass = walk file scope node pass
  | ⟨kind, field, source, line, children⟩, pass => by
    by_cases hheading : isHeading field = true
    · rcases prune?_of_heading hheading kind source line children with hgone | hkept
      · rw [hgone, walk, if_pos hheading]
        rfl
      · rw [hkept, Option.toList_some, walkAll_singleton, walk, walk, if_pos hheading,
          if_pos hheading]
    rw [prune?_of_body hheading, walk, if_neg hheading]
    cases hrole : Role.ofKind kind with
    | transparent =>
      rw [Option.toList_some, walkAll_singleton, walk, if_neg hheading, hrole]
      exact walkAll_pruneBody file tree scope children pass
    | definition defined =>
      rw [Option.toList_some, walkAll_singleton, walk, if_neg hheading, hrole]
      dsimp only
      rw [Node.child?_name_pruneBody]
      cases Node.child? ⟨kind, field, source, line, children⟩ "name" with
      | none => rfl
      | some name =>
        dsimp only
        congr 1
        funext opening
        exact walkAll_pruneBody file tree (.inNamespace opening.1) children opening.2
    | call =>
      have hsame := Node.sameCall_prune kind field source line children
        (Node.opensBlock ⟨kind, field, source, line, children⟩)
      rw [Option.toList_some, walkAll_singleton, walk, if_neg hheading, hrole]
      dsimp only
      rw [effectiveMethod?_eq scope hsame, blockNamespace_eq _ scope hsame]
      cases hmethod : effectiveMethod? scope ⟨kind, field, source, line, children⟩ with
      | none => rfl
      | some method =>
        cases method with
        | helpers =>
          rw [if_pos (opensBlock_of_effectiveMethod? hmethod rfl)]
          dsimp only
          congr 1
          funext opening
          exact walkBlock_pruneBlock file tree (.inNamespace opening.1) children opening.2
        | controllers =>
          dsimp only
          rw [hsame.controllerName?_eq, if_pos (opensBlock_of_effectiveMethod? hmethod rfl)]
          congr 1
          funext opening
          rw [walkBlock_pruneBlock file tree (.inNamespace opening.1) children opening.2]
        | hook verb =>
          dsimp only
          congr 1
          funext controllers
          rw [declareHandler_eq _ scope hsame]
          rfl
        | route verb =>
          dsimp only
          congr 1
          funext controllers
          rw [declareRoute_eq _ scope hsame]
          rfl
    | other => rfl

theorem walkAll_pruneBody (file : SourceFile) (tree : Node) (scope : Scope) :
    ∀ (nodes : List Node) (pass : Pass),
      walkAll { file with tree } scope (Node.pruneBody nodes) pass = walkAll file scope nodes pass
  | [], pass => rfl
  | node :: rest, pass => by
    rw [Node.pruneBody, walkAll_append, walkAll_prune? file tree scope node pass, walkAll]
    congr 1
    funext pass
    exact walkAll_pruneBody file tree scope rest pass

theorem walkBlock_pruneBlock (file : SourceFile) (tree : Node) (scope : Scope) :
    ∀ (parts : List Node) (pass : Pass),
      walkBlock { file with tree } scope (Node.pruneBlock parts) pass =
        walkBlock file scope parts pass
  | [], pass => rfl
  | ⟨kind, field, source, line, children⟩ :: rest, pass => by
    rw [Node.pruneBlock, walkBlock, walkBlock]
    by_cases hblock : field = some "block"
    · rw [if_pos hblock, if_pos (by simpa using hblock), if_pos (by simpa using hblock)]
      exact walkAll_pruneBody file tree scope children pass
    · rw [if_neg (by simpa using hblock), if_neg (by simpa using hblock)]
      exact walkBlock_pruneBlock file tree scope rest pass

end

end Extraction

/-- A file without the code that extraction does not enter. -/
def SourceFile.pruned (file : SourceFile) : SourceFile :=
  { file with tree := file.tree.prune }

/-- **Code that is not entered cannot influence the catalog**: the pruned file holds no such code,
and the counts or the refusal, the registry and the warnings of an extraction are those of the
pruned file, whatever the registry. -/
theorem SourceFile.extract_pruned (file : SourceFile) (registry : Registry) :
    Node.BareBody file.pruned.tree.children ∧
      file.pruned.extract registry = file.extract registry := by
  refine ⟨Node.bareBody_pruneBody file.tree.children, ?_⟩
  rw [SourceFile.extract, SourceFile.extract, SourceFile.walk, SourceFile.walk,
    ← Extraction.walkAll_pruneBody file file.tree.prune {} file.tree.children { registry }]
  rfl

-- A method, a clause and the block of a route go; the name of the class and the route itself stay.
example :
    Node.prune ⟨"program", none, "", 1,
      [⟨"class", none, "", 1,
        [⟨"constant", some "name", "App", 1, []⟩,
          ⟨"method", none, "def show; end", 2, [⟨"identifier", some "name", "show", 2, []⟩]⟩,
          ⟨"call", none, "get(:a) { 1 }", 3,
            [⟨"identifier", some "method", "get", 3, []⟩,
              ⟨"block", some "block", "{ 1 }", 3, [⟨"integer", none, "1", 3, []⟩]⟩]⟩,
          ⟨"rescue", none, "rescue; nil", 4, [⟨"nil", none, "nil", 4, []⟩]⟩]⟩]⟩ =
      ⟨"program", none, "", 1,
        [⟨"class", none, "", 1,
          [⟨"constant", some "name", "App", 1, []⟩,
            ⟨"call", none, "get(:a) { 1 }", 3,
              [⟨"identifier", some "method", "get", 3, []⟩]⟩]⟩]⟩ := by
  rfl

end RouteCatalog
