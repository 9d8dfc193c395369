import RouteCatalog.Extraction.Call
import RouteCatalog.Registry.Basic
import RouteCatalog.Scope.Controllers
import RouteCatalog.SourceFile

/-!
# Extraction

`SourceFile.extract` walks the statements of a file once, in source order, and registers every
namespace, route and handler that it meets. Classes, modules and grouping blocks are entered;
other statements, the clauses of a body and the blocks of other calls are not. A namespace that the
registry refuses ends the walk; what was registered before it stays. The stack of controllers goes
with the walk: a controller block is entered before its body is walked, and left after it on every
way out.
-/

namespace RouteCatalog

/-- How many declarations a walk met, by what became of them. -/
structure Summary where
  /-- The routes that were added. -/
  routes : Nat := 0
  /-- The handlers that were added. -/
  handlers : Nat := 0
  /-- The declarations that were left out. -/
  skipped : Nat := 0
  deriving DecidableEq, Repr, Inhabited

instance : Add Summary where
  add a b := ⟨a.routes + b.routes, a.handlers + b.handlers, a.skipped + b.skipped⟩

namespace Extraction

/-- The surroundings of a statement. -/
structure Scope where
  /-- The path of the namespace around. -/
  owner : String := ""
  /-- Whether the statement stands in a class, module or grouping block. -/
  inside : Bool := false
  deriving DecidableEq, Repr, Inhabited

/-- The surroundings in the body of a namespace. -/
def Scope.inNamespace (path : String) : Scope :=
  { owner := path, inside := true }

/-- What a walk has done so far. -/
structure Pass where
  registry : Registry
  summary : Summary := {}
  /-- The warnings so far, in order. -/
  warnings : List Warning := []
  deriving DecidableEq, Repr, Inhabited

/-- The end of a walk that the registry stopped. -/
structure Halt where
  /-- Why the walk stopped. -/
  error : RegistryError
  /-- What it had done. -/
  pass : Pass
  deriving DecidableEq, Repr, Inhabited

namespace Pass

/-- Counts a declaration that is left out, with a warning. -/
def skip (pass : Pass) (warning : Warning) : Pass :=
  { pass with
    summary := { pass.summary with skipped := pass.summary.skipped + 1 },
    warnings := pass.warnings ++ [warning] }

/-- Registers a namespace and gives its path. -/
def openNamespace (pass : Pass) (parent name : String) (kind : NamespaceKind)
    (location : Location) : Except Halt (String × Pass) :=
  match pass.registry.registerNamespace parent name kind location with
  | (.ok path, registry) => .ok (path, { pass with registry })
  | (.error error, registry) => .error ⟨error, { pass with registry }⟩

/-- Registers a route and counts it. -/
def addRoute (pass : Pass) (route : Route) : Except Halt Pass :=
  match pass.registry.registerRoute route with
  | (.ok registration, registry) =>
    match registration.warning? route with
    | none =>
      .ok { pass with
            registry, summary := { pass.summary with routes := pass.summary.routes + 1 } }
    | some warning => .ok ({ pass with registry }.skip warning)
  | (.error error, registry) => .error ⟨error, { pass with registry }⟩

/-- Registers a handler under the next serial number and counts it. -/
def addHandler (pass : Pass) (declaration : Declaration) (verb : HookVerb) : Except Halt Pass :=
  let (serial, registry) := pass.registry.takeSerial
  match registry.registerHandler { declaration with verb, serial } with
  | (.ok .added, registry) =>
    .ok { pass with
          registry, summary := { pass.summary with handlers := pass.summary.handlers + 1 } }
  | (.ok _, registry) =>
    .ok { pass with
          registry, summary := { pass.summary with skipped := pass.summary.skipped + 1 } }
  | (.error error, registry) => .error ⟨error, { pass with registry }⟩

end Pass

/-- The declaration that a call makes in its surroundings. -/
def declaration (file : SourceFile) (scope : Scope) (controllers : Controllers) (call : Node)
    (args : List Literal) : Declaration :=
  { owner := scope.owner
    controller := controllers.current
    args
    conditions := Node.lastOptions call.positional
    source := call.source
    location := ⟨file.path, call.line⟩
    docstring := file.docstring call.line }

/-- Registers the handler that a call declares. -/
def declareHandler (file : SourceFile) (scope : Scope) (controllers : Controllers) (call : Node)
    (verb : HookVerb) (pass : Pass) : Except Halt Pass :=
  pass.addHandler (declaration file scope controllers call call.handlerArgs) verb

/-- Registers the route that a call declares, unless its path is missing or dynamic. -/
def declareRoute (file : SourceFile) (scope : Scope) (controllers : Controllers) (call : Node)
    (verb : RouteVerb) (pass : Pass) : Except Halt Pass :=
  match call.routePath? with
  | some (.ok path) => pass.addRoute { declaration file scope controllers call [path] with verb }
  | some (.error reason) => .ok (pass.skip (.dynamicRoute ⟨file.path, call.line⟩ reason))
  | none => .ok (pass.skip (.pathlessRoute ⟨file.path, call.line⟩))

/-- The namespace of the block that a call opens: that of its receiver, or the one around. -/
def blockNamespace (file : SourceFile) (scope : Scope) (call : Node) (pass : Pass) :
    Except Halt (String × Pass) :=
  match call.explicitReceiver? with
  | some receiver =>
    pass.openNamespace scope.owner receiver.source .classBody ⟨file.path, call.line⟩
  | none => .ok (scope.owner, pass)

/-- Whether a child is a part of its parent other than a statement of the body. -/
def isHeading (field : Option String) : Bool :=
  match field with
  | some field => field ∈ ["name", "superclass", "parameters", "value"]
  | none => false

/-- What a walk does with a statement. -/
inductive Role where
  /-- Walks its children in the same surroundings. -/
  | transparent
  /-- Opens the namespace that it defines and walks its children there. -/
  | definition (kind : NamespaceKind)
  /-- Looks at the method that it calls. -/
  | call
  /-- Passes over it. -/
  | other
  deriving DecidableEq, Repr, Inhabited

/-- The role of a kind of node. -/
def Role.ofKind : String → Role
  | "body_statement" => transparent
  | "block_body" => transparent
  | "singleton_class" => transparent
  | "class" => definition .classBody
  | "module" => definition .moduleBody
  | "call" => call
  | _ => other

/-- The known method of a call that counts in its surroundings: outside every namespace, only a
grouping call on a receiver does. -/
def effectiveMethod? (scope : Scope) (call : Node) : Option Method :=
  call.method?.filter fun method =>
    scope.inside || (method.isGrouping && call.explicitReceiver?.isSome)

/-- A walk that the registry may stop. It has the controllers around at hand all along, and at its
end, wherever that is. -/
abbrev Walking := ExceptT Halt (StateM Controllers)

/-- Walks a block that names a controller or none. The block is left also when the walk is stopped
in it. -/
def inController (name : Option String) (block : Walking Pass) : Walking Pass :=
  ExceptT.mk fun controllers => controllers.within name block.run.run

mutual

/-- Walks one child of a body. -/
def walk (file : SourceFile) (scope : Scope) : Node → Pass → Walking Pass
  | ⟨kind, field, source, line, children⟩, pass =>
    let node : Node := ⟨kind, field, source, line, children⟩
    if isHeading field then return pass
    else
      match Role.ofKind kind with
      | .transparent => walkAll file scope children pass
      | .definition kind =>
        match node.child? "name" with
        | some name => do
          let (path, pass) ← pass.openNamespace scope.owner name.source kind ⟨file.path, line⟩
          walkAll file (.inNamespace path) children pass
        | none => return pass
      | .call =>
        match effectiveMethod? scope node with
        | some .helpers => do
          let (path, pass) ← blockNamespace file scope node pass
          walkBlock file (.inNamespace path) children pass
        | some .controllers => do
          let (path, pass) ← blockNamespace file scope node pass
          -- Where there is no block, what is entered here is left at once.
          inController node.controllerName? (walkBlock file (.inNamespace path) children pass)
        | some (.hook verb) => do
          declareHandler file scope (← get) node verb pass
        | some (.route verb) => do
          declareRoute file scope (← get) node verb pass
        | none => return pass
      | .other => return pass

/-- Walks the children of a body in order. -/
def walkAll (file : SourceFile) (scope : Scope) : List Node → Pass → Walking Pass
  | [], pass => return pass
  | node :: rest, pass => do
    let pass ← walk file scope node pass
    walkAll file scope rest pass

/-- Walks the block among the children of a call, if there is one. -/
def walkBlock (file : SourceFile) (scope : Scope) : List Node → Pass → Walking Pass
  | [], pass => return pass
  | ⟨_, field, _, _, children⟩ :: rest, pass =>
    if field == some "block" then walkAll file scope children pass
    else walkBlock file scope rest pass

end

end Extraction

/-- What extracting a file leaves. -/
structure Extraction where
  /-- The counts, or why the walk stopped. -/
  result : Except RegistryError Summary
  /-- The registry after the walk, whether or not it stopped. -/
  registry : Registry
  /-- The warnings, in order. -/
  warnings : List Warning

/-- Walks a whole file, with no controller around. -/
def SourceFile.walk (file : SourceFile) (registry : Registry) :
    Except Extraction.Halt Extraction.Pass :=
  ((Extraction.walkAll file {} file.tree.children { registry }).run.run {}).1

/-- Registers what a file declares. -/
def SourceFile.extract (file : SourceFile) (registry : Registry) : Extraction :=
  match file.walk registry with
  | .ok pass => ⟨.ok pass.summary, pass.registry, pass.warnings⟩
  | .error halt => ⟨.error halt.error, halt.pass.registry, halt.pass.warnings⟩

end RouteCatalog
