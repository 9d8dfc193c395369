import RouteCatalog.Options
import RouteCatalog.Text.Basic
import RouteCatalog.Verb

/-!
# Calls

What a call of the source says: which of the known methods it calls, on which receiver, with which
arguments and options.
-/

namespace RouteCatalog

/-- The methods that the catalog knows. -/
inductive Method where
  /-- Opens a block in a namespace. -/
  | helpers
  /-- Opens a block in a namespace under a controller. -/
  | controllers
  | hook (verb : HookVerb)
  | route (verb : RouteVerb)
  deriving DecidableEq, Repr, Inhabited

namespace Method

/-- The method of a name, if the catalog knows it. -/
def ofName? (name : String) : Option Method :=
  match name with
  | "helpers" => some helpers
  | "controllers" => some controllers
  | "controller" => some controllers
  | _ => ((HookVerb.ofMethod? name).map hook).or ((RouteVerb.ofMethod? name).map route)

/-- Whether the method opens a block of declarations. -/
def isGrouping : Method → Bool
  | helpers => true
  | controllers => true
  | hook _ => false
  | route _ => false

end Method

namespace Node

/-- The known method that a call calls, if any. -/
def method? (call : Node) : Option Method := do
  let method ← call.child? "method"
  Method.ofName? method.source

/-- The receiver of a call that is written with a dot, plain or safe. -/
def explicitReceiver? (call : Node) : Option Node := do
  let receiver ← call.child? "receiver"
  let rest ← receiver.source.toList.isPrefixOf? call.source.toList
  match Text.trimStart rest with
  | '.' :: _ => some receiver
  | '&' :: '.' :: _ => some receiver
  | _ => none

/-- The arguments of a call, block arguments left out. -/
def positional (call : Node) : List Node :=
  match call.child? "arguments" with
  | some list => list.children.filter fun argument => argument.kind != "block_argument"
  | none => []

/-- The options at the end of arguments. -/
def lastOptions (arguments : List Node) : Conditions :=
  match arguments.getLast? with
  | some last => if last.isOptions then last.options else {}
  | none => {}

/-- The controller that a call names by its first argument, if that is static. -/
def controllerName? (call : Node) : Option String := do
  let first ← call.positional.head?
  return (← first.literal?).content

/-- The static arguments of a handler: its options and dynamic arguments are left out. -/
def handlerArgs (call : Node) : List Literal :=
  (call.positional.filter fun argument => !argument.isOptions).filterMap literal?

/-- The path argument of a route: none without arguments, and a reason when it is dynamic. -/
def routePath? (call : Node) : Option (Except Dynamic Literal) :=
  call.positional.head?.map literal

end Node

end RouteCatalog
