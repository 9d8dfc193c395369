import RouteCatalog.Conditions
import RouteCatalog.Literal.Reader

/-!
# Options in an argument list

An options hash, in braces or bare, is read pair by pair. A pair whose key is dynamic is dropped; a
dynamic value is kept by its source, and a label without a value stands for the local of its name.
-/

namespace RouteCatalog.Node

/-- Whether a node is of a kind that holds options. -/
def holdsOptions (node : Node) : Bool :=
  node.kind ∈ ["hash", bareHash]

/-- Whether a node is an options hash that starts with a pair. -/
def isOptions (node : Node) : Bool :=
  node.holdsOptions &&
    match node.children with
    | first :: _ => first.kind == "pair"
    | [] => false

/-- Whether a string key is closed by the colon of a label, and not by an arrow. -/
def isQuotedLabel (pair key : Node) : Bool :=
  key.kind == "string" &&
    match key.source.toList.isPrefixOf? pair.source.toList with
    | some (':' :: _) => true
    | _ => false

/-- The key of a pair, if it has one and the key is static. -/
def optionKey? (pair : Node) : Option Literal := do
  let key ← pair.child? "key"
  match ← key.literal? with
  | .text name => if isQuotedLabel pair key then some (.symbol name) else some (.text name)
  | value => some value

/-- The value of a pair under a key. -/
def optionValue (pair : Node) (key : Literal) : Literal :=
  match pair.child? "value" with
  | some value => value.literal?.getD (.raw value.source)
  | none => .raw key.content

/-- The key and value of a pair, if the key is static. -/
def option? (pair : Node) : Option (Literal × Literal) :=
  pair.optionKey?.map fun key => (key, pair.optionValue key)

/-- The options that a node spells. -/
def options (node : Node) : Conditions :=
  if node.holdsOptions then
    .ofList ((node.children.filter (·.kind == "pair")).filterMap option?)
  else
    {}

end RouteCatalog.Node
