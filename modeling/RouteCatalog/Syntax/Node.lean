/-!
# Syntax trees

A `Node` is a named construct of a source file: its kind in the grammar, the field it fills in its
parent, the text it covers, the line it starts on and its children in source order. Kinds and
fields are the grammar's own words, so their type is open.
-/

namespace RouteCatalog

/-- A construct of a source file. -/
structure Node where
  /-- The grammar's word for the construct. -/
  kind : String
  /-- The field of the parent that the construct fills, if any. -/
  field : Option String
  /-- The text that the construct covers. -/
  source : String
  /-- The line of its first character, counted from one. -/
  line : Nat
  /-- Its named parts, in source order. -/
  children : List Node
  deriving Repr, Inhabited

namespace Node

/-- The first child in a field. -/
def child? (node : Node) (field : String) : Option Node :=
  node.children.find? fun c => c.field == some field

mutual

/-- The first node in pre-order, the node itself included, whose kind is among those given. -/
def firstOfKind? (kinds : List String) : Node → Option Node
  | ⟨kind, field, source, line, children⟩ =>
    if kind ∈ kinds then some ⟨kind, field, source, line, children⟩
    else firstOfKindAmong? kinds children

/-- The first node in pre-order of a row of trees whose kind is among those given. -/
def firstOfKindAmong? (kinds : List String) : List Node → Option Node
  | [] => none
  | node :: rest => (firstOfKind? kinds node).or (firstOfKindAmong? kinds rest)

end

/-- The kind of a run of bare `key => value` arguments, which the grammar gives no node. -/
def bareHash : String :=
  "bare_hash"

end Node

end RouteCatalog
