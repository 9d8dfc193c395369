import RouteCatalog.Literal.Basic
import RouteCatalog.Syntax.Node

/-!
# Reading literals from syntax

`Node.literal` reads a node as a literal, or fails with the node's source when its value depends on
running the program. Integers follow the radix letters `0x`, `0b`, `0o` and `0d`, a leading zero
alone meaning octal; underscores are ignored.
-/

namespace RouteCatalog

/-- The reason a node is no literal: its value is only known when the program runs. -/
structure Dynamic where
  /-- The source of the node. -/
  source : String
  deriving DecidableEq, Repr

/-- The wording of the reason. -/
def Dynamic.message (dynamic : Dynamic) : String :=
  "not a static literal: " ++ dynamic.source

namespace Literal

/-- Splits lowercase digits into their radix and the digits after the radix mark. -/
def splitRadix : List Char → Nat × List Char
  | '0' :: 'x' :: digits => (16, digits)
  | '0' :: 'b' :: digits => (2, digits)
  | '0' :: 'o' :: digits => (8, digits)
  | '0' :: 'd' :: digits => (10, digits)
  | '0' :: c :: digits => (8, c :: digits)
  | digits => (10, digits)

/-- The value of an integer literal without a minus sign in front. -/
def readUnsigned? (cs : List Char) : Option Int64 :=
  let (radix, digits) := splitRadix (cs.map Char.toLower)
  Text.readInt64? radix digits

/-- The value of an integer literal. -/
def readInteger? (source : List Char) : Option Int64 :=
  match source.filter (· != '_') with
  | '-' :: digits => (readUnsigned? digits).map fun value => -value
  | digits => readUnsigned? digits

end Literal

namespace Node

/-- The content of a string or quoted symbol, unless it interpolates. -/
def stringBody? (node : Node) : Option String :=
  if node.children.all fun c => c.kind ∈ ["string_content", "escape_sequence"] then
    some (String.join (node.children.map Node.source))
  else
    none

/-- The literal that a node spells, if its kind and content are static. -/
def literal? (node : Node) : Option Literal :=
  match node.kind with
  | "hash_key_symbol" =>
    some (.symbol (String.ofList (node.source.toList.reverse.dropWhile (· == ':')).reverse))
  | "simple_symbol" => some (.symbol (String.ofList (node.source.toList.dropWhile (· == ':'))))
  | "delimited_symbol" => node.stringBody?.map .symbol
  | "string" => node.stringBody?.map .text
  | "regex" => some (.pattern node.source)
  | "integer" => (Literal.readInteger? node.source.toList).map .integer
  | _ => none

/-- The literal that a node spells, or why it spells none. -/
def literal (node : Node) : Except Dynamic Literal :=
  match node.literal? with
  | some value => .ok value
  | none => .error ⟨node.source⟩

theorem literal_eq_ok_iff {node : Node} {value : Literal} :
    node.literal = .ok value ↔ node.literal? = some value := by
  unfold literal
  cases node.literal? <;> simp

theorem literal_eq_error_iff {node : Node} {reason : Dynamic} :
    node.literal = .error reason ↔ node.literal? = none ∧ reason = ⟨node.source⟩ := by
  unfold literal
  cases node.literal? <;> simp [eq_comm]

end Node

end RouteCatalog
