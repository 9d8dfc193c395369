import RouteCatalog.Syntax.Node
import RouteCatalog.Text.Utf8

/-!
# Concrete trees

A `Concrete` is the grammar's full tree of a file: every token has a node, comments included, and a
node's text is a range of bytes. `lower` keeps its named skeleton as a `Node`: unnamed tokens and
comments go, and each run of pairs directly under an argument list becomes one bare hash.
-/

namespace RouteCatalog

/-- A node of the grammar's full tree. -/
structure Concrete where
  /-- The grammar's word for the construct. -/
  kind : String
  /-- Whether the node is a construct, and not a bare token. -/
  named : Bool
  /-- The field of the parent that the node fills, if any. -/
  field : Option String
  /-- The offset of its first byte. -/
  start : Nat
  /-- The offset after its last byte. -/
  stop : Nat
  /-- The line of its first byte, counted from zero. -/
  row : Nat
  /-- All its parts, in source order. -/
  children : List Concrete
  deriving Repr, Inhabited

namespace Node

/-- A bare hash that holds one pair. -/
def ofPair (pair : Node) : Node :=
  { kind := bareHash, field := none, source := pair.source, line := pair.line, children := [pair] }

/-- A bare hash with one more pair at its end. -/
def addPair (hash pair : Node) : Node :=
  { hash with source := hash.source ++ ", " ++ pair.source, children := hash.children ++ [pair] }

/-- Adds an argument to the arguments before it, which stand in reverse: a pair joins the bare hash
in front of it or starts a new one. -/
def addArgument (before : List Node) (argument : Node) : List Node :=
  if argument.kind == "pair" then
    match before with
    | hash :: rest =>
      if hash.kind == bareHash then hash.addPair argument :: rest
      else argument.ofPair :: hash :: rest
    | [] => [argument.ofPair]
  else
    argument :: before

/-- The arguments with every run of pairs made one bare hash. -/
def groupPairs (arguments : List Node) : List Node :=
  (arguments.foldl addArgument []).reverse

end Node

namespace Concrete

/-- Whether a node belongs to the named skeleton. -/
def isSkeleton (tree : Concrete) : Bool :=
  tree.named && tree.kind != "comment"

/-- The text of a range of bytes, empty when the range splits a character. -/
def slice (bytes : ByteArray) (start stop : Nat) : String :=
  (String.fromUTF8? (bytes.extract start stop)).getD ""

mutual

/-- The named skeleton of a tree over the bytes of its file. -/
def lower (bytes : ByteArray) : Concrete → Node
  | ⟨kind, _, field, start, stop, row, children⟩ =>
    let parts := lowerList bytes children
    { kind, field, source := slice bytes start stop, line := row + 1,
      children := if kind == "argument_list" then Node.groupPairs parts else parts }

/-- The named skeletons of a row of trees. -/
def lowerList (bytes : ByteArray) : List Concrete → List Node
  | [] => []
  | tree :: rest =>
    if tree.isSkeleton then lower bytes tree :: lowerList bytes rest else lowerList bytes rest

end

end Concrete

end RouteCatalog
