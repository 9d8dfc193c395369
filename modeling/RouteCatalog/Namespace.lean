import RouteCatalog.Record

/-!
# Namespaces

A namespace is a class or module of the source, named by a path of words with `::` between them.
`Namespace.resolve?` reads a name as written under a parent: blanks are ignored, a leading `::`
starts over at the root, and every segment has to be a word.
-/

namespace RouteCatalog

/-- What introduced a namespace. -/
inductive NamespaceKind where
  /-- Nothing: the namespace around all others. -/
  | root
  /-- A class, or a call that opens one. -/
  | classBody
  | moduleBody
  deriving DecidableEq, Repr, Inhabited

/-- A class or module that can own records. -/
structure Namespace where
  /-- The segments from the root, with `::` between them; empty for the root. -/
  path : String
  /-- What introduced the namespace. -/
  kind : NamespaceKind
  /-- Where it was first seen; nowhere for the root. -/
  location : Option Location
  deriving DecidableEq, Repr, Inhabited

namespace Namespace

/-- The root namespace. -/
def root : Namespace :=
  { path := "", kind := .root, location := none }

/-- The parts of a name between its `::` separators, which are found from the left. -/
def segments : List Char → List (List Char)
  | [] => [[]]
  | ':' :: ':' :: cs => [] :: segments cs
  | c :: cs =>
    match segments cs with
    | [] => [[c]]
    | segment :: rest => (c :: segment) :: rest

/-- Whether a name is one or more words with `::` between them. -/
def isRelativeName (cs : List Char) : Bool :=
  (segments cs).all Text.isWord

/-- The path of a relative name under a parent. -/
def under (parent : String) (name : List Char) : String :=
  if parent.isEmpty then String.ofList name else parent ++ "::" ++ String.ofList name

/-- The path that a name written under a parent means, if it is well formed. -/
def resolve? (parent name : String) : Option String :=
  match Text.compact name.toList with
  | ':' :: ':' :: relative =>
    if isRelativeName relative then some (String.ofList relative) else none
  | relative => if isRelativeName relative then some (under parent relative) else none

end Namespace

end RouteCatalog
