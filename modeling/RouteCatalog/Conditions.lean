import RouteCatalog.Literal.Basic

/-!
# Conditions

The options of a declaration: pairs of literals with distinct keys, in the order in which the keys
were first written. Writing a key again replaces its value and keeps its place.
-/

namespace RouteCatalog

/-- Options in the order in which their keys were first written. -/
structure Conditions where
  /-- The options, as keys and values. -/
  entries : List (Literal × Literal) := []
  deriving DecidableEq, Repr, Inhabited

namespace Conditions

/-- Writes a key in a row of options. -/
def insertEntry (key value : Literal) : List (Literal × Literal) → List (Literal × Literal)
  | [] => [(key, value)]
  | (k, v) :: rest => if k = key then (k, value) :: rest else (k, v) :: insertEntry key value rest

/-- Writes a key: in its place if it is there, at the end otherwise. -/
def insert (conditions : Conditions) (key value : Literal) : Conditions :=
  ⟨insertEntry key value conditions.entries⟩

/-- The value of a key. -/
def get? (conditions : Conditions) (key : Literal) : Option Literal :=
  conditions.entries.lookup key

/-- The keys, in the order in which they were first written. -/
def keys (conditions : Conditions) : List Literal :=
  conditions.entries.map Prod.fst

/-- The number of keys. -/
def size (conditions : Conditions) : Nat :=
  conditions.entries.length

/-- Whether no option was written. -/
def isEmpty (conditions : Conditions) : Bool :=
  conditions.entries.isEmpty

/-- The conditions that writing the given options in order leaves. -/
def ofList (options : List (Literal × Literal)) : Conditions :=
  options.foldl (fun conditions option => conditions.insert option.1 option.2) {}

end Conditions

end RouteCatalog
