/-!
# Verbs

The words that declare something: HTTP verbs declare routes, lifecycle hooks declare handlers. A
verb has the name that the source calls it by, the name that the catalog shows, and a priority by
which the catalog orders the declarations of one path.
-/

namespace RouteCatalog

/-- The HTTP verbs that declare routes. -/
inductive RouteVerb where
  | get
  | post
  | put
  | delete
  | head
  deriving DecidableEq, Repr, Inhabited

/-- The lifecycle hooks that declare handlers. -/
inductive HookVerb where
  | before
  | after
  | error
  deriving DecidableEq, Repr, Inhabited

/-- Whether a record is documented for the users of an application or for its authors. -/
inductive Visibility where
  | isPublic
  | isPrivate
  deriving DecidableEq, Repr, Inhabited

namespace RouteVerb

/-- The verb that a method of the source declares, if any. -/
def ofMethod? : String → Option RouteVerb
  | "get" => some get
  | "post" => some post
  | "put" => some put
  | "delete" => some delete
  | "head" => some head
  | _ => none

/-- The verb as the catalog shows it. -/
def name : RouteVerb → String
  | get => "GET"
  | post => "POST"
  | put => "PUT"
  | delete => "DELETE"
  | head => "HEAD"

/-- The rank of the verb; higher ranks stand first. -/
def priority : RouteVerb → Nat
  | get => 5
  | post => 4
  | head => 3
  | put => 2
  | delete => 1

/-- The heading of all routes. -/
def group : String :=
  "Padrino Routings"

/-- Routes are for the users of an application. -/
def visibility : Visibility :=
  .isPublic

end RouteVerb

namespace HookVerb

/-- The hook that a method of the source declares, if any. -/
def ofMethod? : String → Option HookVerb
  | "before" => some before
  | "after" => some after
  | "error" => some error
  | _ => none

/-- The hook as the catalog shows it. -/
def name : HookVerb → String
  | before => "before"
  | after => "after"
  | error => "error"

/-- The rank of the hook; higher ranks stand first. -/
def priority : HookVerb → Nat
  | before => 3
  | after => 2
  | error => 1

/-- The heading of all handlers. -/
def group : String :=
  "Padrino Handlers"

/-- Handlers are for the authors of an application. -/
def visibility : Visibility :=
  .isPrivate

end HookVerb

end RouteCatalog
