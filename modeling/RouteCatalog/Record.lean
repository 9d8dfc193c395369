import RouteCatalog.Conditions
import RouteCatalog.Path
import RouteCatalog.Tag
import RouteCatalog.Text.Basic
import RouteCatalog.Verb

/-!
# Records

A `Declaration` is what the source says about a route or handler besides its verb. A `Route` is a
declaration under an HTTP verb; a `Handler` is one under a lifecycle hook, with a serial number
that keeps it apart from handlers declared in the same words. What the two share is stated once,
for every type of `Record`.
-/

namespace RouteCatalog

/-- A line of a file. -/
structure Location where
  file : Path
  /-- The line, counted from one. -/
  line : Nat
  deriving DecidableEq, Repr, Inhabited

/-- The location in the form that messages show. -/
def Location.display (location : Location) : String :=
  location.file.display ++ ":" ++ Text.natText location.line

/-- What the source declares, besides the verb. -/
structure Declaration where
  /-- The path of the namespace that the declaration belongs to. -/
  owner : String
  /-- The controller around the declaration, if any. -/
  controller : Option String
  /-- The static arguments. -/
  args : List Literal
  conditions : Conditions
  /-- The source of the whole declaration. -/
  source : String
  location : Location
  /-- The comment block above the declaration. -/
  docstring : String
  deriving DecidableEq, Repr, Inhabited

namespace Declaration

/-- The controller as a sort key: no controller counts as the empty one. -/
def controllerKey (declaration : Declaration) : String :=
  declaration.controller.getD ""

/-- The arguments between brackets. -/
def argsText (declaration : Declaration) : String :=
  "[" ++ Literal.inspectAll declaration.args ++ "]"

/-- Whether the docstring says anything. -/
def isDocumented (declaration : Declaration) : Bool :=
  !(Text.trim declaration.docstring.toList).isEmpty

/-- One tag for every option. -/
def tags (declaration : Declaration) : List Tag :=
  declaration.conditions.entries.map fun (key, value) =>
    { kind := Tag.condition, name := some key.inspect, text := "+" ++ value.inspect ++ "+" }

/-- A part of an identifier: a text in word characters only. -/
def identifierPart (text : String) : String :=
  String.ofList (Text.toWordChars text.toList)

/-- The verb, controller and arguments of a declaration as one word. -/
def identifier (declaration : Declaration) (verb : String) : String :=
  "_".intercalate
    (verb :: (declaration.controller.toList ++ declaration.args.map Literal.content).map
      identifierPart)

/-- The verb and the arguments as a reader would write them. -/
def displayName (declaration : Declaration) (verb : String) : String :=
  match declaration.args with
  | [] => verb
  | args => verb ++ " " ++ Literal.inspectAll args

end Declaration

/-- A route of an application. -/
structure Route extends Declaration where
  verb : RouteVerb
  deriving DecidableEq, Repr, Inhabited

/-- A handler of an application. -/
structure Handler extends Declaration where
  verb : HookVerb
  /-- The number that keeps the handler apart. -/
  serial : Nat
  deriving DecidableEq, Repr, Inhabited

/-- What routes and handlers have in common. -/
class Record (R : Type) where
  declaration : R → Declaration
  /-- The verb as the catalog shows it. -/
  verbName : R → String
  /-- The rank of the verb; higher ranks stand first. -/
  priority : R → Nat
  /-- The name of the record inside its namespace. -/
  identifier : R → String
  /-- The heading of the records of this type. -/
  group : String
  /-- Whom the records of this type are documented for. -/
  visibility : Visibility

instance : Record Route where
  declaration := Route.toDeclaration
  verbName route := route.verb.name
  priority route := route.verb.priority
  identifier route := route.toDeclaration.identifier route.verb.name
  group := RouteVerb.group
  visibility := RouteVerb.visibility

instance : Record Handler where
  declaration := Handler.toDeclaration
  verbName handler := handler.verb.name
  priority handler := handler.verb.priority
  identifier handler :=
    handler.toDeclaration.identifier handler.verb.name ++ "#" ++ Text.natText handler.serial
  group := HookVerb.group
  visibility := HookVerb.visibility

/-- Which name of a record is asked for. -/
inductive NameStyle where
  /-- The name inside the namespace. -/
  | identifier
  /-- The name as a reader would write it. -/
  | signature
  deriving DecidableEq, Repr, Inhabited

namespace Record

variable {R : Type} [Record R]

/-- The verb and arguments of a record as a reader would write them. -/
def displayName (record : R) : String :=
  (declaration record).displayName (verbName record)

/-- A name of a record, with the instance mark in front if asked for. -/
def name (record : R) (style : NameStyle) (marked : Bool) : String :=
  let name :=
    match style with
    | .identifier => identifier record
    | .signature => displayName record
  if marked then "#" ++ name else name

/-- The name of a record across namespaces. -/
def path (record : R) : String :=
  (declaration record).owner ++ "#" ++ identifier record

end Record

end RouteCatalog
