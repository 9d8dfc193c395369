import RouteCatalog.Text.Escape
import RouteCatalog.Text.Numeral
import RouteCatalog.Text.Word

/-!
# Literals

A `Literal` is an argument or option value that is known without running the program, or the
source text of one that is not. A literal has two written forms: `inspect`, which shows what kind
of value it is, and `content`, its bare text.
-/

namespace RouteCatalog

/-- A value of an argument or option. -/
inductive Literal where
  /-- A symbol, by its name. -/
  | symbol (name : String)
  /-- A string without interpolation, by its content. -/
  | text (content : String)
  | integer (value : Int64)
  /-- A regular expression, by its source with the delimiters. -/
  | pattern (source : String)
  /-- A value that is only known when the program runs, by its source. -/
  | raw (source : String)
  deriving DecidableEq, Repr, Inhabited

namespace Literal

/-- The operator names that are written as symbols without quotes. -/
def operators : List String :=
  ["+", "-", "*", "/", "%", "**", "==", "===", "!=", "=~", "!~", "!", "<", ">", "<=", ">=", "<=>",
    "<<", ">>", "&", "|", "^", "~", "+@", "-@", "[]", "[]=", "`"]

/-- What follows the sigil of a variable name: `@@`, `@` or `$`. -/
def afterSigil? : List Char → Option (List Char)
  | '@' :: '@' :: rest => some rest
  | '@' :: rest => some rest
  | '$' :: rest => some rest
  | _ => none

/-- A method name without the mark `?`, `!` or `=` that may end it. -/
def withoutMark (name : List Char) : List Char :=
  match name.getLast? with
  | some c => if c ∈ ['?', '!', '='] then name.dropLast else name
  | none => name

/-- Whether a symbol needs no quotes: an operator, a variable, or a word with at most one mark. -/
def isPlain (name : String) : Bool :=
  name ∈ operators ||
    match afterSigil? name.toList with
    | some rest => Text.isWord rest
    | none => Text.isWord (withoutMark name.toList)

/-- The form that shows the kind of the value. -/
def inspect : Literal → String
  | symbol name =>
    if isPlain name then ":" ++ name else ":" ++ String.ofList (Text.quote name.toList)
  | text content => String.ofList (Text.quote content.toList)
  | integer value => Text.intText value.toInt
  | pattern source => "(Regexp)" ++ source
  | raw source => source

/-- The bare content of the value. -/
def content : Literal → String
  | symbol name => name
  | text content => content
  | integer value => Text.intText value.toInt
  | pattern source => source
  | raw source => source

/-- The inspected forms of several values, with a comma between neighbours. -/
def inspectAll (values : List Literal) : String :=
  ", ".intercalate (values.map inspect)

end Literal

end RouteCatalog
