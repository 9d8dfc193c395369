import RouteCatalog.Format.Value
import RouteCatalog.Text.Escape

/-!
# JSON

Values as JSON with two spaces of indentation for each level. Texts escape the quote, the backslash
and the characters below U+0020, and nothing else.
-/

namespace RouteCatalog.Json

/-- The written form of one character of a text. -/
def escape (c : Char) : List Char :=
  match c with
  | '"' => ['\\', '"']
  | '\\' => ['\\', '\\']
  | '\x08' => ['\\', 'b']
  | '\x0c' => ['\\', 'f']
  | '\n' => ['\\', 'n']
  | '\r' => ['\\', 'r']
  | '\t' => ['\\', 't']
  | c => if c.toNat < 0x20 then '\\' :: 'u' :: Text.hexLower 4 c.toNat else [c]

/-- A text between quotes. -/
def quote (text : String) : List Char :=
  '"' :: text.toList.flatMap escape ++ ['"']

/-- A line break and the indentation of a level. -/
def newline (level : Nat) : List Char :=
  '\n' :: List.replicate (2 * level) ' '

mutual

/-- A value whose first character stands in a line of the given level. -/
def write (level : Nat) : Value → List Char
  | .text content => quote content
  | .number n => (Text.natText n).toList
  | .sequence [] => ['[', ']']
  | .sequence (item :: rest) =>
    '[' :: newline (level + 1) ++ write (level + 1) item ++ writeItems (level + 1) rest ++
      newline level ++ [']']
  | .mapping [] => ['\x7b', '\x7d']
  | .mapping ((name, value) :: rest) =>
    '\x7b' :: newline (level + 1) ++ quote name ++ [':', ' '] ++ write (level + 1) value ++
      writeFields (level + 1) rest ++ newline level ++ ['\x7d']

/-- The items after the first, each with the comma in front of it. -/
def writeItems (level : Nat) : List Value → List Char
  | [] => []
  | item :: rest => ',' :: newline level ++ write level item ++ writeItems level rest

/-- The fields after the first, each with the comma in front of it. -/
def writeFields (level : Nat) : List (String × Value) → List Char
  | [] => []
  | (name, value) :: rest =>
    ',' :: newline level ++ quote name ++ [':', ' '] ++ write level value ++ writeFields level rest

end

/-- A value as a JSON text. -/
def render (value : Value) : String :=
  String.ofList (write 0 value)

end RouteCatalog.Json
