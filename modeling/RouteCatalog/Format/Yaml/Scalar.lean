import RouteCatalog.Format.Yaml.Schema
import RouteCatalog.Text.Basic
import RouteCatalog.Text.Escape

/-!
# Scalars

How a text is written in YAML: bare where it can be, between single quotes where it would be taken
for something else, between double quotes where a character has to be escaped, and as a literal
block where it has more than one line.
-/

namespace RouteCatalog.Yaml

/-- The ways to write a text. -/
inductive Style where
  | plain
  | singleQuoted
  | doubleQuoted
  | literal
  deriving DecidableEq, Repr, Inhabited

/-- Whether a character may stand unescaped in a document. -/
def isPrintable (c : Char) : Bool :=
  let n := c.toNat
  n == 0x0A || (0x20 ≤ n && n ≤ 0x7E) || (0xA0 ≤ n && n != 0xFEFF && n != 0xFFFE && n != 0xFFFF)

/-- Whether a space stands directly before a line break. -/
def hasSpaceBeforeBreak : List Char → Bool
  | ' ' :: '\n' :: _ => true
  | _ :: cs => hasSpaceBeforeBreak cs
  | [] => false

/-- The characters that mean something at the start of a scalar. -/
def indicators : List Char :=
  "#,[]\x7b\x7d&*!|>'\"%@`".toList

/-- Whether a text ends here, or goes on with a space. -/
def isCut : List Char → Bool
  | [] => true
  | c :: _ => c == ' '

/-- Whether a colon stands before a cut, or a number sign after a space. -/
def hasInnerIndicator : List Char → Bool
  | [] => false
  | ':' :: cs => isCut cs || hasInnerIndicator cs
  | ' ' :: '#' :: _ => true
  | _ :: cs => hasInnerIndicator cs

/-- Whether the start of a text means something. -/
def hasLeadingIndicator (cs : List Char) : Bool :=
  match cs with
  | '-' :: '-' :: '-' :: _ => true
  | '.' :: '.' :: '.' :: _ => true
  | c :: rest => c ∈ indicators || (c ∈ ['-', '?', ':'] && isCut rest)
  | [] => false

/-- Whether a printable text of one line can stand bare. -/
def isPlain (cs : List Char) : Bool :=
  cs.head? != some ' ' && cs.getLast? != some ' ' && !hasLeadingIndicator cs &&
    !hasInnerIndicator cs

/-- The way in which a text is written. -/
def styleOf (text : String) : Style :=
  let cs := text.toList
  if '\n' ∈ cs then
    if hasSpaceBeforeBreak cs || cs.getLast? == some ' ' || !cs.all isPrintable then .doubleQuoted
    else .literal
  else if isAmbiguous text then .singleQuoted
  else if !cs.all isPrintable then .doubleQuoted
  else if isPlain cs then .plain
  else .singleQuoted

/-- The written form of one character between single quotes. -/
def escapeSingle (c : Char) : List Char :=
  if c = '\'' then ['\'', '\''] else [c]

/-- The written form of one character between double quotes. -/
def escapeDouble (c : Char) : List Char :=
  match c with
  | '\x00' => ['\\', '0']
  | '\x07' => ['\\', 'a']
  | '\x08' => ['\\', 'b']
  | '\t' => ['\\', 't']
  | '\n' => ['\\', 'n']
  | '\x0b' => ['\\', 'v']
  | '\x0c' => ['\\', 'f']
  | '\r' => ['\\', 'r']
  | '\x1b' => ['\\', 'e']
  | '"' => ['\\', '"']
  | '\\' => ['\\', '\\']
  | '\u0085' => ['\\', 'N']
  | c =>
    if isPrintable c then [c]
    else if c.toNat ≤ 0xFF then '\\' :: 'x' :: Text.hexUpper 2 c.toNat
    else '\\' :: 'u' :: Text.hexUpper 4 c.toNat

/-- The head of a literal block: the indentation if the text starts with blank space, and what
becomes of the line breaks at its end. -/
def literalHead (cs : List Char) : List Char :=
  let indentation := if cs.head? == some ' ' || cs.head? == some '\n' then ['2'] else []
  let ending :=
    match cs.reverse with
    | '\n' :: '\n' :: _ => ['+']
    | ['\n'] => ['+']
    | '\n' :: _ => []
    | _ => ['-']
  '|' :: indentation ++ ending

/-- The lines of a written text: the first continues the line that it stands in, the others are
indented below it. -/
def scalarLines (text : String) : List (List Char) :=
  let cs := text.toList
  match styleOf text with
  | .plain => [cs]
  | .singleQuoted => ['\'' :: cs.flatMap escapeSingle ++ ['\'']]
  | .doubleQuoted => ['"' :: cs.flatMap escapeDouble ++ ['"']]
  | .literal => literalHead cs :: Text.lines cs

end RouteCatalog.Yaml
