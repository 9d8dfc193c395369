/-!
# Escapes

Fixed-width hexadecimal numerals, in the two letter cases that escapes are written in, and text
between double quotes: the quote and the backslash are escaped by a backslash, line feed, tab and
carriage return have letters of their own, every other control character is a two-digit uppercase
hexadecimal escape, and all else stands for itself.
-/

namespace RouteCatalog.Text

/-- A number in lowercase hexadecimal, with leading zeros up to a width. -/
def hexLower (width n : Nat) : List Char :=
  (Nat.toDigits 16 n).leftpad width '0'

/-- A number in uppercase hexadecimal, with leading zeros up to a width. -/
def hexUpper (width n : Nat) : List Char :=
  (hexLower width n).map Char.toUpper

/-- Whether a character is a control character (Unicode category `Cc`). -/
def isControl (c : Char) : Bool :=
  c.toNat < 0x20 || (0x7F ≤ c.toNat && c.toNat < 0xA0)

/-- The written form of one character between double quotes. -/
def escape (c : Char) : List Char :=
  match c with
  | '"' => ['\\', '"']
  | '\\' => ['\\', '\\']
  | '\n' => ['\\', 'n']
  | '\t' => ['\\', 't']
  | '\r' => ['\\', 'r']
  | c => if isControl c then '\\' :: 'x' :: hexUpper 2 c.toNat else [c]

/-- A text between double quotes. -/
def quote (cs : List Char) : List Char :=
  '"' :: cs.flatMap escape ++ ['"']

end RouteCatalog.Text
