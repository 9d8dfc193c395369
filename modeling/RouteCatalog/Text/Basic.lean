/-!
# Blanks, lines and search

The characters with the Unicode property `White_Space`, and what trimming and compacting mean for
a text; the lines of a text; and whether one text stands inside another.
-/

namespace RouteCatalog.Text

/-! ### Blanks -/

/-- The Unicode ranges `White_Space`, each as its first and last code point, in ascending order. -/
def blankRanges : List (Nat × Nat) :=
  [(0x09, 0x0D), (0x20, 0x20), (0x85, 0x85), (0xA0, 0xA0), (0x1680, 0x1680), (0x2000, 0x200A),
    (0x2028, 0x2029), (0x202F, 0x202F), (0x205F, 0x205F), (0x3000, 0x3000)]

/-- Whether a character is white space in the sense of Unicode. -/
def isBlank (c : Char) : Bool :=
  blankRanges.any fun (first, last) => first ≤ c.toNat && c.toNat ≤ last

/-- A text without its leading blanks. -/
def trimStart (cs : List Char) : List Char :=
  cs.dropWhile isBlank

/-- A text without its trailing blanks. -/
def trimEnd (cs : List Char) : List Char :=
  (cs.reverse.dropWhile isBlank).reverse

/-- A text without blanks at either end. -/
def trim (cs : List Char) : List Char :=
  trimEnd (trimStart cs)

/-- A text with every blank taken out. -/
def compact (cs : List Char) : List Char :=
  cs.filter fun c => !isBlank c

/-! ### Lines -/

/-- The lines of a text, in order. Each ends at a line feed, or at a carriage return and line feed,
which are not part of it. A text that ends with a line feed has no further, empty line. -/
def lines : List Char → List (List Char)
  | [] => []
  | '\n' :: cs => [] :: lines cs
  | '\r' :: '\n' :: cs => [] :: lines cs
  | c :: cs =>
    match lines cs with
    | [] => [[c]]
    | line :: rest => (c :: line) :: rest

/-! ### Search -/

/-- Whether the first text stands somewhere inside the second. -/
def occursIn (sought : List Char) : List Char → Bool
  | [] => sought.isEmpty
  | c :: cs => sought.isPrefixOf (c :: cs) || occursIn sought cs

theorem occursIn_iff {sought cs : List Char} : occursIn sought cs = true ↔ sought <:+: cs := by
  induction cs with
  | nil => simp [occursIn]
  | cons c cs ih => simp [occursIn, ih, List.infix_cons_iff]

end RouteCatalog.Text
