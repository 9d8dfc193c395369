/-!
# Numerals

Reading unsigned digits in a radix, reading a signed 64-bit integer with an optional sign in front,
and writing numbers in decimal. A numeral outside the 64-bit range is no numeral.
-/

namespace RouteCatalog.Text

/-- The value of an ASCII digit or letter, letters of either case counting from ten. -/
def digitValue? (c : Char) : Option Nat :=
  if c.isDigit then some (c.toNat - '0'.toNat)
  else if c.isLower then some (c.toNat - 'a'.toNat + 10)
  else if c.isUpper then some (c.toNat - 'A'.toNat + 10)
  else none

/-- The value of a digit below the radix. -/
def digit? (radix : Nat) (c : Char) : Option Nat :=
  (digitValue? c).filter (· < radix)

/-- Extends a value by further digits, most significant first. -/
def extendDigits? (radix : Nat) : Nat → List Char → Option Nat
  | value, [] => some value
  | value, c :: cs => do
    let d ← digit? radix c
    extendDigits? radix (value * radix + d) cs

/-- The value of a non-empty run of digits. -/
def readNat? (radix : Nat) : List Char → Option Nat
  | [] => none
  | cs => extendDigits? radix 0 cs

/-- The value of a numeral with at most one sign in front, when it fits into 64 bits. -/
def readInt64? (radix : Nat) (cs : List Char) : Option Int64 :=
  match cs with
  | '-' :: ds => do
    let n ← readNat? radix ds
    if n ≤ Nat.pow 2 63 then some (Int64.ofInt (-n)) else none
  | '+' :: ds => unsigned ds
  | ds => unsigned ds
where
  /-- The value of digits without a sign. -/
  unsigned (ds : List Char) : Option Int64 := do
    let n ← readNat? radix ds
    if n < Nat.pow 2 63 then some (Int64.ofNat n) else none

/-- A natural number in decimal. -/
def natText (n : Nat) : String :=
  String.ofList (Nat.toDigits 10 n)

/-- An integer in decimal. -/
def intText (n : Int) : String :=
  match n with
  | .ofNat n => natText n
  | .negSucc n => "-" ++ natText (n + 1)

end RouteCatalog.Text
