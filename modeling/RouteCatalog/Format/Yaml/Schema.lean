import RouteCatalog.Text.Numeral

/-!
# What a bare scalar means

A bare YAML scalar may mean a null, a truth value, an integer or a floating-point number.
`isAmbiguous` holds of the texts that would be taken for one of these, and of runs of digits with a
leading zero, which some readers take for octal numbers.
-/

namespace RouteCatalog.Yaml

/-- Whether a text means nothing: the empty text and the spellings of null. -/
def isNull (text : String) : Bool :=
  text ∈ ["", "null", "Null", "NULL", "~"]

/-- Whether a text is a truth value. -/
def isTruth (text : String) : Bool :=
  text ∈ ["true", "True", "TRUE", "false", "False", "FALSE"]

/-- A text without one plus or minus sign in front of it. -/
def dropSign : List Char → List Char
  | '+' :: cs => cs
  | '-' :: cs => cs
  | cs => cs

/-- Whether a text is a run of two or more digits that starts with a zero, after at most one
sign. -/
def hasLeadingZero (cs : List Char) : Bool :=
  match dropSign cs with
  | '0' :: c :: rest => (c :: rest).all Char.isDigit
  | _ => false

/-- The radix that a mark such as `0x` announces, and what follows the mark. -/
def radix? : List Char → Option (Nat × List Char)
  | '0' :: 'x' :: digits => some (16, digits)
  | '0' :: 'o' :: digits => some (8, digits)
  | '0' :: 'b' :: digits => some (2, digits)
  | _ => none

/-- Whether digits, with a radix mark or without, denote a number up to a bound. -/
def isNatUpTo (bound : Nat) (cs : List Char) : Bool :=
  let (radix, digits) := (radix? cs).getD (10, cs)
  match Text.readNat? radix digits with
  | some n => n ≤ bound
  | none => false

/-- Whether a text is an integer of at most 128 bits, signed or unsigned. -/
def isInteger (cs : List Char) : Bool :=
  !hasLeadingZero cs &&
    match cs with
    | '+' :: digits => isNatUpTo (Nat.pow 2 128 - 1) digits
    | '-' :: digits => isNatUpTo (Nat.pow 2 127) digits
    | digits => isNatUpTo (Nat.pow 2 128 - 1) digits

/-- A decimal number: its digits as one number, and the power of ten that scales it. -/
structure Decimal where
  digits : Nat
  /-- The power of ten. -/
  scale : Int
  deriving DecidableEq, Repr, Inhabited

/-- The power of ten that the end of a number announces, if it is well formed. -/
def readExponent? : List Char → Option Int
  | [] => some 0
  | c :: cs =>
    if c = 'e' ∨ c = 'E' then
      match cs with
      | '+' :: digits => (Text.readNat? 10 digits).map Int.ofNat
      | '-' :: digits => (Text.readNat? 10 digits).map fun n => -(n : Int)
      | digits => (Text.readNat? 10 digits).map Int.ofNat
    else none

/-- The number that digits, a point among them at most, and an exponent denote. -/
def readDecimal? (cs : List Char) : Option Decimal := do
  let whole := cs.takeWhile Char.isDigit
  let (fraction, rest) :=
    match cs.dropWhile Char.isDigit with
    | '.' :: rest => (rest.takeWhile Char.isDigit, rest.dropWhile Char.isDigit)
    | rest => ([], rest)
  let digits ← Text.readNat? 10 (whole ++ fraction)
  let exponent ← readExponent? rest
  return ⟨digits, exponent - fraction.length⟩

/-- The least number that rounds to infinity as a 64-bit floating-point number. -/
def overflowBound : Nat :=
  Nat.pow 2 1024 - Nat.pow 2 970

/-- Whether a decimal number is finite as a 64-bit floating-point number. Only numbers of 309 or
310 digits before the point are near enough to the bound to be worked out. -/
def Decimal.isFinite (d : Decimal) : Bool :=
  let size := (Nat.toDigits 10 d.digits).length + d.scale
  d.digits == 0 || size ≤ 308 ||
    (size ≤ 310 &&
      if d.scale < 0 then d.digits < overflowBound * Nat.pow 10 d.scale.natAbs
      else d.digits * Nat.pow 10 d.scale.natAbs < overflowBound)

/-- Whether a text is a finite floating-point number. -/
def isFiniteFloat (cs : List Char) : Bool :=
  match readDecimal? (dropSign cs) with
  | some d => d.isFinite
  | none => false

/-- Whether a text is one of the spellings of infinity and of the undefined number. -/
def isSpecialFloat (text : String) : Bool :=
  text ∈ [".inf", ".Inf", ".INF", "+.inf", "+.Inf", "+.INF", "-.inf", "-.Inf", "-.INF",
    ".nan", ".NaN", ".NAN"]

/-- Whether a bare text would not be taken for the text that it is. -/
def isAmbiguous (text : String) : Bool :=
  isNull text || isTruth text || hasLeadingZero text.toList || isInteger text.toList ||
    isSpecialFloat text || isFiniteFloat text.toList

end RouteCatalog.Yaml
