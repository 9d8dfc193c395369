import Mathlib.Data.Nat.Digits.Lemmas
import RouteCatalog.Literal.Reader

/-!
# Integer literals

A numeral is `0`, a decimal that does not start with zero, digits after a radix mark, or octal
digits after a bare zero; single underscores may stand between digits and after the bare zero.
`Spells` says which texts are numerals and what number each of them writes, without reading them.
A reader that drops underscores and letter case first still finds the radix
(`Spells.exists_splitRadix`) and the digits in it (`Row.extendDigits?_clean`), so a numeral is read
as its number if that fits into 63 bits and as nothing otherwise (`Spells.readInteger?_eq`).
-/

namespace RouteCatalog

namespace Numeral

/-- The digits of all radices, each at the place of its value. -/
def lowerDigits : List Char :=
  "0123456789abcdef".toList

/-- The digits of all radices with capital letters, each at the place of its value. -/
def upperDigits : List Char :=
  "0123456789ABCDEF".toList

/-- A character writes a digit of a radix. -/
def IsDigit (radix d : Nat) (c : Char) : Prop :=
  d < radix ∧ (lowerDigits[d]? = some c ∨ upperDigits[d]? = some c)

/-- A text writes a row of digits, most significant first, with single underscores between them. -/
inductive Row (radix : Nat) : List Nat → List Char → Prop
  | last {d : Nat} {c : Char} : IsDigit radix d c → Row radix [d] [c]
  | next {d : Nat} {c : Char} {ds : List Nat} {cs : List Char} :
    IsDigit radix d c → Row radix ds cs → Row radix (d :: ds) (c :: cs)
  | spaced {d : Nat} {c : Char} {ds : List Nat} {cs : List Char} :
    IsDigit radix d c → Row radix ds cs → Row radix (d :: ds) (c :: '_' :: cs)

/-- The number that a row of digits writes, most significant first. -/
def value (radix : Nat) (ds : List Nat) : Nat :=
  Nat.ofDigits radix ds.reverse

/-- The marks that name a radix after a zero. -/
def radixMarks : List (Char × Nat) :=
  [('x', 16), ('X', 16), ('b', 2), ('B', 2), ('o', 8), ('O', 8), ('d', 10), ('D', 10)]

/-- A text is a numeral without a sign and writes a number. -/
inductive Spells : List Char → Nat → Prop
  | zero : Spells ['0'] 0
  | decimal {d : Nat} {ds : List Nat} {cs : List Char} :
    d ≠ 0 → Row 10 (d :: ds) cs → Spells cs (value 10 (d :: ds))
  | marked {mark : Char} {radix : Nat} {ds : List Nat} {cs : List Char} :
    (mark, radix) ∈ radixMarks → Row radix ds cs → Spells ('0' :: mark :: cs) (value radix ds)
  | octal {ds : List Nat} {cs : List Char} : Row 8 ds cs → Spells ('0' :: cs) (value 8 ds)
  | octalSpaced {ds : List Nat} {cs : List Char} :
    Row 8 ds cs → Spells ('0' :: '_' :: cs) (value 8 ds)

/-! ### Digits -/

theorem value_cons (radix d : Nat) (ds : List Nat) :
    value radix (d :: ds) = d * radix ^ ds.length + value radix ds := by
  rw [value, value, List.reverse_cons, Nat.ofDigits_append, Nat.ofDigits_singleton,
    List.length_reverse]
  ring

theorem digitValue?_digits : ∀ d < 16,
    lowerDigits[d]?.bind (fun c => Text.digitValue? c.toLower) = some d ∧
      upperDigits[d]?.bind (fun c => Text.digitValue? c.toLower) = some d := by
  decide

theorem IsDigit.digitValue? {radix d : Nat} {c : Char} (hdigit : IsDigit radix d c) :
    Text.digitValue? c.toLower = some d := by
  obtain ⟨-, hc⟩ := hdigit
  have hd : d < 16 := by
    rcases hc with hc | hc <;> exact (List.getElem?_eq_some_iff.1 hc).1
  obtain ⟨hlower, hupper⟩ := digitValue?_digits d hd
  rcases hc with hc | hc
  · simpa [hc] using hlower
  · simpa [hc] using hupper

/-- A character that writes no digit of any radix stands in no row, underscores apart. -/
theorem Row.not_mem {radix : Nat} {ds : List Nat} {cs : List Char} (hrow : Row radix ds cs)
    {mark : Char} (hmark : Text.digitValue? mark.toLower = none) (hne : mark ≠ '_') :
    mark ∉ cs := by
  have hdigit : ∀ {d : Nat} {c : Char}, IsDigit radix d c → mark ≠ c := by
    rintro d c hc rfl
    rw [hc.digitValue?] at hmark
    cases hmark
  induction hrow with
  | last hc => simpa using hdigit hc
  | next hc _ ih => simpa using ⟨hdigit hc, ih⟩
  | spaced hc _ ih => simpa using ⟨hdigit hc, hne, ih⟩

/-- A text as its digits are read: without underscores, and with small letters. -/
def clean (cs : List Char) : List Char :=
  (cs.filter (· != '_')).map Char.toLower

theorem clean_cons_of_ne {c : Char} (hc : c ≠ '_') (cs : List Char) :
    clean (c :: cs) = c.toLower :: clean cs := by
  simp [clean, hc]

theorem clean_underscore (cs : List Char) : clean ('_' :: cs) = clean cs := by
  simp [clean]

theorem IsDigit.clean_cons {radix d : Nat} {c : Char} (hdigit : IsDigit radix d c)
    (cs : List Char) : clean (c :: cs) = c.toLower :: clean cs := by
  apply clean_cons_of_ne
  rintro rfl
  have hvalue := hdigit.digitValue?
  rw [show Text.digitValue? ('_' : Char).toLower = none by decide] at hvalue
  cases hvalue

theorem IsDigit.digit? {radix d : Nat} {c : Char} (hdigit : IsDigit radix d c) :
    Text.digit? radix c.toLower = some d := by
  rw [Text.digit?, hdigit.digitValue?, Option.filter_some, if_pos (decide_eq_true hdigit.1)]

/-- A row is read from the left, on from the number that was read before it. -/
theorem Row.extendDigits?_clean {radix : Nat} {ds : List Nat} {cs : List Char}
    (hrow : Row radix ds cs) (before : Nat) :
    Text.extendDigits? radix before (clean cs) =
      some (before * radix ^ ds.length + value radix ds) := by
  have hstep : ∀ {d : Nat} {c : Char} {ds : List Nat} {rest : List Char} (before : Nat),
      IsDigit radix d c →
      (∀ before, Text.extendDigits? radix before rest =
        some (before * radix ^ ds.length + value radix ds)) →
      Text.extendDigits? radix before (c.toLower :: rest) =
        some (before * radix ^ (d :: ds).length + value radix (d :: ds)) := by
    intro d c ds rest before hc hrest
    rw [Text.extendDigits?, hc.digit?, Option.bind_eq_bind, Option.bind_some, hrest, value_cons,
      List.length_cons, pow_succ]
    congr 1
    ring
  induction hrow generalizing before with
  | last hc =>
    rw [hc.clean_cons]
    exact hstep before hc fun before => by simp [clean, Text.extendDigits?, value]
  | next hc _ ih =>
    rw [hc.clean_cons]
    exact hstep before hc ih
  | spaced hc _ ih =>
    rw [hc.clean_cons, clean_underscore]
    exact hstep before hc ih

theorem Row.exists_clean {radix : Nat} {ds : List Nat} {cs : List Char} (hrow : Row radix ds cs) :
    ∃ d c rest, ds.head? = some d ∧ d < radix ∧ clean cs = c :: rest ∧
      Text.digitValue? c = some d := by
  cases hrow with
  | last hc => exact ⟨_, _, _, rfl, hc.1, hc.clean_cons _, hc.digitValue?⟩
  | next hc _ => exact ⟨_, _, _, rfl, hc.1, hc.clean_cons _, hc.digitValue?⟩
  | spaced hc _ => exact ⟨_, _, _, rfl, hc.1, hc.clean_cons _, hc.digitValue?⟩

/-! ### Numbers -/

/-- A number as a 64-bit integer, if it is not too large. -/
def fit? (n : Nat) : Option Int64 :=
  if n < 2 ^ 63 then some (Int64.ofNat n) else none

theorem Row.readInt64?_clean {radix : Nat} {ds : List Nat} {cs : List Char}
    (hrow : Row radix ds cs) : Text.readInt64? radix (clean cs) = fit? (value radix ds) := by
  have hread := hrow.extendDigits?_clean 0
  obtain ⟨d, c, rest, -, -, hclean, hc⟩ := hrow.exists_clean
  have hunsigned : Text.readInt64? radix (c :: rest) =
      Text.readInt64?.unsigned radix (c :: rest) := by
    -- A sign is no digit.
    unfold Text.readInt64?
    split
    case h_1 => simp_all [Text.digitValue?]
    case h_2 => simp_all [Text.digitValue?]
    case h_3 => rfl
  have hdigits : Text.readNat? radix (c :: rest) = Text.extendDigits? radix 0 (c :: rest) := rfl
  rw [hclean] at hread ⊢
  rw [hunsigned, Text.readInt64?.unsigned, hdigits, hread, fit?]
  simp

/-- The mark after a zero decides the radix, and no octal digit is a mark. -/
theorem Spells.exists_splitRadix {text : List Char} {n : Nat} (hspells : Spells text n) :
    ∃ radix ds cs, Row radix ds cs ∧ n = value radix ds ∧
      Literal.splitRadix (clean text) = (radix, clean cs) := by
  have hoctal : ∀ {ds : List Nat} {cs : List Char}, Row 8 ds cs →
      Literal.splitRadix ('0' :: clean cs) = (8, clean cs) := by
    intro ds cs hrow
    obtain ⟨d, c, rest, -, hd, hclean, hc⟩ := hrow.exists_clean
    rw [hclean]
    unfold Literal.splitRadix
    split <;> simp_all [Text.digitValue?] <;> omega
  cases hspells with
  | zero => exact ⟨10, [0], ['0'], .last ⟨by decide, .inl rfl⟩, rfl, rfl⟩
  | @decimal d ds _ hd hrow =>
    refine ⟨10, d :: ds, text, hrow, rfl, ?_⟩
    obtain ⟨first, c, rest, hfirst, -, hclean, hc⟩ := hrow.exists_clean
    obtain rfl := Option.some.inj hfirst
    have hzero : c ≠ '0' := by
      rintro rfl
      exact hd (by simpa [Text.digitValue?] using hc.symm)
    rw [hclean]
    unfold Literal.splitRadix
    split <;> simp_all
  | @marked mark radix ds cs hmark hrow =>
    refine ⟨radix, ds, cs, hrow, rfl, ?_⟩
    simp only [radixMarks, List.mem_cons, List.not_mem_nil, or_false, Prod.mk.injEq] at hmark
    rcases hmark with h | h | h | h | h | h | h | h <;> obtain ⟨rfl, rfl⟩ := h <;> rfl
  | @octal ds cs hrow => exact ⟨8, ds, cs, hrow, rfl, hoctal hrow⟩
  | @octalSpaced ds cs hrow =>
    have hsplit := hoctal hrow
    exact ⟨8, ds, cs, hrow, rfl, hsplit⟩

theorem Spells.readUnsigned?_eq {text : List Char} {n : Nat} (hspells : Spells text n) :
    Literal.readUnsigned? (text.filter (· != '_')) = fit? n := by
  obtain ⟨radix, ds, cs, hrow, rfl, hsplit⟩ := hspells.exists_splitRadix
  rw [← hrow.readInt64?_clean, Literal.readUnsigned?]
  change Text.readInt64? (Literal.splitRadix (clean text)).1 (Literal.splitRadix (clean text)).2 = _
  rw [hsplit]

theorem Spells.minus_not_mem {text : List Char} {n : Nat} (hspells : Spells text n) :
    '-' ∉ text := by
  have hrows : ∀ {radix : Nat} {ds : List Nat} {cs : List Char}, Row radix ds cs → '-' ∉ cs :=
    fun hrow => hrow.not_mem (by decide) (by decide)
  cases hspells with
  | zero => decide
  | decimal _ hrow => exact hrows hrow
  | marked hmark hrow =>
    have hminus : ∀ mark ∈ radixMarks, '-' ≠ mark.1 := by decide
    simpa using ⟨hminus _ hmark, hrows hrow⟩
  | octal hrow => simpa using hrows hrow
  | octalSpaced hrow => simpa using hrows hrow

theorem Spells.readInteger?_eq {text : List Char} {n : Nat} (hspells : Spells text n) :
    Literal.readInteger? text = fit? n ∧
      Literal.readInteger? ('-' :: text) = (fit? n).map fun value => -value := by
  rw [← hspells.readUnsigned?_eq]
  refine ⟨?_, rfl⟩
  unfold Literal.readInteger?
  split
  case h_1 digits hfilter =>
    have hminus : '-' ∈ text.filter (· != '_') := by simp [hfilter]
    exact absurd (List.mem_of_mem_filter hminus) hspells.minus_not_mem
  case h_2 => rfl

end Numeral

theorem Node.literal_integer {node : Node} (hkind : node.kind = "integer") :
    node.literal =
      match Literal.readInteger? node.source.toList with
      | some n => .ok (.integer n)
      | none => .error ⟨node.source⟩ := by
  rw [literal, literal?, hkind]
  cases Literal.readInteger? node.source.toList <;> rfl

open Numeral in
/-- **Integer literals are read by their rules, without overflow.** A numeral is read as the number
that it writes up to the largest 64-bit integer, and with a minus sign in front as the negation of
that, which is exact. A numeral of a larger number is dynamic, with its whole source. -/
theorem Node.literal_of_spells {text : List Char} {n : Nat} (hspells : Spells text n)
    {node negated : Node} (hkind : node.kind = "integer")
    (hsource : node.source = String.ofList text) (hnegatedKind : negated.kind = "integer")
    (hnegatedSource : negated.source = String.ofList ('-' :: text)) :
    (n ≤ 2 ^ 63 - 1 → ∃ value : Int64,
        node.literal = .ok (.integer value) ∧ value.toInt = n ∧
          negated.literal = .ok (.integer (-value)) ∧ (-value).toInt = -n) ∧
      (2 ^ 63 - 1 < n →
        node.literal = .error ⟨node.source⟩ ∧ negated.literal = .error ⟨negated.source⟩) := by
  obtain ⟨hread, hreadNegated⟩ := hspells.readInteger?_eq
  rw [literal_integer hkind, literal_integer hnegatedKind, hsource, hnegatedSource,
    String.toList_ofList, String.toList_ofList, hread, hreadNegated, fit?]
  constructor
  · intro hn
    have hlt : n < 2 ^ 63 := by omega
    rw [if_pos hlt]
    exact ⟨Int64.ofNat n, rfl, Int64.toInt_ofNat_of_lt hlt, rfl,
      Int64.toInt_neg_ofNat_of_le hlt.le⟩
  · intro hn
    rw [if_neg (by omega)]
    exact ⟨rfl, rfl⟩

/-- An integer literal by its source. -/
def Node.integerOf (source : String) : Node :=
  ⟨"integer", none, source, 1, []⟩

-- The largest number that fits, with letters of both cases.
open Numeral in
theorem Node.literal_of_spells_largest :
    Spells "0X7Fff_ffff_ffff_ffff".toList (2 ^ 63 - 1) ∧
      ∃ value : Int64, (integerOf "0X7Fff_ffff_ffff_ffff").literal = .ok (.integer value) ∧
        value.toInt = 9223372036854775807 ∧
        (integerOf "-0X7Fff_ffff_ffff_ffff").literal = .ok (.integer (-value)) ∧
        (-value).toInt = -9223372036854775807 := by
  have seven : IsDigit 16 7 '7' := ⟨by decide, .inl rfl⟩
  have capital : IsDigit 16 15 'F' := ⟨by decide, .inr rfl⟩
  have small : IsDigit 16 15 'f' := ⟨by decide, .inl rfl⟩
  have hgroup : ∀ {ds : List Nat} {cs : List Char}, Row 16 ds cs →
      Row 16 (15 :: 15 :: 15 :: 15 :: ds) ("ffff_".toList ++ cs) :=
    fun hrow => .next small (.next small (.next small (.spaced small hrow)))
  have hlast : Row 16 [15, 15, 15, 15] "ffff".toList :=
    .next small (.next small (.next small (.last small)))
  have hrow : Row 16 (7 :: List.replicate 15 15) "7Fff_ffff_ffff_ffff".toList :=
    .next seven (.next capital (.next small (.spaced small (hgroup (hgroup hlast)))))
  have hspells : Spells "0X7Fff_ffff_ffff_ffff".toList (2 ^ 63 - 1) := .marked (by decide) hrow
  exact ⟨hspells, (literal_of_spells hspells rfl rfl rfl rfl).1 le_rfl⟩

end RouteCatalog
