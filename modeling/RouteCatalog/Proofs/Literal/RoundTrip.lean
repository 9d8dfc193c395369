import RouteCatalog.Proofs.Literal.Inspection
import RouteCatalog.Proofs.Literal.Numerals

/-!
# Reading what was inspected

A number in decimal is a numeral that writes it (`Numeral.spells_natText`), so an integer that was
inspected is read again as itself. The sign is read apart from the digits, and the digits alone must
fit: the magnitude of the least integer is no integer of its width, so this one does not come back.
A bare symbol starts with no colon, so dropping all colons in front drops only its own.
-/

namespace RouteCatalog

namespace Numeral

theorem Row.append_last {radix d : Nat} {c : Char} {ds : List Nat} {cs : List Char}
    (hrow : Row radix ds cs) (hdigit : IsDigit radix d c) : Row radix (ds ++ [d]) (cs ++ [c]) := by
  induction hrow with
  | last hc => exact .next hc (.last hdigit)
  | next hc _ ih => exact .next hc ih
  | spaced hc _ ih => exact .spaced hc ih

theorem value_append_last (radix d : Nat) (ds : List Nat) :
    value radix (ds ++ [d]) = value radix ds * radix + d := by
  simp only [value, List.reverse_append, List.reverse_singleton, List.singleton_append,
    Nat.ofDigits_cons]
  ring

theorem isDigit_digitChar {d : Nat} (hd : d < 10) : IsDigit 10 d d.digitChar := by
  have htable : ∀ d < 10, lowerDigits[d]? = some d.digitChar := by decide
  exact ⟨hd, .inl (htable d hd)⟩

theorem exists_row_toDigits {n : Nat} (hn : n ≠ 0) :
    ∃ d ds, d ≠ 0 ∧ Row 10 (d :: ds) (Nat.toDigits 10 n) ∧ value 10 (d :: ds) = n := by
  -- The leading digit of a number of several digits is that of its tenth.
  induction n using Nat.strong_induction_on with
  | h n ih =>
    by_cases hsmall : n < 10
    · rw [Nat.toDigits_of_lt_base hsmall]
      exact ⟨n, [], hn, .last (isDigit_digitChar hsmall), by simp [value]⟩
    · have hlast := isDigit_digitChar (Nat.mod_lt n (show 10 > 0 by decide))
      obtain ⟨d, ds, hd, hrow, hvalue⟩ := ih (n / 10) (by omega) (by omega)
      rw [Nat.toDigits_of_base_le (by decide) (by omega)]
      refine ⟨d, ds ++ [n % 10], hd, hrow.append_last hlast, ?_⟩
      rw [← List.cons_append, value_append_last, hvalue]
      omega

theorem spells_natText (n : Nat) : Spells (Text.natText n).toList n := by
  rw [Text.natText, String.toList_ofList]
  by_cases hn : n = 0
  · rw [hn, Nat.toDigits_zero]
    exact .zero
  · obtain ⟨d, ds, hd, hrow, hvalue⟩ := exists_row_toDigits hn
    have hspells := Spells.decimal hd hrow
    rwa [hvalue] at hspells

end Numeral

theorem Literal.readInteger?_intText (value : Int64) :
    readInteger? (Text.intText value.toInt).toList =
      if value = Int64.minValue then none else some value := by
  have hlow := Int64.le_toInt value
  have hhigh := Int64.toInt_lt value
  have hmin : value = Int64.minValue ↔ value.toInt = -2 ^ 63 := by
    rw [← Int64.toInt_inj, Int64.toInt_minValue]
  cases hvalue : value.toInt with
  | ofNat n =>
    rw [hvalue] at hlow hhigh hmin
    have hlt : n < 2 ^ 63 := by
      simp only [Int.ofNat_eq_natCast] at hhigh
      omega
    rw [Text.intText, (Numeral.spells_natText n).readInteger?_eq.1, Numeral.fit?, if_pos hlt,
      if_neg (by rw [hmin]; simp only [Int.ofNat_eq_natCast]; omega)]
    congr 1
    rw [← Int64.toInt_inj, Int64.toInt_ofNat_of_lt hlt, hvalue]
    rfl
  | negSucc n =>
    rw [hvalue] at hlow hhigh hmin
    have hread := (Numeral.spells_natText (n + 1)).readInteger?_eq.2
    have htext : (Text.intText (.negSucc n)).toList = '-' :: (Text.natText (n + 1)).toList := by
      simp [Text.intText]
    rw [htext, hread, Numeral.fit?]
    by_cases hlt : n + 1 < 2 ^ 63
    · rw [if_pos hlt, if_neg (by rw [hmin]; omega)]
      have hneg : -Int64.ofNat (n + 1) = value := by
        rw [← Int64.toInt_inj, Int64.toInt_neg_ofNat_of_le hlt.le, hvalue]
        rfl
      rw [Option.map_some, hneg]
    · rw [if_neg hlt, if_pos (hmin.2 (by omega))]
      rfl

theorem Literal.isPlain_of_inspect {name : String}
    (hbare : '"' ∉ (symbol name).inspect.toList) : isPlain name = true := by
  by_contra hplain
  rw [inspect, if_neg hplain] at hbare
  simp [Text.quote] at hbare

theorem Node.literal_symbolText {name : String} (hplain : Literal.isPlain name = true) {node : Node}
    (hkind : node.kind = "simple_symbol") (hsource : node.source = ":" ++ name) :
    node.literal = .ok (.symbol name) := by
  have hcolon : ∀ c ∈ name.toList.head?, (c == ':') = false := by
    intro c hc
    rw [beq_eq_false_iff_ne]
    rintro rfl
    exact Literal.delimiter_not_mem_of_isPlain hplain ':' (List.mem_of_mem_head? hc) (by decide)
  have hdrop : node.source.toList.dropWhile (· == ':') = name.toList := by
    rw [hsource]
    cases hname : name.toList with
    | nil => simp [hname]
    | cons c cs =>
      rw [hname] at hcolon
      simp [hname, hcolon c (by simp)]
  simp [literal, literal?, hkind, hdrop]

/-- **Reading undoes inspecting, but for the least integer.** An integer literal with the inspected
form of a 64-bit integer is read as that integer if and only if it is not the least one, which is
dynamic. A symbol literal with the inspected form of a symbol that is written without quotes is read
as that symbol. -/
theorem Node.literal_of_inspect (value : Int64) (name : String) {number word : Node}
    (hnumber : number.kind = "integer") (hword : word.kind = "simple_symbol")
    (hnumberSource : number.source = (Literal.integer value).inspect)
    (hwordSource : word.source = (Literal.symbol name).inspect) :
    (number.literal = .ok (.integer value) ↔ value ≠ Int64.minValue) ∧
      (value = Int64.minValue → number.literal = .error ⟨number.source⟩) ∧
      ('"' ∉ (Literal.symbol name).inspect.toList → word.literal = .ok (.symbol name)) := by
  have hread : Literal.readInteger? number.source.toList =
      if value = Int64.minValue then none else some value := by
    rw [hnumberSource]
    exact Literal.readInteger?_intText value
  rw [literal_integer hnumber, hread]
  refine ⟨?_, ?_, ?_⟩
  · by_cases hvalue : value = Int64.minValue <;> simp [hvalue]
  · intro hvalue
    rw [if_pos hvalue]
  · intro hbare
    have hplain := Literal.isPlain_of_inspect hbare
    rw [Literal.inspect, if_pos hplain] at hwordSource
    exact literal_symbolText hplain hword hwordSource

theorem Node.literal_of_inspect_nextToLeast :
    (integerOf "-9223372036854775807").literal = .ok (.integer (-9223372036854775807)) ∧
      Node.literal ⟨"simple_symbol", none, ":[]=", 1, []⟩ = .ok (.symbol "[]=") := by
  obtain ⟨hnumber, -, hword⟩ := Node.literal_of_inspect (-9223372036854775807) "[]="
    (show (integerOf "-9223372036854775807").kind = "integer" from rfl)
    (show (Node.mk "simple_symbol" none ":[]=" 1 []).kind = "simple_symbol" from rfl)
    (by decide +kernel) (by decide +kernel)
  exact ⟨hnumber.2 (by decide), hword (by decide +kernel)⟩

-- The digits of the least integer write a number that is one too large.
theorem Node.not_literal_of_least_inspected :
    ¬∀ (value : Int64) (node : Node), node.kind = "integer" →
        node.source = (Literal.integer value).inspect → node.literal = .ok (.integer value) := by
  intro hreads
  have hleast : (integerOf "-9223372036854775808").literal = .ok (.integer Int64.minValue) :=
    hreads _ _ rfl (by decide +kernel)
  exact absurd hleast (by decide +kernel)

end RouteCatalog
