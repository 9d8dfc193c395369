import Mathlib.Algebra.Group.Nat.Defs
import RouteCatalog.Text.Escape
import RouteCatalog.Text.Numeral

/-!
# Numbers are read back

A number can be read back from its digits in any radix (`readNat?_leftpad_toDigits`): whatever
letters spell the digits, as long as each is read as its digit, and whatever the width that zeros
fill up. So hexadecimal escapes of either letter case come back, and so do decimals. An escape has
its width if the number has no more digits (`length_hexLower`).
-/

namespace RouteCatalog.Text

/-! ### Digits -/

theorem digit?_of_digitValue? {radix d : Nat} {c : Char} (hvalue : digitValue? c = some d)
    (hd : d < radix) : digit? radix c = some d := by
  rw [digit?, hvalue, Option.filter_some, if_pos (decide_eq_true hd)]

theorem digitValue?_digitChar : ∀ d < 16, digitValue? d.digitChar = some d := by
  decide

theorem digitValue?_toUpper_digitChar : ∀ d < 16, digitValue? d.digitChar.toUpper = some d := by
  decide

theorem extendDigits?_append (radix value : Nat) (cs ds : List Char) :
    extendDigits? radix value (cs ++ ds) =
      (extendDigits? radix value cs).bind fun value => extendDigits? radix value ds := by
  induction cs generalizing value with
  | nil => rfl
  | cons c cs ih =>
    rw [List.cons_append, extendDigits?, extendDigits?]
    cases digit? radix c with
    | none => rfl
    | some d => exact ih (value * radix + d)

section Spelled

variable {radix : Nat} {spell : Char → Char}

/-- Leading zeros do not count. -/
theorem extendDigits?_zeros (hzero : digit? radix (spell '0') = some 0) (count : Nat)
    (cs : List Char) :
    extendDigits? radix 0 ((List.replicate count '0').map spell ++ cs) =
      extendDigits? radix 0 cs := by
  induction count with
  | zero => rfl
  | succ count ih =>
    rw [List.replicate_succ, List.map_cons, List.cons_append, extendDigits?, hzero,
      Option.bind_eq_bind, Option.bind_some, Nat.zero_mul]
    exact ih

-- The recursion is that of the digits: all but the last are those of the quotient by the radix.
theorem extendDigits?_toDigits (hradix : 1 < radix)
    (hspell : ∀ d < radix, digit? radix (spell d.digitChar) = some d) (n : Nat) :
    extendDigits? radix 0 ((Nat.toDigits radix n).map spell) = some n := by
  induction n using Nat.strongRecOn with
  | ind n ih =>
    rcases Nat.lt_or_ge n radix with hsmall | hlarge
    · rw [Nat.toDigits_of_lt_base hsmall, List.map_singleton, extendDigits?, hspell n hsmall,
        Option.bind_eq_bind, Option.bind_some, Nat.zero_mul, Nat.zero_add, extendDigits?]
    · have hlast := hspell (n % radix) (Nat.mod_lt n (by omega))
      have hfront := ih (n / radix) (Nat.div_lt_self (by omega) hradix)
      rw [Nat.toDigits_of_base_le hradix hlarge, List.map_append, extendDigits?_append, hfront,
        Option.bind_some, List.map_singleton, extendDigits?, hlast, Option.bind_eq_bind,
        Option.bind_some, extendDigits?, Nat.div_add_mod']

theorem readNat?_of_ne_nil {cs : List Char} (hcs : cs ≠ []) :
    readNat? radix cs = extendDigits? radix 0 cs := by
  cases cs with
  | nil => exact absurd rfl hcs
  | cons c cs => rfl

/-- A number is read back from its digits, however they are spelled, with zeros up to any width. -/
theorem readNat?_leftpad_toDigits (hradix : 1 < radix)
    (hspell : ∀ d < radix, digit? radix (spell d.digitChar) = some d) (width n : Nat) :
    readNat? radix (((Nat.toDigits radix n).leftpad width '0').map spell) = some n := by
  have hzero : digit? radix (spell '0') = some 0 := hspell 0 (by omega)
  rw [readNat?_of_ne_nil (by simp [List.leftpad]), List.leftpad, List.map_append,
    extendDigits?_zeros hzero, extendDigits?_toDigits hradix hspell]

end Spelled

/-! ### Hexadecimal -/

theorem readNat?_hexLower (width n : Nat) : readNat? 16 (hexLower width n) = some n := by
  have hread : readNat? 16 ((hexLower width n).map id) = some n :=
    readNat?_leftpad_toDigits (by decide)
      (fun d hd => digit?_of_digitValue? (digitValue?_digitChar d hd) hd) width n
  rwa [List.map_id] at hread

theorem readNat?_hexUpper (width n : Nat) : readNat? 16 (hexUpper width n) = some n :=
  readNat?_leftpad_toDigits (by decide)
    (fun d hd => digit?_of_digitValue? (digitValue?_toUpper_digitChar d hd) hd) width n

theorem length_hexLower {width n : Nat} (hwidth : 0 < width) (hn : n < 16 ^ width) :
    (hexLower width n).length = width := by
  rw [hexLower, List.length_leftpad]
  exact Nat.max_eq_left ((Nat.length_toDigits_le_iff (by decide) hwidth).2 hn)

theorem length_hexUpper {width n : Nat} (hwidth : 0 < width) (hn : n < 16 ^ width) :
    (hexUpper width n).length = width := by
  rw [hexUpper, List.length_map, length_hexLower hwidth hn]

/-! ### Decimal -/

theorem isDigit_of_mem_natText {n : Nat} {c : Char} (hc : c ∈ (natText n).toList) :
    c.isDigit = true := by
  rw [natText, String.toList_ofList] at hc
  exact Nat.isDigit_of_mem_toDigits (by decide) (by decide) hc

theorem readNat?_natText (n : Nat) : readNat? 10 (natText n).toList = some n := by
  have hread : readNat? 10 (((Nat.toDigits 10 n).leftpad 0 '0').map id) = some n :=
    readNat?_leftpad_toDigits (by decide)
      (fun d hd => digit?_of_digitValue? (digitValue?_digitChar d (by omega)) hd) 0 n
  rw [List.map_id, List.leftpad, Nat.zero_sub] at hread
  rw [natText, String.toList_ofList]
  exact hread

end RouteCatalog.Text
