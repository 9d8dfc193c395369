import RouteCatalog.Format.Json
import RouteCatalog.Proofs.Text.PrefixFree

/-!
# A JSON text determines its value

The forms that a value is made of stay apart: the characters of a text can be read back
(`unescape_escape`), the first character of a value tells its kind, an empty sequence or mapping
closes where another one breaks the line, and what follows an item starts with a comma or with the
line break before the closing bracket. So a value can be split off the front of a text
(`write_append_inj`), unless the text goes on with a digit.
-/

namespace RouteCatalog.Json

open Text (PrefixFree NoDigitAhead)

/-! ### Texts -/

/-- Reads one character of a text between quotes; `none` at the closing quote. -/
def unescape : List Char → Option (Char × List Char)
  | '\\' :: 'u' :: a :: b :: c :: d :: rest =>
    (Text.readNat? 16 [a, b, c, d]).map fun code => (Char.ofNat code, rest)
  | '\\' :: 'b' :: rest => some ('\x08', rest)
  | '\\' :: 'f' :: rest => some ('\x0c', rest)
  | '\\' :: 'n' :: rest => some ('\n', rest)
  | '\\' :: 'r' :: rest => some ('\r', rest)
  | '\\' :: 't' :: rest => some ('\t', rest)
  | '\\' :: mark :: rest => some (mark, rest)
  | '"' :: _ => none
  | c :: rest => some (c, rest)
  | [] => none

theorem unescape_hexLower {c : Char} (hlow : c.toNat < 0x20) (rest : List Char) :
    unescape ('\\' :: 'u' :: Text.hexLower 4 c.toNat ++ rest) = some (c, rest) := by
  have hlength : (Text.hexLower 4 c.toNat).length = 4 :=
    Text.length_hexLower (by decide) (by omega)
  have hread := Text.readNat?_hexLower 4 c.toNat
  match hdigits : Text.hexLower 4 c.toNat, hlength with
  | [x, y, z, w], _ =>
    rw [hdigits] at hread
    simp [unescape, hread, Char.ofNat_toNat]

theorem unescape_plain {c : Char} (hquote : c ≠ '"') (hslash : c ≠ '\\') (rest : List Char) :
    unescape (c :: rest) = some (c, rest) := by
  unfold unescape
  split <;> simp_all

theorem unescape_escape (c : Char) (rest : List Char) :
    unescape (escape c ++ rest) = some (c, rest) := by
  unfold escape
  split
  case h_8 hquote hslash _ _ _ _ _ =>
    split
    case isTrue hlow => exact unescape_hexLower hlow rest
    case isFalse => exact unescape_plain hquote hslash rest
  all_goals rfl

theorem quote_prefixFree : PrefixFree quote :=
  (Text.prefixFree_quoted unescape_escape fun _ => rfl).comp fun _ _ => String.toList_inj.1

/-! ### Values -/

theorem noDigitAhead_writeItems (level outer : Nat) (items : List Value) (rest : List Char) :
    NoDigitAhead (writeItems level items ++ (newline outer ++ rest)) := by
  cases items <;> exact Text.noDigitAhead_cons (by decide) _

theorem noDigitAhead_writeFields (level outer : Nat) (fields : List (String × Value))
    (rest : List Char) : NoDigitAhead (writeFields level fields ++ (newline outer ++ rest)) := by
  cases fields <;> exact Text.noDigitAhead_cons (by decide) _

/-- The character that a value starts with, if it is not a digit. -/
def opening? : Value → Option Char
  | .text _ => some '"'
  | .number _ => none
  | .sequence _ => some '['
  | .mapping _ => some '\x7b'

theorem opening?_eq (level : Nat) (value : Value) (rest : List Char) :
    opening? value = (write level value ++ rest).head?.filter fun c => !c.isDigit := by
  cases value with
  | text content => rfl
  | number n =>
    obtain ⟨d, digits, hdigits, hd⟩ := Text.natText_eq_cons n
    simp [opening?, write, hdigits, hd, Option.filter_some]
  | sequence items => cases items <;> rfl
  | mapping fields => cases fields <;> rfl

theorem opening?_eq_of_append_eq {level : Nat} {value other : Value} {rest others : List Char}
    (heq : write level value ++ rest = write level other ++ others) :
    opening? value = opening? other := by
  rw [opening?_eq level value rest, heq, ← opening?_eq]

-- By recursion on the first value. The items and fields of a value are followed by the line break
-- before its closing bracket, which no further item or field starts with.
mutual

theorem write_append_inj {level : Nat} : ∀ {value other : Value} {rest others : List Char},
    NoDigitAhead rest → NoDigitAhead others →
    write level value ++ rest = write level other ++ others → value = other ∧ rest = others
  | .text content, other, rest, others, _, _, heq => by
    have hkind := opening?_eq_of_append_eq heq
    cases other <;> cases hkind
    rw [write, write] at heq
    obtain ⟨rfl, hrest⟩ := quote_prefixFree heq
    exact ⟨rfl, hrest⟩
  | .number n, other, rest, others, hrest, hothers, heq => by
    have hkind := opening?_eq_of_append_eq heq
    cases other <;> cases hkind
    rw [write, write] at heq
    obtain ⟨rfl, hrest⟩ := Text.natText_append_inj hrest hothers heq
    exact ⟨rfl, hrest⟩
  | .sequence [], .sequence [], _, _, _, _, heq => by simpa [write] using heq
  | .sequence [], .sequence (_ :: _), _, _, _, _, heq => by simp [write, newline] at heq
  | .sequence (_ :: _), .sequence [], _, _, _, _, heq => by simp [write, newline] at heq
  | .sequence (item :: items), .sequence (other :: others), r, s, _, _, heq => by
    have hwritten : writeItems (level + 1) (item :: items) ++ (newline level ++ ']' :: r) =
        writeItems (level + 1) (other :: others) ++ (newline level ++ ']' :: s) := by
      simpa [write, writeItems] using heq
    obtain ⟨hitems, hrest⟩ := writeItems_append_inj hwritten
    exact ⟨by rw [hitems], by simpa using hrest⟩
  | .mapping [], .mapping [], _, _, _, _, heq => by simpa [write] using heq
  | .mapping [], .mapping (_ :: _), _, _, _, _, heq => by simp [write, newline] at heq
  | .mapping (_ :: _), .mapping [], _, _, _, _, heq => by simp [write, newline] at heq
  | .mapping ((name, value) :: fields), .mapping ((name', value') :: others), r, s, _, _, heq => by
    have hwritten :
        writeFields (level + 1) ((name, value) :: fields) ++ (newline level ++ '\x7d' :: r) =
          writeFields (level + 1) ((name', value') :: others) ++
            (newline level ++ '\x7d' :: s) := by
      simpa [write, writeFields] using heq
    obtain ⟨hfields, hrest⟩ := writeFields_append_inj hwritten
    exact ⟨by rw [hfields], by simpa using hrest⟩
  | .sequence _, .text _, _, _, _, _, heq
  | .sequence _, .number _, _, _, _, _, heq
  | .sequence _, .mapping _, _, _, _, _, heq
  | .mapping _, .text _, _, _, _, _, heq
  | .mapping _, .number _, _, _, _, _, heq
  | .mapping _, .sequence _, _, _, _, _, heq => by cases opening?_eq_of_append_eq heq

theorem writeItems_append_inj {level outer : Nat} :
    ∀ {items others : List Value} {r s : List Char},
      writeItems level items ++ (newline outer ++ r) =
          writeItems level others ++ (newline outer ++ s) →
        items = others ∧ r = s
  | [], [], r, s, heq => by simpa [writeItems] using heq
  | [], _ :: _, r, s, heq => by simp [writeItems, newline] at heq
  | _ :: _, [], r, s, heq => by simp [writeItems, newline] at heq
  | item :: items, other :: others, r, s, heq => by
    simp only [writeItems, List.cons_append, List.append_assoc, List.cons.injEq, true_and,
      List.append_cancel_left_eq] at heq
    obtain ⟨hitem, htail⟩ := write_append_inj (noDigitAhead_writeItems level outer items r)
      (noDigitAhead_writeItems level outer others s) heq
    obtain ⟨hitems, hrest⟩ := writeItems_append_inj htail
    exact ⟨by rw [hitem, hitems], hrest⟩

theorem writeFields_append_inj {level outer : Nat} :
    ∀ {fields others : List (String × Value)} {r s : List Char},
      writeFields level fields ++ (newline outer ++ r) =
          writeFields level others ++ (newline outer ++ s) →
        fields = others ∧ r = s
  | [], [], r, s, heq => by simpa [writeFields] using heq
  | [], _ :: _, r, s, heq => by simp [writeFields, newline] at heq
  | _ :: _, [], r, s, heq => by simp [writeFields, newline] at heq
  | (name, value) :: fields, (otherName, other) :: others, r, s, heq => by
    simp only [writeFields, List.cons_append, List.append_assoc, List.cons.injEq, true_and,
      List.append_cancel_left_eq] at heq
    obtain ⟨hname, hvalue⟩ := quote_prefixFree heq
    obtain ⟨hvalue, htail⟩ := write_append_inj (noDigitAhead_writeFields level outer fields r)
      (noDigitAhead_writeFields level outer others s) (by simpa using hvalue)
    obtain ⟨hfields, hrest⟩ := writeFields_append_inj htail
    exact ⟨by rw [hname, hvalue, hfields], hrest⟩

end

theorem render_injective : Function.Injective render := by
  intro value other heq
  have hwritten : write 0 value ++ [] = write 0 other ++ [] := by
    rw [String.ofList_injective heq]
  have hend : NoDigitAhead [] := by simp [NoDigitAhead]
  exact (write_append_inj hend hend hwritten).1

end RouteCatalog.Json
