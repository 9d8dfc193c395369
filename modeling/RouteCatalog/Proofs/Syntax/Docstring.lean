import Mathlib.Data.List.DropRight
import Mathlib.Data.List.Forall2
import RouteCatalog.Syntax.Docstring

/-!
# The docstring is the longest block above

A line documents what follows it (`Docstring.Documents`) when it is a comment, blanks around it
aside, that speaks to a reader. The lines of a docstring are the longest run of such lines that ends
directly above (`Docstring.IsBlock`). A line that does not document bounds the run from above, so
nothing above such a line and nothing from the given line on has a say.
-/

namespace RouteCatalog

/-! ### Trimming -/

namespace Text

/-- A text is what is left of a line without the blanks at its ends. -/
structure Trims (line text : List Char) : Prop where
  around : ∃ front back, line = front ++ text ++ back ∧ (∀ c ∈ front, isBlank c = true) ∧
    ∀ c ∈ back, isBlank c = true
  starts : ∀ c ∈ text.head?, isBlank c = false
  ends : ∀ c ∈ text.getLast?, isBlank c = false

theorem head?_dropWhile_isBlank {cs : List Char} :
    ∀ c ∈ (cs.dropWhile isBlank).head?, isBlank c = false := by
  intro c hc
  have hhead := List.head?_dropWhile_not isBlank cs
  rw [Option.mem_def] at hc
  rw [hc] at hhead
  exact hhead

theorem dropWhile_isBlank_of_head? {cs : List Char} (hhead : ∀ c ∈ cs.head?, isBlank c = false) :
    cs.dropWhile isBlank = cs := by
  cases cs with
  | nil => rfl
  | cons c cs => rw [List.dropWhile_cons_of_neg (by simp [hhead c rfl])]

theorem trims_trim (line : List Char) : Trims line (trim line) where
  around := by
    refine ⟨line.takeWhile isBlank, (trimStart line).rtakeWhile isBlank, ?_, ?_, ?_⟩
    · have hend : trim line ++ (trimStart line).rtakeWhile isBlank = trimStart line :=
        List.rdropWhile_append_rtakeWhile
      rw [List.append_assoc, hend]
      exact List.takeWhile_append_dropWhile.symm
    · exact fun c hc => List.mem_takeWhile_imp hc
    · exact fun c hc => List.mem_rtakeWhile_imp hc
  starts := by
    intro c hc
    obtain ⟨rest, hrest⟩ : trim line <+: trimStart line := List.rdropWhile_prefix isBlank _
    have hhead : c ∈ (trimStart line).head? := by
      rw [← hrest, List.head?_append, Option.mem_def.1 hc]
      rfl
    exact head?_dropWhile_isBlank c hhead
  ends := by
    intro c hc
    rw [trim, trimEnd, List.getLast?_reverse] at hc
    exact head?_dropWhile_isBlank c hc

theorem trimEnd_append {text back : List Char} (hends : ∀ c ∈ text.getLast?, isBlank c = false)
    (hback : ∀ c ∈ back, isBlank c = true) : trimEnd (text ++ back) = text := by
  have hreverse : ∀ c ∈ back.reverse, isBlank c = true := fun c hc =>
    hback c (List.mem_reverse.1 hc)
  rw [trimEnd, List.reverse_append, List.dropWhile_append_of_pos hreverse,
    dropWhile_isBlank_of_head? (by rwa [List.head?_reverse]), List.reverse_reverse]

/-- A line has one trimmed text. -/
theorem Trims.trim_eq {line text : List Char} (htrims : Trims line text) : trim line = text := by
  obtain ⟨⟨front, back, rfl, hfront, hback⟩, hstarts, hends⟩ := htrims
  rw [trim, trimStart, List.append_assoc, List.dropWhile_append_of_pos hfront]
  cases text with
  | nil =>
    rw [List.nil_append, List.dropWhile_eq_nil_iff.2 hback]
    rfl
  | cons c cs =>
    rw [dropWhile_isBlank_of_head? (by simpa using hstarts)]
    exact trimEnd_append hends hback

end Text

namespace Docstring

/-! ### Lines that document -/

/-- A trimmed comment that speaks to the interpreter. -/
def Magic (comment : List Char) : Prop :=
  "#!".toList <+: comment ∨ "-*-".toList <:+: comment ∨
    "frozen_string_literal:".toList <:+: comment ∨ "# encoding:".toList <+: comment

/-- A line is a comment, blanks at its ends aside, and no magic one. -/
def Documents (line : List Char) : Prop :=
  ∃ text, Text.Trims line text ∧ ['#'] <+: text ∧ ¬Magic text

/-- The words of a comment line: what follows its mark, or the one space after that. -/
inductive Says (line : List Char) : List Char → Prop
  | spaced {words : List Char} : Text.Trims line ('#' :: ' ' :: words) → Says line words
  | plain {words : List Char} : Text.Trims line ('#' :: words) → words.head? ≠ some ' ' →
      Says line words

theorem isMagic_iff {comment : List Char} : isMagic comment = true ↔ Magic comment := by
  simp only [isMagic, Magic, Bool.or_eq_true, List.isPrefixOf_iff_prefix, Text.occursIn_iff,
    or_assoc]

theorem isDocLine_iff {line : List Char} : isDocLine line = true ↔ Documents line := by
  constructor
  · intro hline
    refine ⟨Text.trim line, Text.trims_trim line, ?_⟩
    unfold isDocLine at hline
    split at hline
    · next rest htrim =>
      rw [htrim, ← isMagic_iff]
      exact ⟨⟨rest, rfl⟩, by simpa using hline⟩
    · cases hline
  · rintro ⟨text, htrims, ⟨rest, rfl⟩, hmagic⟩
    rw [isDocLine, htrims.trim_eq]
    show (!isMagic ('#' :: rest)) = true
    simpa [← isMagic_iff] using hmagic

theorem says_docText {line : List Char} (hline : Documents line) : Says line (docText line) := by
  obtain ⟨text, htrims, ⟨rest, rfl⟩, -⟩ := hline
  rw [docText, htrims.trim_eq]
  cases rest with
  | nil => exact .plain htrims nofun
  | cons c words =>
    by_cases hspace : c = ' '
    · subst hspace
      exact .spaced htrims
    · have hplain : Says line (c :: words) := .plain htrims (by simpa using hspace)
      simpa [hspace] using hplain

/-! ### The block -/

/-- The longest run of documenting lines at the end of a row of lines. -/
structure IsBlock (lines block : List (List Char)) : Prop where
  isSuffix : block <:+ lines
  documents : ∀ line ∈ block, Documents line
  longest : ∀ other, other <:+ lines → (∀ line ∈ other, Documents line) →
    other.length ≤ block.length

theorem isBlock_rtakeWhile (lines : List (List Char)) :
    IsBlock lines (lines.rtakeWhile isDocLine) where
  isSuffix := List.rtakeWhile_suffix isDocLine lines
  documents line hline := isDocLine_iff.1 (List.mem_rtakeWhile_imp hline)
  longest := by
    rintro other ⟨front, rfl⟩ hother
    have hdocs : ∀ line ∈ other.reverse, isDocLine line = true := fun line hline =>
      isDocLine_iff.2 (hother line (List.mem_reverse.1 hline))
    rw [List.rtakeWhile, List.reverse_append, List.takeWhile_append_of_pos hdocs]
    simp

/-- Nothing above a line that does not document belongs to the block. -/
theorem IsBlock.isSuffix_of_not_documents {lines block upper lower : List (List Char)}
    {stop : List Char} (hblock : IsBlock lines block) (hlines : lines = upper ++ stop :: lower)
    (hstop : ¬Documents stop) : block <:+ lower := by
  have hlower : stop :: lower <:+ lines := ⟨upper, hlines.symm⟩
  rcases Nat.lt_or_ge lower.length block.length with hlong | hshort
  · -- A block that goes beyond the lower lines would have the line in it.
    have hwithin : stop :: lower <:+ block :=
      List.suffix_of_suffix_length_le hlower hblock.isSuffix hlong
    exact absurd (hblock.documents stop (hwithin.subset List.mem_cons_self)) hstop
  · exact List.suffix_of_suffix_length_le hblock.isSuffix ((List.suffix_cons _ _).trans hlower)
      hshort

/-- Going up from a place within the text comes to the words of the block above it, upside down. -/
theorem reverse_collect {lines : List (List Char)} {index : Nat} (hindex : index ≤ lines.length) :
    (collect lines index).reverse = ((lines.take index).rtakeWhile isDocLine).map docText := by
  induction index with
  | zero => rfl
  | succ index ih =>
    have hget : lines[index]? = some lines[index] := List.getElem?_eq_getElem hindex
    rw [collect, hget, List.take_succ_eq_append_getElem hindex, List.rtakeWhile_concat]
    dsimp only
    by_cases hdoc : isDocLine lines[index] = true
    · rw [if_pos hdoc, if_pos hdoc, List.reverse_cons, ih (by omega), List.map_append]
      rfl
    · rw [if_neg hdoc, if_neg hdoc]
      rfl

/-- From beyond the end of the text, the first line to look at is not there. -/
theorem collect_of_length_lt {lines : List (List Char)} {index : Nat}
    (hindex : lines.length < index) : collect lines index = [] := by
  obtain ⟨index, rfl⟩ : ∃ below, index = below + 1 := ⟨index - 1, by omega⟩
  rw [collect, List.getElem?_eq_none (by omega)]

theorem above_of_length_le {source : String} {line : Nat}
    (hline : line - 1 ≤ (Text.lines source.toList).length) :
    above source line =
      "\n".intercalate
        ((((Text.lines source.toList).take (line - 1)).rtakeWhile isDocLine).map fun comment =>
          String.ofList (docText comment)) := by
  rw [above, reverse_collect hline, List.map_map]
  rfl

theorem above_of_length_lt {source : String} {line : Nat}
    (hline : (Text.lines source.toList).length < line - 1) : above source line = "" := by
  rw [above, collect_of_length_lt hline]
  rfl

/-- What stands on a line and below it has no part in its docstring. -/
theorem above_congr {source other : String} {line : Nat}
    (hsame : (Text.lines other.toList).take (line - 1) =
      (Text.lines source.toList).take (line - 1)) :
    above other line = above source line := by
  have hlength := congrArg List.length hsame
  rw [List.length_take, List.length_take] at hlength
  by_cases hline : line - 1 ≤ (Text.lines source.toList).length
  · rw [above_of_length_le hline, above_of_length_le (by omega), hsame]
  · rw [above_of_length_lt (by omega), above_of_length_lt (by omega)]

/-- **The docstring of a line is the longest block of documenting lines that ends directly above
it**, in order and by their words. There is none above the first line and beyond the end of the
text. No line above one that does not document is in the block, and the line itself and all below it
have no part in it. -/
theorem above_longestBlock (source : String) (line : Nat) :
    let lines := Text.lines source.toList
    (line ≤ 1 ∨ lines.length < line - 1 → above source line = "") ∧
      (1 < line → line - 1 ≤ lines.length → ∃ block words,
        IsBlock (lines.take (line - 1)) block ∧ List.Forall₂ Says block words ∧
          above source line = "\n".intercalate (words.map String.ofList) ∧
          ∀ upper stop lower, lines.take (line - 1) = upper ++ stop :: lower →
            ¬Documents stop → block <:+ lower) ∧
      ∀ other : String, (Text.lines other.toList).take (line - 1) = lines.take (line - 1) →
        above other line = above source line := by
  intro lines
  refine ⟨?_, fun _ hline => ?_, fun other hsame => above_congr hsame⟩
  · rintro (hfirst | hbeyond)
    · have hzero : line - 1 = 0 := by omega
      rw [above_of_length_le (by omega), hzero]
      rfl
    · exact above_of_length_lt hbeyond
  · have hblock := isBlock_rtakeWhile (lines.take (line - 1))
    refine ⟨_, ((lines.take (line - 1)).rtakeWhile isDocLine).map docText, hblock, ?_, ?_, ?_⟩
    · rw [List.forall₂_map_right_iff, List.forall₂_same]
      exact fun comment hcomment => says_docText (hblock.documents comment hcomment)
    · rw [above_of_length_le hline, List.map_map]
      rfl
    · exact fun upper stop lower => hblock.isSuffix_of_not_documents

/-- A shebang, a comment, an empty line, a block of three lines and a call. -/
def usersRoute : String :=
  "#!/usr/bin/env ruby\n# Users.\n\n  # Lists users.\r\n#\n\t#  Paged. \nget :users\n"

theorem above_longestBlock_usersRoute :
    (1 < 7 ∧ 7 - 1 ≤ (Text.lines usersRoute.toList).length) ∧ ¬Documents [] ∧
      above usersRoute 7 = "Lists users.\n\n Paged." ∧
      ∃ block words, IsBlock ((Text.lines usersRoute.toList).take 6) block ∧
        List.Forall₂ Says block words ∧
        "Lists users.\n\n Paged." = "\n".intercalate (words.map String.ofList) ∧
        block <:+ ["  # Lists users.".toList, "#".toList, "\t#  Paged. ".toList] := by
  have hlines : 7 - 1 ≤ (Text.lines usersRoute.toList).length := by decide +kernel
  have habove : above usersRoute 7 = "Lists users.\n\n Paged." := by decide +kernel
  have hempty : ¬Documents [] := by
    rw [← isDocLine_iff]
    decide
  obtain ⟨-, hblock, -⟩ := above_longestBlock usersRoute 7
  obtain ⟨block, words, hlongest, hsays, hjoin, hstop⟩ := hblock (by decide) hlines
  refine ⟨⟨by decide, hlines⟩, hempty, habove, block, words, hlongest, hsays, habove ▸ hjoin, ?_⟩
  exact hstop ["#!/usr/bin/env ruby".toList, "# Users.".toList] [] _ (by decide +kernel) hempty

end Docstring

end RouteCatalog
