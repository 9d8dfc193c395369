/-!
# Words

A word is an ASCII letter or underscore followed by ASCII letters, digits and underscores: the
shape of a namespace segment and of a symbol that needs no quotes. `toWordChars` maps any text to
word characters, one for one.
-/

namespace RouteCatalog.Text

/-- Whether a character may start a word. -/
def isWordStart (c : Char) : Bool :=
  c.isAlpha || c == '_'

/-- Whether a character may stand inside a word. -/
def isWordChar (c : Char) : Bool :=
  c.isAlphanum || c == '_'

/-- Whether a text is a word. -/
def isWord : List Char → Bool
  | [] => false
  | c :: cs => isWordStart c && cs.all isWordChar

/-- A text with an underscore in place of every character that is not a word character. -/
def toWordChars (cs : List Char) : List Char :=
  cs.map fun c => if isWordChar c then c else '_'

theorem isWordChar_of_isWordStart {c : Char} (h : isWordStart c = true) : isWordChar c = true := by
  simp only [isWordStart, isWordChar, Char.isAlphanum, Bool.or_eq_true] at *
  exact h.imp_left .inl

theorem isWordChar_of_mem_toWordChars {c : Char} {cs : List Char} (h : c ∈ toWordChars cs) :
    isWordChar c = true := by
  obtain ⟨d, -, rfl⟩ := List.mem_map.1 h
  by_cases hd : isWordChar d = true
  · simp [hd]
  · simpa [hd] using show isWordChar '_' = true by decide

end RouteCatalog.Text
