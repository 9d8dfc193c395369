import RouteCatalog.Proofs.Text.Numeral

/-!
# Prefix-free written forms

A written form is prefix-free when it can be split off the front of any longer text, so that forms
put one after the other stay apart. Quoted text is prefix-free if its characters can be read back
one at a time and none of them is read from a bare quote (`prefixFree_quoted`). A run of one class
of characters is not: it stays apart only from what does not go on with the class
(`run_append_inj`), as a number in decimal from what does not start with a digit
(`natText_append_inj`).
-/

namespace RouteCatalog.Text

variable {α : Type}

/-- A written form that can be split off the front of any longer text. -/
def PrefixFree (code : α → List Char) : Prop :=
  ∀ ⦃a b : α⦄ ⦃rest others : List Char⦄, code a ++ rest = code b ++ others → a = b ∧ rest = others

theorem PrefixFree.comp {β : Type} {code : β → List Char} (hfree : PrefixFree code) {f : α → β}
    (hf : Function.Injective f) : PrefixFree (code ∘ f) := by
  intro a b rest others heq
  obtain ⟨hab, hrest⟩ := hfree heq
  exact ⟨hf hab, hrest⟩

theorem PrefixFree.injective {code : α → List Char} (hfree : PrefixFree code) :
    Function.Injective code := by
  intro a b heq
  exact (hfree (congrArg (· ++ []) heq)).1

/-- Two runs of one class of characters, each followed by what does not go on with the class. -/
theorem run_append_inj {inClass : Char → Bool} {run other rest others : List Char}
    (hrun : ∀ c ∈ run, inClass c = true) (hother : ∀ c ∈ other, inClass c = true)
    (hrest : ∀ c ∈ rest.head?, inClass c = false) (hothers : ∀ c ∈ others.head?, inClass c = false)
    (heq : run ++ rest = other ++ others) : run = other ∧ rest = others := by
  have htake : ∀ {cs ds : List Char}, (∀ c ∈ cs, inClass c = true) →
      (∀ c ∈ ds.head?, inClass c = false) → (cs ++ ds).takeWhile inClass = cs := by
    intro cs ds hcs hds
    rw [List.takeWhile_append_of_pos hcs]
    cases ds with
    | nil => simp
    | cons d ds => simp [hds d (by simp)]
  have hruns : run = other := by
    rw [← htake hrun hrest, heq, htake hother hothers]
  rw [hruns] at heq
  exact ⟨hruns, List.append_cancel_left heq⟩

/-- Two texts up to a mark, each followed by the mark or by nothing. -/
theorem upTo_append_inj {mark : Char} {run other rest others : List Char} (hrun : mark ∉ run)
    (hother : mark ∉ other) (hrest : ∀ c ∈ rest.head?, c = mark)
    (hothers : ∀ c ∈ others.head?, c = mark) (heq : run ++ rest = other ++ others) :
    run = other ∧ rest = others := by
  have hfree : ∀ {cs : List Char}, mark ∉ cs → ∀ c ∈ cs, (c != mark) = true := by
    intro cs hcs c hc
    rw [bne_iff_ne]
    rintro rfl
    exact hcs hc
  exact run_append_inj (hfree hrun) (hfree hother) (fun c hc => by simp [hrest c hc])
    (fun c hc => by simp [hothers c hc]) heq

section Quoted

variable {escape : Char → List Char} {read : List Char → Option (Char × List Char)}

theorem flatMap_append_quote_inj (hread : ∀ c rest, read (escape c ++ rest) = some (c, rest))
    (hquote : ∀ rest, read ('"' :: rest) = none) {cs ds rest others : List Char}
    (heq : cs.flatMap escape ++ '"' :: rest = ds.flatMap escape ++ '"' :: others) :
    cs = ds ∧ rest = others := by
  -- Reading one character from both texts gives a character of both, or ends both at the quote.
  induction cs generalizing ds with
  | nil =>
    cases ds with
    | nil => simpa using heq
    | cons d ds =>
      rw [List.flatMap_nil, List.nil_append, List.flatMap_cons, List.append_assoc] at heq
      have hnone := hquote rest
      rw [heq, hread] at hnone
      cases hnone
  | cons c cs ih =>
    rw [List.flatMap_cons, List.append_assoc] at heq
    have hsome := hread c (cs.flatMap escape ++ '"' :: rest)
    rw [heq] at hsome
    cases ds with
    | nil =>
      rw [List.flatMap_nil, List.nil_append, hquote] at hsome
      cases hsome
    | cons d ds =>
      rw [List.flatMap_cons, List.append_assoc, hread] at hsome
      obtain ⟨rfl, htail⟩ := Prod.mk.inj (Option.some.inj hsome)
      obtain ⟨rfl, hrest⟩ := ih htail.symm
      exact ⟨rfl, hrest⟩

theorem prefixFree_quoted (hread : ∀ c rest, read (escape c ++ rest) = some (c, rest))
    (hquote : ∀ rest, read ('"' :: rest) = none) :
    PrefixFree fun cs : List Char => '"' :: cs.flatMap escape ++ ['"'] := by
  intro cs ds rest others heq
  apply flatMap_append_quote_inj hread hquote
  simpa using heq

end Quoted

section Decimal

/-- A text that does not start with a digit. -/
def NoDigitAhead (rest : List Char) : Prop :=
  ∀ c ∈ rest.head?, c.isDigit = false

theorem noDigitAhead_cons {c : Char} (hc : c.isDigit = false) (rest : List Char) :
    NoDigitAhead (c :: rest) := by
  intro d hd
  obtain rfl : c = d := by simpa using hd
  exact hc

theorem natText_eq_cons (n : Nat) :
    ∃ d digits, (natText n).toList = d :: digits ∧ d.isDigit = true := by
  cases hdigits : (natText n).toList with
  | nil =>
    rw [natText, String.toList_ofList] at hdigits
    exact absurd hdigits Nat.toDigits_ne_nil
  | cons d digits =>
    refine ⟨d, digits, rfl, isDigit_of_mem_natText (n := n) ?_⟩
    rw [hdigits]
    exact List.mem_cons_self

theorem natText_append_inj {m n : Nat} {rest others : List Char} (hrest : NoDigitAhead rest)
    (hothers : NoDigitAhead others)
    (heq : (natText m).toList ++ rest = (natText n).toList ++ others) : m = n ∧ rest = others := by
  obtain ⟨hdigits, hrests⟩ := run_append_inj (fun c => isDigit_of_mem_natText)
    (fun c => isDigit_of_mem_natText) hrest hothers heq
  have hread := readNat?_natText m
  rw [hdigits, readNat?_natText] at hread
  exact ⟨(Option.some.inj hread).symm, hrests⟩

theorem intText_append_inj {m n : Int} {rest others : List Char} (hrest : NoDigitAhead rest)
    (hothers : NoDigitAhead others)
    (heq : (intText m).toList ++ rest = (intText n).toList ++ others) : m = n ∧ rest = others := by
  -- A minus sign is no digit, so it tells the two forms apart.
  have hsign : ∀ (k : Nat) (after before : List Char),
      (natText k).toList ++ after ≠ '-' :: before := by
    intro k after before heq
    obtain ⟨d, digits, hdigits, hd⟩ := natText_eq_cons k
    rw [hdigits, List.cons_append] at heq
    obtain ⟨rfl, -⟩ := List.cons.inj heq
    exact absurd hd (by decide)
  cases m with
  | ofNat m =>
    cases n with
    | ofNat n =>
      obtain ⟨rfl, hrests⟩ := natText_append_inj hrest hothers heq
      exact ⟨rfl, hrests⟩
    | negSucc n => exact absurd (by simpa [intText] using heq) (hsign m rest _)
  | negSucc m =>
    cases n with
    | ofNat n => exact absurd (by simpa [intText] using heq.symm) (hsign n others _)
    | negSucc n =>
      have hdigits : (natText (m + 1)).toList ++ rest = (natText (n + 1)).toList ++ others := by
        simpa [intText] using heq
      obtain ⟨hsucc, hrests⟩ := natText_append_inj hrest hothers hdigits
      obtain rfl : m = n := by omega
      exact ⟨rfl, hrests⟩

end Decimal

end RouteCatalog.Text
