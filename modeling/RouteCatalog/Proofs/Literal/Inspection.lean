import Mathlib.Tactic.Tauto
import RouteCatalog.Literal.Basic
import RouteCatalog.Proofs.Registry.Names
import RouteCatalog.Proofs.Text.PrefixFree

/-!
# Inspected forms stay apart

The inspected forms of symbols, texts, integers and patterns are told apart by their first
character. A quoted text can be read back (`Text.readEscaped_escape`), and a bare symbol holds no
quote and no comma (`delimiter_not_mem_of_isPlain`), so a form can be split off a text that ends
there or goes on with the comma of a list (`inspect_append_inj`). The source of a pattern may hold
commas of its own, so a pattern must be the last value.
-/

namespace RouteCatalog

namespace Text

/-! ### Quoted texts -/

/-- Reads one character of a text between quotes; `none` at the closing quote. -/
def readEscaped : List Char → Option (Char × List Char)
  | '\\' :: 'x' :: a :: b :: rest =>
    (readNat? 16 [a, b]).map fun code => (Char.ofNat code, rest)
  | '\\' :: 'n' :: rest => some ('\n', rest)
  | '\\' :: 't' :: rest => some ('\t', rest)
  | '\\' :: 'r' :: rest => some ('\r', rest)
  | '\\' :: mark :: rest => some (mark, rest)
  | '"' :: _ => none
  | c :: rest => some (c, rest)
  | [] => none

theorem toNat_lt_of_isControl {c : Char} (hcontrol : isControl c = true) : c.toNat < 0xA0 := by
  simp only [isControl, Bool.or_eq_true, Bool.and_eq_true, decide_eq_true_eq] at hcontrol
  omega

theorem readEscaped_hexUpper {c : Char} (hcontrol : isControl c = true) (rest : List Char) :
    readEscaped ('\\' :: 'x' :: hexUpper 2 c.toNat ++ rest) = some (c, rest) := by
  have hlow := toNat_lt_of_isControl hcontrol
  have hlength : (hexUpper 2 c.toNat).length = 2 := length_hexUpper (by decide) (by omega)
  have hread := readNat?_hexUpper 2 c.toNat
  match hdigits : hexUpper 2 c.toNat, hlength with
  | [a, b], _ =>
    rw [hdigits] at hread
    simp [readEscaped, hread, Char.ofNat_toNat]

theorem readEscaped_plain {c : Char} (hquote : c ≠ '"') (hslash : c ≠ '\\') (rest : List Char) :
    readEscaped (c :: rest) = some (c, rest) := by
  unfold readEscaped
  split <;> simp_all

theorem readEscaped_escape (c : Char) (rest : List Char) :
    readEscaped (escape c ++ rest) = some (c, rest) := by
  unfold escape
  split
  case h_6 hquote hslash _ _ _ =>
    split
    case isTrue hcontrol => exact readEscaped_hexUpper hcontrol rest
    case isFalse => exact readEscaped_plain hquote hslash rest
  all_goals rfl

theorem quote_prefixFree : PrefixFree quote :=
  prefixFree_quoted readEscaped_escape fun _ => rfl

end Text

namespace Literal

/-! ### Bare symbols -/

/-- The characters that no bare symbol holds. -/
def delimiters : List Char :=
  [':', ',', '"']

theorem delimiter_not_mem_operator {name : String} (hname : name ∈ operators) :
    ∀ c ∈ name.toList, c ∉ delimiters := by
  have htable : ∀ name ∈ operators, (name.toList.all fun c => c ∉ delimiters) = true := by decide
  simpa using htable name hname

theorem not_delimiter_of_mark : ∀ c ∈ ['@', '$', '?', '!', '='], c ∉ delimiters := by
  simp [delimiters]

theorem not_delimiter_of_isWordChar {c : Char} (hword : Text.isWordChar c = true) :
    c ∉ delimiters := by
  intro hc
  simp only [delimiters, List.mem_cons, List.not_mem_nil, or_false] at hc
  rcases hc with rfl | rfl | rfl <;> exact absurd hword (by decide)

theorem mem_of_afterSigil? {cs rest : List Char} (hrest : afterSigil? cs = some rest) :
    ∀ c ∈ cs, c ∈ rest ∨ c ∈ ['@', '$'] := by
  intro c hc
  unfold afterSigil? at hrest
  split at hrest <;> simp_all <;> tauto

theorem mem_of_withoutMark {cs : List Char} :
    ∀ c ∈ cs, c ∈ withoutMark cs ∨ c ∈ ['?', '!', '='] := by
  intro c hc
  unfold withoutMark
  split
  case h_1 last hlast =>
    split
    case isTrue hmark =>
      obtain ⟨front, rfl⟩ := List.getLast?_eq_some_iff.1 hlast
      rcases List.mem_append.1 hc with hc | hc
      · exact .inl (by simpa using hc)
      · rw [List.mem_singleton.1 hc]
        exact .inr hmark
    case isFalse => exact .inl hc
  case h_2 => exact .inl hc

/-- A bare symbol holds word characters, sigils, marks and the characters of operators. -/
theorem delimiter_not_mem_of_isPlain {name : String} (hplain : isPlain name = true) :
    ∀ c ∈ name.toList, c ∉ delimiters := by
  intro c hc
  rw [isPlain, Bool.or_eq_true, decide_eq_true_eq] at hplain
  rcases hplain with hoperator | hname
  · exact delimiter_not_mem_operator hoperator c hc
  · split at hname
    case h_1 rest hrest =>
      rcases mem_of_afterSigil? hrest c hc with hc | hc
      · exact not_delimiter_of_isWordChar (Text.isWordChar_of_mem_isWord hname hc)
      · exact not_delimiter_of_mark c (List.mem_append_left _ hc)
    case h_2 =>
      rcases mem_of_withoutMark c hc with hc | hc
      · exact not_delimiter_of_isWordChar (Text.isWordChar_of_mem_isWord hname hc)
      · exact not_delimiter_of_mark c (List.mem_append_right ['@', '$'] hc)

/-! ### Values -/

/-- A symbol, a text or an integer: a value whose inspected form ends by itself in a list. -/
def isScalar : Literal → Bool
  | symbol _ | text _ | integer _ => true
  | pattern _ | raw _ => false

/-- A value that is known without running the program. -/
def isKnown : Literal → Bool
  | symbol _ | text _ | integer _ | pattern _ => true
  | raw _ => false

/-- What may follow a value: the end of the text or a comma, and after a pattern only the end. -/
def EndsAt (value : Literal) (rest : List Char) : Prop :=
  (∀ c ∈ rest.head?, c = ',') ∧ (value.isScalar = true ∨ rest = [])

/-- The character that tells the kind of a value, unless it is an integer. -/
def opening? : Literal → Option Char
  | symbol _ => some ':'
  | text _ => some '"'
  | pattern _ => some '('
  | integer _ | raw _ => none

/-- A symbol without the colon in front. -/
def symbolText (name : String) : List Char :=
  if isPlain name then name.toList else Text.quote name.toList

theorem toList_inspect_symbol (name : String) :
    (inspect (symbol name)).toList = ':' :: symbolText name := by
  rw [inspect, symbolText]
  split <;> simp

theorem symbolText_append_inj {name other : String} {rest others : List Char}
    (hrest : ∀ c ∈ rest.head?, c = ',') (hothers : ∀ c ∈ others.head?, c = ',')
    (heq : symbolText name ++ rest = symbolText other ++ others) :
    name = other ∧ rest = others := by
  -- A bare symbol does not start with the quote of the other form.
  have hquoted : ∀ {bare : String} {after before : List Char} (quoted : List Char),
      isPlain bare = true → (∀ c ∈ after.head?, c = ',') →
        bare.toList ++ after ≠ Text.quote quoted ++ before := by
    intro bare after before quoted hplain hafter heq
    have hbreak : '"' ∉ after.head? := fun hquote => absurd (hafter _ hquote) (by decide)
    cases hbare : bare.toList with
    | nil =>
      rw [hbare, List.nil_append] at heq
      exact hbreak (by simp [heq, Text.quote])
    | cons c cs =>
      rw [hbare] at heq
      obtain ⟨rfl, -⟩ := List.cons.inj heq
      exact delimiter_not_mem_of_isPlain hplain '"' (by simp [hbare]) (by decide)
  unfold symbolText at heq
  split at heq
  case isTrue hplain =>
    split at heq
    case isTrue hotherPlain =>
      have hcomma : ∀ {bare : String}, isPlain bare = true → ',' ∉ bare.toList :=
        fun hbare hc => delimiter_not_mem_of_isPlain hbare ',' hc (by decide)
      obtain ⟨hnames, hrests⟩ := Text.upTo_append_inj (hcomma hplain) (hcomma hotherPlain)
        hrest hothers heq
      exact ⟨String.toList_injective hnames, hrests⟩
    case isFalse => exact absurd heq (hquoted _ hplain hrest)
  case isFalse =>
    split at heq
    case isTrue hotherPlain => exact absurd heq.symm (hquoted _ hotherPlain hothers)
    case isFalse =>
      obtain ⟨hnames, hrests⟩ := Text.quote_prefixFree heq
      exact ⟨String.toList_injective hnames, hrests⟩

theorem head?_intText (n : Int) (rest : List Char) :
    ∃ c, ((Text.intText n).toList ++ rest).head? = some c ∧ c ∉ [':', '"', '('] := by
  cases n with
  | ofNat n =>
    obtain ⟨d, digits, hdigits, hd⟩ := Text.natText_eq_cons n
    refine ⟨d, by simp [Text.intText, hdigits], ?_⟩
    intro hmem
    simp only [List.mem_cons, List.not_mem_nil, or_false] at hmem
    rcases hmem with rfl | rfl | rfl <;> exact absurd hd (by decide)
  | negSucc n => exact ⟨'-', by simp [Text.intText], by decide⟩

theorem opening?_eq {value : Literal} (hknown : value.isKnown = true) (rest : List Char) :
    value.opening? = (value.inspect.toList ++ rest).head?.filter (· ∈ [':', '"', '(']) := by
  cases value with
  | symbol name =>
    rw [toList_inspect_symbol]
    rfl
  | text content => simp [opening?, inspect, Text.quote, Option.filter_some]
  | integer n =>
    obtain ⟨c, hhead, hc⟩ := head?_intText n.toInt rest
    rw [inspect, hhead, Option.filter_some, if_neg (by simpa using hc)]
    rfl
  | pattern source => simp [opening?, inspect, Option.filter_some]
  | raw source => cases hknown

/-- The inspected form of a value can be split off a text that ends there. -/
theorem inspect_append_inj {value other : Literal} {rest others : List Char}
    (hvalue : value.isKnown = true) (hother : other.isKnown = true)
    (hrest : value.EndsAt rest) (hothers : other.EndsAt others)
    (heq : value.inspect.toList ++ rest = other.inspect.toList ++ others) :
    value = other ∧ rest = others := by
  have hkind : value.opening? = other.opening? := by
    rw [opening?_eq hvalue rest, heq, ← opening?_eq hother]
  have hdigit : ∀ {after : List Char}, (∀ c ∈ after.head?, c = ',') → Text.NoDigitAhead after := by
    intro after hafter c hc
    rw [hafter c hc]
    decide
  cases value with
  | symbol name =>
    cases other with
    | symbol otherName =>
      rw [toList_inspect_symbol, toList_inspect_symbol, List.cons_append, List.cons_append] at heq
      obtain ⟨rfl, hrests⟩ := symbolText_append_inj hrest.1 hothers.1 (List.cons.inj heq).2
      exact ⟨rfl, hrests⟩
    | _ => cases hkind
  | text content =>
    cases other with
    | text otherContent =>
      rw [inspect, inspect, String.toList_ofList, String.toList_ofList] at heq
      obtain ⟨hcontents, hrests⟩ := Text.quote_prefixFree heq
      rw [String.toList_injective hcontents]
      exact ⟨rfl, hrests⟩
    | _ => cases hkind
  | integer n =>
    cases other with
    | integer m =>
      obtain ⟨hints, hrests⟩ := Text.intText_append_inj (hdigit hrest.1) (hdigit hothers.1) heq
      rw [Int64.toInt_inj.1 hints]
      exact ⟨rfl, hrests⟩
    | raw source => cases hother
    | _ => cases hkind
  | pattern source =>
    cases other with
    | pattern otherSource =>
      obtain rfl : rest = [] := by simpa [isScalar] using hrest.2
      obtain rfl : others = [] := by simpa [isScalar] using hothers.2
      have hsources : source = otherSource := by
        apply String.toList_injective
        simpa [inspect] using heq
      rw [hsources]
      exact ⟨rfl, rfl⟩
    | _ => cases hkind
  | raw source => cases hvalue

theorem inspect_inj {value other : Literal} (hvalue : value.isKnown = true)
    (hother : other.isKnown = true) (heq : value.inspect = other.inspect) : value = other := by
  have hend : ∀ literal : Literal, literal.EndsAt [] := fun _ => ⟨by simp, .inr rfl⟩
  exact (inspect_append_inj hvalue hother (hend _) (hend _) (by rw [heq])).1

/-! ### Lists of values -/

/-- Arguments whose inspected form can be read in one way: scalars in any number, or one value that
may in addition be a pattern. -/
def Legible (values : List Literal) : Prop :=
  (∀ value ∈ values, value.isScalar = true) ∨ ∃ value, values = [value] ∧ value.isKnown = true

/-- The values of a list after the first, each with the comma in front. -/
def inspectMore (values : List Literal) : List Char :=
  values.flatMap fun value => ',' :: ' ' :: value.inspect.toList

theorem head?_inspectMore (values : List Literal) : ∀ c ∈ (inspectMore values).head?, c = ',' := by
  cases values <;> simp [inspectMore]

theorem toList_inspectAll_cons (value : Literal) (values : List Literal) :
    (inspectAll (value :: values)).toList = value.inspect.toList ++ inspectMore values := by
  induction values generalizing value with
  | nil => simp [inspectAll, inspectMore]
  | cons next rest ih =>
    have hnext := ih next
    simp only [inspectAll, String.toList_intercalate, List.map_cons] at hnext ⊢
    rw [List.intercalate_cons_cons, hnext]
    simp [inspectMore]

theorem isKnown_of_isScalar {value : Literal} (hscalar : value.isScalar = true) :
    value.isKnown = true := by
  cases value <;> simp_all [isScalar, isKnown]

theorem Legible.cons {value : Literal} {rest : List Literal} (hvalues : Legible (value :: rest)) :
    value.isKnown = true ∧ value.EndsAt (inspectMore rest) ∧ Legible rest := by
  rcases hvalues with hscalars | ⟨only, hvalues, hknown⟩
  · obtain ⟨hvalue, hrest⟩ := List.forall_mem_cons.1 hscalars
    exact ⟨isKnown_of_isScalar hvalue, ⟨head?_inspectMore rest, .inl hvalue⟩, .inl hrest⟩
  · obtain ⟨rfl, rfl⟩ := List.cons.inj hvalues
    exact ⟨hknown, ⟨head?_inspectMore [], .inr rfl⟩, .inl (by simp)⟩

theorem inspectMore_inj {values others : List Literal} (hvalues : Legible values)
    (hothers : Legible others) (heq : inspectMore values = inspectMore others) :
    values = others := by
  induction values generalizing others with
  | nil =>
    cases others with
    | nil => rfl
    | cons => simp [inspectMore] at heq
  | cons value rest ih =>
    cases others with
    | nil => simp [inspectMore] at heq
    | cons other more =>
      obtain ⟨hknown, hends, hrest⟩ := hvalues.cons
      obtain ⟨hotherKnown, hotherEnds, hmore⟩ := hothers.cons
      have hforms : value.inspect.toList ++ inspectMore rest =
          other.inspect.toList ++ inspectMore more := by
        simpa [inspectMore] using heq
      obtain ⟨rfl, hrests⟩ := inspect_append_inj hknown hotherKnown hends hotherEnds hforms
      rw [ih hrest hmore hrests]

theorem toList_inspect_ne_nil {value : Literal} (hknown : value.isKnown = true) :
    value.inspect.toList ≠ [] := by
  cases value with
  | symbol name => simp [toList_inspect_symbol]
  | text content => simp [inspect, Text.quote]
  | integer n =>
    obtain ⟨c, hhead, -⟩ := head?_intText n.toInt []
    rintro hnil
    rw [List.append_nil] at hhead
    rw [inspect] at hnil
    simp [hnil] at hhead
  | pattern source => simp [inspect]
  | raw source => cases hknown

theorem inspectAll_inj {values others : List Literal} (hvalues : Legible values)
    (hothers : Legible others) (heq : inspectAll values = inspectAll others) :
    values = others := by
  have hempty : ∀ {value : Literal} {rest : List Literal}, Legible (value :: rest) →
      inspectAll (value :: rest) ≠ inspectAll [] := by
    intro value rest hlist hnil
    have hform := congrArg String.toList hnil
    rw [toList_inspectAll_cons] at hform
    exact toList_inspect_ne_nil hlist.cons.1 (List.append_eq_nil_iff.1 hform).1
  cases values with
  | nil =>
    cases others with
    | nil => rfl
    | cons => exact absurd heq.symm (hempty hothers)
  | cons value rest =>
    cases others with
    | nil => exact absurd heq (hempty hvalues)
    | cons other more =>
      apply inspectMore_inj hvalues hothers
      have hforms := congrArg String.toList heq
      rw [toList_inspectAll_cons, toList_inspectAll_cons] at hforms
      simpa [inspectMore] using hforms

end Literal

end RouteCatalog
