import Mathlib.Tactic.SplitIfs
import RouteCatalog.Namespace

/-!
# Namespace paths

A path is one or more words with `::` between them (`Namespace.IsPath`). Cutting a name at its
separators and joining the parts again gives the name back (`Namespace.intercalate_segments`), so
what `Namespace.resolve?` accepts is a path wherever its parent is the root or a path.
-/

namespace RouteCatalog

/-- What holds of the characters of a separator and of all parts holds of the joined text. -/
theorem Text.forall_mem_intercalate {P : Char → Prop} {separator : List Char}
    {parts : List (List Char)} (hseparator : ∀ c ∈ separator, P c)
    (hparts : ∀ part ∈ parts, ∀ c ∈ part, P c) : ∀ c ∈ separator.intercalate parts, P c := by
  induction parts with
  | nil => simp
  | cons part rest ih =>
    have hpart := hparts part List.mem_cons_self
    have hrest := ih fun other hother => hparts other (List.mem_cons_of_mem _ hother)
    cases rest with
    | nil => simpa using hpart
    | cons next rest =>
      intro c hc
      rw [List.intercalate_cons_cons] at hc
      rcases List.mem_append.1 hc with hc | hc
      · rcases List.mem_append.1 hc with hc | hc
        · exact hpart c hc
        · exact hseparator c hc
      · exact hrest c hc

theorem Text.isWordChar_of_mem_isWord {word : List Char} {c : Char} (hword : isWord word = true)
    (hc : c ∈ word) : isWordChar c = true := by
  cases word with
  | nil => simp at hc
  | cons first rest =>
    rw [isWord, Bool.and_eq_true] at hword
    rcases List.mem_cons.1 hc with rfl | hc
    · exact isWordChar_of_isWordStart hword.1
    · exact List.all_eq_true.1 hword.2 c hc

namespace Namespace

/-- One or more words with `::` between them. -/
def IsPath (path : String) : Prop :=
  ∃ words : List String, words ≠ [] ∧ (∀ word ∈ words, Text.isWord word.toList = true) ∧
    path = "::".intercalate words

/-! ### Segments -/

theorem segments_ne_nil (cs : List Char) : segments cs ≠ [] := by
  fun_cases segments cs <;> simp

theorem intercalate_segments (cs : List Char) : [':', ':'].intercalate (segments cs) = cs := by
  fun_induction segments cs with
  | case1 => rfl
  | case2 cs ih => rw [List.intercalate_cons_of_ne_nil (segments_ne_nil cs), ih]; rfl
  | case3 c cs _ hnil => exact absurd hnil (segments_ne_nil cs)
  | case4 c cs _ segment rest hcons ih =>
    rw [hcons] at ih
    cases rest with
    | nil => simpa using ih
    | cons next rest =>
      rw [List.intercalate_cons_cons] at ih ⊢
      rw [← ih]
      rfl

theorem isPath_of_isRelativeName {name : List Char} (hname : isRelativeName name = true) :
    IsPath (String.ofList name) := by
  refine ⟨(segments name).map String.ofList, ?_, ?_, ?_⟩
  · simpa using segments_ne_nil name
  · intro word hword
    obtain ⟨segment, hsegment, rfl⟩ := List.mem_map.1 hword
    rw [String.toList_ofList]
    exact List.all_eq_true.1 hname segment hsegment
  · apply String.toList_injective
    simp [intercalate_segments, Function.comp_def]

/-- Cutting at the first separator of a text that starts with a part free of colons. -/
theorem segments_append {part : List Char} (hpart : ':' ∉ part) (cs : List Char) :
    segments part = [part] ∧ segments (part ++ ':' :: ':' :: cs) = part :: segments cs := by
  induction part with
  | nil => simp [segments]
  | cons c part ih =>
    rw [List.mem_cons, not_or] at hpart
    obtain ⟨hlast, hcut⟩ := ih hpart.2
    constructor
    · rw [segments, hlast]
      exact fun _ hcolon _ => hpart.1 hcolon.symm
    · rw [List.cons_append, segments, hcut]
      exact fun _ hcolon _ => hpart.1 hcolon.symm

theorem segments_intercalate {parts : List (List Char)} (hne : parts ≠ [])
    (hparts : ∀ part ∈ parts, ':' ∉ part) : segments ([':', ':'].intercalate parts) = parts := by
  induction parts with
  | nil => exact absurd rfl hne
  | cons part rest ih =>
    have hpart := segments_append (hparts part List.mem_cons_self)
    cases rest with
    | nil => rw [List.intercalate_singleton, (hpart []).1]
    | cons next rest =>
      have hrest := ih (List.cons_ne_nil _ _) fun other hother =>
        hparts other (List.mem_cons_of_mem _ hother)
      rw [List.intercalate_cons_cons, List.append_assoc]
      exact (hpart _).2.trans (congrArg (part :: ·) hrest)

theorem isRelativeName_iff_isPath {name : List Char} :
    isRelativeName name = true ↔ IsPath (String.ofList name) := by
  refine ⟨isPath_of_isRelativeName, ?_⟩
  rintro ⟨words, hne, hwords, hname⟩
  have hlists : name = [':', ':'].intercalate (words.map String.toList) := by
    have hlists := congrArg String.toList hname
    rwa [String.toList_ofList, String.toList_intercalate] at hlists
  have hcolon : ∀ part ∈ words.map String.toList, ':' ∉ part := by
    refine List.forall_mem_map.2 fun word hword hcolon => ?_
    have hchar := Text.isWordChar_of_mem_isWord (hwords word hword) hcolon
    exact absurd hchar (by decide)
  rw [isRelativeName, hlists, segments_intercalate (by simpa using hne) hcolon, List.all_map,
    List.all_eq_true]
  exact hwords

/-! ### Resolved names -/

/-- The words of a name as it is written: without blanks, and without a separator in front. -/
def relativePart (name : String) : List Char :=
  match Text.compact name.toList with
  | ':' :: ':' :: relative => relative
  | relative => relative

/-- A name is accepted under any parent, or under none. -/
theorem resolve?_isSome_iff (parent : String) {name : String} :
    (resolve? parent name).isSome = true ↔ IsPath (String.ofList (relativePart name)) := by
  rw [← isRelativeName_iff_isPath, resolve?, relativePart]
  generalize Text.compact name.toList = written
  split <;> simp

theorem IsPath.append {parent path : String} (hparent : IsPath parent) (hpath : IsPath path) :
    IsPath (parent ++ "::" ++ path) := by
  obtain ⟨outer, houter, houterWords, rfl⟩ := hparent
  obtain ⟨inner, hinner, hinnerWords, rfl⟩ := hpath
  refine ⟨outer ++ inner, by simp [houter], ?_, ?_⟩
  · intro word hword
    rcases List.mem_append.1 hword with hword | hword
    · exact houterWords word hword
    · exact hinnerWords word hword
  · rw [String.intercalate_append_of_ne_nil houter hinner]

/-- A name that is accepted under the root or under a path means a path. -/
theorem isPath_of_resolve? {parent name path : String} (hparent : parent = "" ∨ IsPath parent)
    (hresolve : resolve? parent name = some path) : IsPath path := by
  unfold resolve? at hresolve
  split at hresolve
  · split_ifs at hresolve with hname
    obtain rfl := Option.some.inj hresolve
    exact isPath_of_isRelativeName hname
  · split_ifs at hresolve with hname
    obtain rfl := Option.some.inj hresolve
    have hrelative := isPath_of_isRelativeName hname
    rcases hparent with rfl | hparent
    · exact hrelative
    · unfold under
      split
      · exact hrelative
      · exact hparent.append hrelative

/-! ### Characters of a path -/

/-- A path has word characters and colons only. -/
theorem IsPath.isWordChar_or_colon {path : String} (hpath : IsPath path) :
    ∀ c ∈ path.toList, Text.isWordChar c = true ∨ c = ':' := by
  obtain ⟨words, -, hwords, rfl⟩ := hpath
  rw [String.toList_intercalate]
  apply Text.forall_mem_intercalate
  · intro c hc
    right
    simpa using hc
  · intro part hpart c hc
    obtain ⟨word, hword, rfl⟩ := List.mem_map.1 hpart
    left
    exact Text.isWordChar_of_mem_isWord (hwords word hword) hc

/-- The mark between a namespace and the name of a record stands in no path. -/
theorem IsPath.hash_not_mem {path : String} (hpath : IsPath path) : '#' ∉ path.toList := by
  intro hhash
  rcases hpath.isWordChar_or_colon '#' hhash with hword | hcolon
  · exact absurd hword (by decide)
  · exact absurd hcolon (by decide)

end Namespace

end RouteCatalog
