import Mathlib.Data.Finset.Card
import RouteCatalog.Options

/-!
# The last write of an option wins

`Node.Writes` says, child by child, which options a hash writes: what stands as its key, when a
string key is a label, and what stands for a value that is dynamic or missing. The options of the
hash are these writes merged (`Conditions.LastWriteWins`): each key once, where it was first
written, with the value that was written last.
-/

namespace RouteCatalog

namespace Conditions

/-! ### One write -/

theorem lookup_entry (key value sought : Literal) (rest : List (Literal × Literal)) :
    ((key, value) :: rest).lookup sought =
      if sought = key then some value else rest.lookup sought := by
  by_cases hsought : sought = key
  · simp [hsought]
  · simp [List.lookup_cons, beq_false_of_ne hsought, hsought]

theorem map_fst_insertEntry (key value : Literal) (entries : List (Literal × Literal)) :
    (insertEntry key value entries).map Prod.fst =
      if key ∈ entries.map Prod.fst then entries.map Prod.fst
      else entries.map Prod.fst ++ [key] := by
  fun_induction insertEntry key value entries with
  | case1 => simp
  | case2 => simp
  | case3 k v rest hk ih =>
    have hne : key ≠ k := fun heq => hk heq.symm
    rw [List.map_cons, List.map_cons, ih]
    by_cases hrest : key ∈ rest.map Prod.fst
    · rw [if_pos hrest, if_pos (List.mem_cons_of_mem _ hrest)]
    · rw [if_neg hrest, if_neg (by simpa [hne] using hrest), List.cons_append]

theorem lookup_insertEntry (key value sought : Literal) (entries : List (Literal × Literal)) :
    (insertEntry key value entries).lookup sought =
      if sought = key then some value else entries.lookup sought := by
  fun_induction insertEntry key value entries with
  | case1 => rw [lookup_entry]
  | case2 v rest =>
    rw [lookup_entry, lookup_entry]
    split <;> rfl
  | case3 k v rest hk ih =>
    rw [lookup_entry, lookup_entry, ih]
    by_cases hsought : sought = k
    · simp [hsought, hk]
    · simp [hsought]

/-! ### Many writes -/

/-- Conditions are the result of writes: each key once, where it was first written, with the value
that was written last. -/
structure LastWriteWins (written : List (Literal × Literal)) (conditions : Conditions) : Prop where
  keys_nodup : conditions.keys.Nodup
  keys_eq : conditions.keys = (written.map Prod.fst).eraseDups
  get?_eq_some_iff : ∀ key value, conditions.get? key = some value ↔
    ∃ before after, written = before ++ (key, value) :: after ∧ key ∉ after.map Prod.fst
  get?_eq_none_iff : ∀ key, conditions.get? key = none ↔ key ∉ written.map Prod.fst
  size_eq : conditions.size = (written.map Prod.fst).toFinset.card

theorem keys_insert (conditions : Conditions) (key value : Literal) :
    (conditions.insert key value).keys =
      if key ∈ conditions.keys then conditions.keys else conditions.keys ++ [key] :=
  map_fst_insertEntry key value conditions.entries

theorem get?_insert (conditions : Conditions) (key value sought : Literal) :
    (conditions.insert key value).get? sought =
      if sought = key then some value else conditions.get? sought :=
  lookup_insertEntry key value sought conditions.entries

theorem ofList_append_last (written : List (Literal × Literal)) (key value : Literal) :
    ofList (written ++ [(key, value)]) = (ofList written).insert key value := by
  simp [ofList]

theorem keys_ofList (written : List (Literal × Literal)) :
    (ofList written).keys = (written.map Prod.fst).eraseDups := by
  induction written using List.reverseRecOn with
  | nil => rfl
  | append_singleton written entry ih =>
    rw [ofList_append_last, keys_insert, ih, List.map_append, List.eraseDups_append]
    by_cases hkey : entry.1 ∈ written.map Prod.fst
    · simp [List.removeAll, hkey]
    · simp [List.removeAll, hkey, List.eraseDups_cons]

theorem nodup_keys_ofList (written : List (Literal × Literal)) : (ofList written).keys.Nodup := by
  induction written using List.reverseRecOn with
  | nil => exact List.nodup_nil
  | append_singleton written entry ih =>
    rw [ofList_append_last, keys_insert]
    split
    case isTrue => exact ih
    case isFalse hkey => exact List.nodup_append.2 ⟨ih, List.nodup_singleton _, by grind⟩

/-- The value of a key is the first that is found from the end. -/
theorem get?_ofList (written : List (Literal × Literal)) (key : Literal) :
    (ofList written).get? key = written.reverse.lookup key := by
  induction written using List.reverseRecOn with
  | nil => rfl
  | append_singleton written entry ih =>
    rw [ofList_append_last, get?_insert, ih, List.reverse_append, List.reverse_singleton,
      List.singleton_append, lookup_entry]

theorem lastWriteWins_ofList (written : List (Literal × Literal)) :
    LastWriteWins written (ofList written) where
  keys_nodup := nodup_keys_ofList written
  keys_eq := keys_ofList written
  get?_eq_some_iff key value := by
    rw [get?_ofList, List.lookup_eq_some_iff]
    constructor
    · rintro ⟨after, before, hwritten, hafter⟩
      refine ⟨before.reverse, after.reverse, ?_, ?_⟩
      · simpa using congrArg List.reverse hwritten
      · intro hkey
        obtain ⟨entry, hentry, rfl⟩ := List.mem_map.1 hkey
        simpa using hafter entry (List.mem_reverse.1 hentry)
    · rintro ⟨before, after, rfl, hafter⟩
      refine ⟨after.reverse, before.reverse, by simp, ?_⟩
      intro entry hentry
      rw [bne_iff_ne]
      rintro rfl
      exact hafter (List.mem_map_of_mem (List.mem_reverse.1 hentry))
  get?_eq_none_iff key := by
    rw [get?_ofList, List.lookup_eq_none_iff]
    constructor
    · intro hnone hkey
      obtain ⟨entry, hentry, rfl⟩ := List.mem_map.1 hkey
      simpa using hnone entry (List.mem_reverse.2 hentry)
    · intro hkey entry hentry
      rw [bne_iff_ne]
      rintro rfl
      exact hkey (List.mem_map_of_mem (List.mem_reverse.1 hentry))
  size_eq := by
    have hdistinct : (ofList written).keys.toFinset = (written.map Prod.fst).toFinset := by
      ext key
      rw [List.mem_toFinset, List.mem_toFinset, keys_ofList, List.mem_eraseDups]
    rw [← hdistinct, List.toFinset_card_of_nodup (nodup_keys_ofList written), keys, size,
      List.length_map]

end Conditions

namespace Node

/-! ### What a hash writes -/

/-- A key is a string that the colon of a label follows at once. -/
def IsLabel (pair key : Node) : Prop :=
  key.kind = "string" ∧ ∃ rest, pair.source.toList = key.source.toList ++ ':' :: rest

/-- The key that a pair writes: its key as it is read, with a label as a symbol. -/
inductive KeyOf (pair : Node) : Literal → Prop
  | label {key : Node} {name : String} :
    pair.child? "key" = some key → IsLabel pair key → key.literal = .ok (.text name) →
      KeyOf pair (.symbol name)
  | read {key : Node} {value : Literal} :
    pair.child? "key" = some key → ¬IsLabel pair key → key.literal = .ok value → KeyOf pair value

/-- The value that a pair writes under a key: as it is read, by its source if it is dynamic, and by
the content of the key if there is none. -/
inductive ValueOf (pair : Node) (key : Literal) : Literal → Prop
  | read {node : Node} {value : Literal} :
    pair.child? "value" = some node → node.literal = .ok value → ValueOf pair key value
  | dynamic {node : Node} {reason : Dynamic} :
    pair.child? "value" = some node → node.literal = .error reason →
      ValueOf pair key (.raw node.source)
  | missing : pair.child? "value" = none → ValueOf pair key (.raw key.content)

/-- The options that the children of a hash write, in order. -/
inductive Writes : List Node → List (Literal × Literal) → Prop
  | nil : Writes [] []
  | other {child : Node} {rest : List Node} {written : List (Literal × Literal)} :
    child.kind ≠ "pair" → Writes rest written → Writes (child :: rest) written
  | keyless {pair : Node} {rest : List Node} {written : List (Literal × Literal)} :
    pair.kind = "pair" → pair.child? "key" = none → Writes rest written →
      Writes (pair :: rest) written
  | dynamicKey {pair key : Node} {reason : Dynamic} {rest : List Node}
      {written : List (Literal × Literal)} :
    pair.kind = "pair" → pair.child? "key" = some key → key.literal = .error reason →
      Writes rest written → Writes (pair :: rest) written
  | pair {pair : Node} {key value : Literal} {rest : List Node}
      {written : List (Literal × Literal)} :
    pair.kind = "pair" → KeyOf pair key → ValueOf pair key value → Writes rest written →
      Writes (pair :: rest) ((key, value) :: written)

theorem isQuotedLabel_iff (pair key : Node) : isQuotedLabel pair key = true ↔ IsLabel pair key := by
  rw [isQuotedLabel, IsLabel, Bool.and_eq_true, beq_iff_eq]
  refine and_congr_right fun _ => ?_
  constructor
  · intro hlabel
    split at hlabel
    case h_1 rest hrest => exact ⟨rest, (List.isPrefixOf?_eq_some_iff_append_eq.1 hrest).symm⟩
    case h_2 => cases hlabel
  · rintro ⟨rest, hrest⟩
    rw [List.isPrefixOf?_eq_some_iff_append_eq.2 hrest.symm]
    rfl

theorem exists_text_of_literal {node : Node} {value : Literal} (hkind : node.kind = "string")
    (hread : node.literal = .ok value) : ∃ name, value = .text name := by
  rw [literal_eq_ok_iff, literal?, hkind] at hread
  obtain ⟨name, -, rfl⟩ := Option.map_eq_some_iff.1 hread
  exact ⟨name, rfl⟩

theorem keyOf_iff {pair : Node} {key : Literal} : pair.KeyOf key ↔ pair.optionKey? = some key := by
  constructor
  · intro hkey
    cases hkey with
    | label hchild hlabel hread =>
      rw [literal_eq_ok_iff] at hread
      rw [← isQuotedLabel_iff] at hlabel
      simp [optionKey?, hchild, hread, hlabel]
    | read hchild hlabel hread =>
      rw [literal_eq_ok_iff] at hread
      rw [← isQuotedLabel_iff, Bool.not_eq_true] at hlabel
      cases key <;> simp [optionKey?, hchild, hread, hlabel]
  · intro hkey
    simp only [optionKey?, Option.bind_eq_bind, Option.bind_eq_some_iff] at hkey
    obtain ⟨node, hchild, value, hread, hkey⟩ := hkey
    rw [← literal_eq_ok_iff] at hread
    by_cases hlabel : IsLabel pair node
    · obtain ⟨name, rfl⟩ := exists_text_of_literal hlabel.1 hread
      rw [← isQuotedLabel_iff] at hlabel
      obtain rfl : .symbol name = key := by simpa [hlabel] using hkey
      exact .label hchild ((isQuotedLabel_iff pair node).1 hlabel) hread
    · have hunquoted : isQuotedLabel pair node = false := by
        rwa [← Bool.not_eq_true, isQuotedLabel_iff]
      obtain rfl : value = key := by
        cases value <;> simpa [hunquoted] using hkey
      exact .read hchild hlabel hread

theorem valueOf_iff {pair : Node} {key value : Literal} :
    pair.ValueOf key value ↔ pair.optionValue key = value := by
  constructor
  · intro hvalue
    cases hvalue with
    | read hchild hread => simp [optionValue, hchild, literal_eq_ok_iff.1 hread]
    | dynamic hchild hread => simp [optionValue, hchild, (literal_eq_error_iff.1 hread).1]
    | missing hchild => simp [optionValue, hchild]
  · intro hvalue
    cases hchild : pair.child? "value" with
    | none =>
      obtain rfl : .raw key.content = value := by simpa [optionValue, hchild] using hvalue
      exact .missing hchild
    | some node =>
      cases hread : node.literal? with
      | none =>
        obtain rfl : .raw node.source = value := by simpa [optionValue, hchild, hread] using hvalue
        exact .dynamic hchild (literal_eq_error_iff.2 ⟨hread, rfl⟩)
      | some read =>
        obtain rfl : read = value := by simpa [optionValue, hchild, hread] using hvalue
        exact .read hchild (literal_eq_ok_iff.2 hread)

theorem option?_eq_some_iff {pair : Node} {key value : Literal} :
    pair.option? = some (key, value) ↔ pair.KeyOf key ∧ pair.ValueOf key value := by
  rw [keyOf_iff, valueOf_iff, option?, Option.map_eq_some_iff]
  simp

theorem option?_eq_none_iff {pair : Node} :
    pair.option? = none ↔ pair.child? "key" = none ∨
      ∃ key reason, pair.child? "key" = some key ∧ key.literal = .error reason := by
  rw [option?, Option.map_eq_none_iff]
  cases hchild : pair.child? "key" with
  | none => simp [optionKey?, hchild]
  | some key =>
    cases hread : key.literal? with
    | none => simp [optionKey?, hchild, hread, literal_eq_error_iff]
    | some value =>
      have hkey : pair.optionKey? ≠ none := by
        cases value <;> simp [optionKey?, hchild, hread]
        split <;> simp
      simp [hkey, hread, literal_eq_error_iff]

/-- The options that children write are those that are read from them. -/
theorem writes_iff {children : List Node} {written : List (Literal × Literal)} :
    Writes children written ↔
      written = (children.filter (·.kind == "pair")).filterMap option? := by
  constructor
  · intro hwrites
    induction hwrites with
    | nil => rfl
    | other hkind _ ih => simp [hkind, ih]
    | keyless hkind hkey _ ih =>
      have hnone := option?_eq_none_iff.2 (.inl hkey)
      simp [hkind, hnone, ih]
    | dynamicKey hkind hkey hread _ ih =>
      have hnone := option?_eq_none_iff.2 (.inr ⟨_, _, hkey, hread⟩)
      simp [hkind, hnone, ih]
    | pair hkind hkey hvalue _ ih =>
      have hsome := option?_eq_some_iff.2 ⟨hkey, hvalue⟩
      simp [hkind, hsome, ih]
  · rintro rfl
    induction children with
    | nil => exact .nil
    | cons child rest ih =>
      by_cases hkind : child.kind = "pair"
      · cases hoption : child.option? with
        | none =>
          rw [List.filter_cons_of_pos (by simpa using hkind), List.filterMap_cons_none hoption]
          rcases option?_eq_none_iff.1 hoption with hkey | ⟨key, reason, hkey, hread⟩
          · exact .keyless hkind hkey ih
          · exact .dynamicKey hkind hkey hread ih
        | some written =>
          obtain ⟨hkey, hvalue⟩ := option?_eq_some_iff.1 hoption
          rw [List.filter_cons_of_pos (by simpa using hkind), List.filterMap_cons_some hoption]
          exact .pair hkind hkey hvalue ih
      · rw [List.filter_cons_of_neg (by simpa using hkind)]
        exact .other hkind ih

/-- **The last write of an option wins, in the place of the first.** A hash writes one sequence of
options, whatever its children are, and its options are these writes merged. A node of any other
kind has no options. -/
theorem options_lastWriteWins (node : Node) :
    (node.kind = "hash" ∨ node.kind = bareHash →
        (∃! written, Writes node.children written) ∧
          ∀ written, Writes node.children written →
            Conditions.LastWriteWins written node.options) ∧
      (node.kind ≠ "hash" → node.kind ≠ bareHash → node.options = {}) := by
  constructor
  · intro hkind
    refine ⟨⟨_, writes_iff.2 rfl, fun _ => writes_iff.1⟩, fun written hwrites => ?_⟩
    have hholds : node.holdsOptions = true := by simpa [holdsOptions] using hkind
    rw [options, if_pos hholds, ← writes_iff.1 hwrites]
    exact Conditions.lastWriteWins_ofList written
  · intro hhash hbare
    have hholds : ¬node.holdsOptions = true := by simp [holdsOptions, hhash, hbare]
    rw [options, if_neg hholds]

/-- A hash that writes a symbol as a bare and as a quoted label, and a string of its letters. -/
def mixedHash : Node :=
  ⟨"hash", none, "", 1,
    [⟨"pair", none, "a: 1", 1,
        [⟨"hash_key_symbol", some "key", "a", 1, []⟩, ⟨"integer", some "value", "1", 1, []⟩]⟩,
      ⟨"comment", none, "# more", 1, []⟩,
      ⟨"pair", none, "\"a\" => x", 2,
        [⟨"string", some "key", "\"a\"", 2, [⟨"string_content", none, "a", 2, []⟩]⟩,
          ⟨"identifier", some "value", "x", 2, []⟩]⟩,
      ⟨"pair", none, "b:", 3, [⟨"hash_key_symbol", some "key", "b", 3, []⟩]⟩,
      ⟨"pair", none, "\"a\": 2", 4,
        [⟨"string", some "key", "\"a\"", 4, [⟨"string_content", none, "a", 4, []⟩]⟩,
          ⟨"integer", some "value", "2", 4, []⟩]⟩]⟩

theorem options_lastWriteWins_mixedHash :
    ∃ written, Writes mixedHash.children written ∧
      Conditions.LastWriteWins written mixedHash.options ∧
        mixedHash.options.entries =
          [(.symbol "a", .integer 2), (.text "a", .raw "x"), (.symbol "b", .raw "b")] := by
  obtain ⟨⟨written, hwrites, -⟩, hwins⟩ := (options_lastWriteWins mixedHash).1 (.inl rfl)
  exact ⟨written, hwrites, hwins written hwrites, by decide +kernel⟩

end Node

end RouteCatalog
