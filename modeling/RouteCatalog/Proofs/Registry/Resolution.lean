import RouteCatalog.Proofs.Registry.Invariant

/-!
# How names are resolved

`Namespace.Spells` is the grammar of names: words with `::` between them, after one more `::` if the
name starts over at the root, and blanks anywhere. A name that the grammar knows is accepted under
every registered parent, and the words of its path (`Namespace.words`) are its own, after those of
the parent unless it starts over (`Namespace.resolve?_of_spells`); any other name is refused. So a
name can be taken apart at any `::`, and a path can always be reached by its full name.
-/

namespace RouteCatalog

/-! ### Blanks -/

theorem Text.toNat_of_isWordChar {c : Char} (hc : isWordChar c = true) :
    0x30 ≤ c.toNat ∧ c.toNat ≤ 0x7A := by
  have hrange {low high : UInt32} (hval : low ≤ c.val ∧ c.val ≤ high) :
      low.toNat ≤ c.toNat ∧ c.toNat ≤ high.toNat := by
    simpa [UInt32.le_iff_toNat_le] using hval
  rcases Bool.or_eq_true_iff.1 hc with hc | hc
  · rcases Bool.or_eq_true_iff.1 hc with hc | hdigit
    · rcases Bool.or_eq_true_iff.1 hc with hupper | hlower
      · have hupper : 0x41 ≤ c.toNat ∧ c.toNat ≤ 0x5A := hrange (of_decide_eq_true hupper)
        omega
      · have hlower : 0x61 ≤ c.toNat ∧ c.toNat ≤ 0x7A :=
          hrange ((Bool.and_eq_true_iff.1 hlower).imp of_decide_eq_true of_decide_eq_true)
        omega
    · have hdigit : 0x30 ≤ c.toNat ∧ c.toNat ≤ 0x39 :=
        hrange ((Bool.and_eq_true_iff.1 hdigit).imp of_decide_eq_true of_decide_eq_true)
      omega
  · rw [beq_iff_eq.1 hc]
    decide

theorem Text.not_isBlank_of_isWordChar {c : Char} (hc : isWordChar c = true) :
    isBlank c = false := by
  have hrange := toNat_of_isWordChar hc
  rw [← Bool.not_eq_true]
  intro hblank
  simp only [isBlank, blankRanges, List.any_cons, List.any_nil, Bool.or_false, Bool.or_eq_true,
    Bool.and_eq_true, decide_eq_true_eq] at hblank
  omega

theorem Text.compact_append (first second : List Char) :
    compact (first ++ second) = compact first ++ compact second :=
  List.filter_append ..

namespace Namespace

/-! ### The words of a path -/

/-- The parts of a path between its `::` separators; the root has none. -/
def words (path : String) : List String :=
  if path = "" then [] else (segments path.toList).map String.ofList

theorem intercalate_words (path : String) : "::".intercalate (words path) = path := by
  unfold words
  split_ifs with hroot
  · rw [hroot, String.intercalate_nil]
  · apply String.toList_injective
    simp [intercalate_segments, Function.comp_def]

/-- A row of words starts with a word character, so it neither is empty nor starts with `::`. -/
theorem exists_cons_of_isWord {parts : List String} (hne : parts ≠ [])
    (hparts : ∀ part ∈ parts, Text.isWord part.toList = true) :
    ∃ c rest, ("::".intercalate parts).toList = c :: rest ∧ Text.isWordChar c = true := by
  cases parts with
  | nil => exact absurd rfl hne
  | cons part rest =>
    have hpart := hparts part List.mem_cons_self
    obtain ⟨c, cs, hcs⟩ : ∃ c cs, part.toList = c :: cs := by
      apply List.exists_cons_of_ne_nil
      rintro hnil
      rw [hnil] at hpart
      cases hpart
    have hc := Text.isWordChar_of_mem_isWord hpart (hcs ▸ List.mem_cons_self)
    cases rest with
    | nil => exact ⟨c, cs, by rw [String.intercalate_singleton, hcs], hc⟩
    | cons next rest =>
      refine ⟨c, cs ++ "::".toList ++ ("::".intercalate (next :: rest)).toList, ?_, hc⟩
      rw [String.intercalate_cons_cons, String.toList_append, String.toList_append, hcs]
      rfl

theorem words_intercalate {parts : List String}
    (hparts : ∀ part ∈ parts, Text.isWord part.toList = true) :
    words ("::".intercalate parts) = parts := by
  by_cases hne : parts = []
  · rw [hne, String.intercalate_nil]
    rfl
  · obtain ⟨c, rest, hcons, -⟩ := exists_cons_of_isWord hne hparts
    have hpath : "::".intercalate parts ≠ "" := by
      intro hempty
      rw [hempty] at hcons
      cases hcons
    have hcolon : ∀ part ∈ parts.map String.toList, ':' ∉ part := by
      refine List.forall_mem_map.2 fun part hpart hcolon => ?_
      exact absurd (Text.isWordChar_of_mem_isWord (hparts part hpart) hcolon) (by decide)
    have hsegments := segments_intercalate (by simpa using hne) hcolon
    rw [words, if_neg hpath, String.toList_intercalate]
    exact (congrArg (List.map String.ofList) hsegments).trans (by simp [Function.comp_def])

/-- The root and the paths have words for their parts. -/
theorem isWord_of_mem_words {path : String} (hpath : path = "" ∨ IsPath path) :
    ∀ word ∈ words path, Text.isWord word.toList = true := by
  rcases hpath with rfl | ⟨parts, -, hparts, rfl⟩
  · simp [words]
  · rwa [words_intercalate hparts]

/-! ### The grammar of names -/

/-- A name is spelled by words with `::` between them, after one more `::` if it is anchored at the
root. Blanks do not count. -/
structure Spells (name : String) (anchored : Bool) (parts : List String) : Prop where
  ne_nil : parts ≠ []
  isWord : ∀ part ∈ parts, Text.isWord part.toList = true
  compact_eq : String.ofList (Text.compact name.toList) =
    (if anchored then "::" else "") ++ "::".intercalate parts

theorem Spells.isRelativeName {name : String} {anchored : Bool} {parts : List String}
    (hspells : Spells name anchored parts) :
    isRelativeName ("::".intercalate parts).toList = true := by
  rw [isRelativeName_iff_isPath, String.ofList_toList]
  exact ⟨parts, hspells.ne_nil, hspells.isWord, rfl⟩

theorem under_intercalate (parent : String) {parts : List String} (hne : parts ≠ []) :
    under parent ("::".intercalate parts).toList = "::".intercalate (words parent ++ parts) := by
  rw [under, String.ofList_toList]
  by_cases hroot : parent = ""
  · rw [if_pos (by simpa using hroot), words, if_pos hroot, List.nil_append]
  · have hwords : words parent ≠ [] := by
      simpa [words, hroot] using segments_ne_nil parent.toList
    rw [if_neg (by simpa using hroot), String.intercalate_append_of_ne_nil hwords hne,
      intercalate_words]

/-- The path of a name by its words: they come after those of the parent unless it is anchored. -/
def pathOf (parent : String) (anchored : Bool) (parts : List String) : String :=
  "::".intercalate ((if anchored then [] else words parent) ++ parts)

theorem resolve?_of_spells (parent : String) {name : String} {anchored : Bool}
    {parts : List String} (hspells : Spells name anchored parts) :
    resolve? parent name = some (pathOf parent anchored parts) := by
  have hcompact := congrArg String.toList hspells.compact_eq
  rw [String.toList_ofList, String.toList_append] at hcompact
  rw [resolve?, hcompact]
  cases anchored with
  | true =>
    show (if isRelativeName ("::".intercalate parts).toList then
      some (String.ofList ("::".intercalate parts).toList) else none) = _
    rw [if_pos hspells.isRelativeName, String.ofList_toList]
    rfl
  | false =>
    obtain ⟨c, rest, hcons, hc⟩ := exists_cons_of_isWord hspells.ne_nil hspells.isWord
    have hstart : ∀ relative, ("::".intercalate parts).toList ≠ ':' :: ':' :: relative := by
      intro relative hrelative
      rw [hcons] at hrelative
      obtain ⟨rfl, -⟩ := List.cons.inj hrelative
      exact absurd hc (by decide)
    have hunder := under_intercalate parent hspells.ne_nil
    split
    · next relative hrelative => exact absurd hrelative (hstart relative)
    · show (if isRelativeName ("::".intercalate parts).toList then
        some (under parent ("::".intercalate parts).toList) else none) = _
      rw [if_pos hspells.isRelativeName, hunder]
      rfl

theorem Spells.words_pathOf {parent name : String} {anchored : Bool} {parts : List String}
    (hspells : Spells name anchored parts) (hparent : parent = "" ∨ IsPath parent) :
    words (pathOf parent anchored parts) = (if anchored then [] else words parent) ++ parts := by
  refine words_intercalate fun part hpart => ?_
  rcases List.mem_append.1 hpart with hpart | hpart
  · cases anchored with
    | true => cases hpart
    | false => exact isWord_of_mem_words hparent part hpart
  · exact hspells.isWord part hpart

/-- The grammar knows every name that is accepted. -/
theorem exists_spells_of_resolve? {parent name : String}
    (hresolve : (resolve? parent name).isSome = true) :
    ∃ anchored parts, Spells name anchored parts := by
  rw [resolve?_isSome_iff, relativePart] at hresolve
  obtain ⟨parts, hne, hparts, htext⟩ := hresolve
  split at htext
  · next relative hcompact =>
    refine ⟨true, parts, hne, hparts, ?_⟩
    rw [hcompact, if_pos rfl, ← htext]
    apply String.toList_injective
    simp
  · refine ⟨false, parts, hne, hparts, ?_⟩
    rw [htext, if_neg Bool.false_ne_true, String.empty_append]

/-- Two relative names with `::` between them spell the words of both. -/
theorem Spells.append {name next : String} {outer inner : List String}
    (hname : Spells name false outer) (hnext : Spells next false inner) :
    Spells (name ++ "::" ++ next) false (outer ++ inner) where
  ne_nil := by simp [hname.ne_nil]
  isWord part hpart := by
    rcases List.mem_append.1 hpart with hpart | hpart
    · exact hname.isWord part hpart
    · exact hnext.isWord part hpart
  compact_eq := by
    have hcompact : Text.compact "::".toList = "::".toList := by decide
    rw [String.toList_append, String.toList_append, Text.compact_append, Text.compact_append,
      hcompact, String.ofList_append, String.ofList_append, hname.compact_eq, hnext.compact_eq,
      String.intercalate_append_of_ne_nil hname.ne_nil hnext.ne_nil]
    simp

/-- A path with `::` in front of it spells its own words. -/
theorem IsPath.spells {path : String} (hpath : IsPath path) :
    Spells ("::" ++ path) true (words path) where
  ne_nil := by
    obtain ⟨parts, hne, hparts, rfl⟩ := hpath
    rwa [words_intercalate hparts]
  isWord := isWord_of_mem_words (.inr hpath)
  compact_eq := by
    have hcompact : Text.compact ("::" ++ path).toList = ("::" ++ path).toList := by
      refine List.filter_eq_self.2 fun c hc => ?_
      have hblank : Text.isBlank c = false := by
        rw [String.toList_append, List.mem_append] at hc
        rcases hc with hc | hc
        · obtain rfl : c = ':' := by simpa using hc
          decide
        · rcases hpath.isWordChar_or_colon c hc with hword | rfl
          · exact Text.not_isBlank_of_isWordChar hword
          · decide
      rw [hblank]
      rfl
    rw [hcompact, String.ofList_toList, intercalate_words]
    rfl

end Namespace

namespace Registry

variable {registry : Registry} {parent : String}

theorem registerNamespace_of_spells (hparent : parent ∈ registry.owners) {name : String}
    {anchored : Bool} {parts : List String} (hspells : Namespace.Spells name anchored parts)
    (kind : NamespaceKind) (location : Location) :
    registry.registerNamespace parent name kind location =
      (.ok (Namespace.pathOf parent anchored parts), registry.addNamespace
        ⟨Namespace.pathOf parent anchored parts, kind, some location⟩) := by
  rw [registerNamespace_of_owned hparent, Namespace.resolve?_of_spells parent hspells]

theorem registerNamespace_of_not_spells (hparent : parent ∈ registry.owners) {name : String}
    (hspells : ¬∃ anchored parts, Namespace.Spells name anchored parts) (kind : NamespaceKind)
    (location : Location) :
    registry.registerNamespace parent name kind location =
      (.error (.malformedNamespace parent name), registry) := by
  have hnone : Namespace.resolve? parent name = none := by
    rw [← Option.not_isSome_iff_eq_none]
    exact mt Namespace.exists_spells_of_resolve? hspells
  rw [registerNamespace_of_owned hparent, hnone]

/-- What a registry makes of names, under the parents that it knows and under others. -/
structure ReadsNames (registry : Registry) : Prop where
  accepts : ∀ parent ∈ registry.owners, ∀ name kind location,
    (∃ path after, registry.registerNamespace parent name kind location = (.ok path, after)) ↔
      ∃ anchored parts, Namespace.Spells name anchored parts
  resolves : ∀ parent ∈ registry.owners, ∀ name kind location path after,
    registry.registerNamespace parent name kind location = (.ok path, after) →
      path ∈ after.owners ∧ ∀ anchored parts, Namespace.Spells name anchored parts →
        Namespace.words path = (if anchored then [] else Namespace.words parent) ++ parts
  refuses : ∀ parent ∈ registry.owners, ∀ name kind location,
    (¬∃ anchored parts, Namespace.Spells name anchored parts) →
      registry.registerNamespace parent name kind location =
        (.error (.malformedNamespace parent name), registry)
  nests : ∀ parent ∈ registry.owners, ∀ name next outer inner,
    Namespace.Spells name false outer → Namespace.Spells next false inner →
      ∀ kind location nextKind nextLocation wholeKind wholeLocation,
        ∃ middle between path after whole,
          registry.registerNamespace parent name kind location = (.ok middle, between) ∧
            between.registerNamespace middle next nextKind nextLocation = (.ok path, after) ∧
            registry.registerNamespace parent (name ++ "::" ++ next) wholeKind wholeLocation =
              (.ok path, whole)
  reopens : ∀ parent ∈ registry.owners, ∀ path ∈ registry.owners, path ≠ "" →
    ∀ kind location,
      registry.registerNamespace parent ("::" ++ path) kind location = (.ok path, registry)
  unknown : ∀ parent ∉ registry.owners, ∀ name kind location,
    registry.registerNamespace parent name kind location =
      (.error (.unknownNamespace parent), registry)

theorem mem_owners_of_registerNamespace {after : Registry} {name path : String}
    {kind : NamespaceKind} {location : Location}
    (hregister : registry.registerNamespace parent name kind location = (.ok path, after)) :
    path ∈ after.owners := by
  obtain ⟨-, -, ⟨hheld, rfl⟩ | ⟨-, rfl⟩⟩ := registerNamespace_cases hregister
  · exact hheld
  · simp [owners]

theorem WellFormed.nests (hinv : registry.WellFormed) (hparent : parent ∈ registry.owners)
    {name next : String} {outer inner : List String} (hname : Namespace.Spells name false outer)
    (hnext : Namespace.Spells next false inner) (kind nextKind wholeKind : NamespaceKind)
    (location nextLocation wholeLocation : Location) :
    ∃ middle between path after whole,
      registry.registerNamespace parent name kind location = (.ok middle, between) ∧
        between.registerNamespace middle next nextKind nextLocation = (.ok path, after) ∧
        registry.registerNamespace parent (name ++ "::" ++ next) wholeKind wholeLocation =
          (.ok path, whole) := by
  have hfirst := registerNamespace_of_spells hparent hname kind location
  have hsecond := registerNamespace_of_spells (mem_owners_of_registerNamespace hfirst) hnext
    nextKind nextLocation
  have hwhole := registerNamespace_of_spells hparent (hname.append hnext) wholeKind wholeLocation
  have hpath : Namespace.pathOf (Namespace.pathOf parent false outer) false inner =
      Namespace.pathOf parent false (outer ++ inner) := by
    have hwords : Namespace.words (Namespace.pathOf parent false outer) =
        Namespace.words parent ++ outer :=
      hname.words_pathOf (hinv.owners_named parent hparent)
    show "::".intercalate (Namespace.words (Namespace.pathOf parent false outer) ++ inner) =
      "::".intercalate (Namespace.words parent ++ (outer ++ inner))
    rw [hwords, List.append_assoc]
  rw [hpath] at hsecond
  exact ⟨_, _, _, _, _, hfirst, hsecond, hwhole⟩

theorem WellFormed.reopens (hinv : registry.WellFormed) (hparent : parent ∈ registry.owners)
    {path : String} (hpath : path ∈ registry.owners) (hne : path ≠ "") (kind : NamespaceKind)
    (location : Location) :
    registry.registerNamespace parent ("::" ++ path) kind location = (.ok path, registry) := by
  have hspells := ((hinv.owners_named path hpath).resolve_left hne).spells
  have hname : Namespace.pathOf parent true (Namespace.words path) = path :=
    Namespace.intercalate_words path
  rw [registerNamespace_of_spells hparent hspells, hname, addNamespace_eq, if_pos hpath]

/-- **Names are read by their grammar**, in every registry that can be reached: a name is accepted
exactly if the grammar knows it, and it means its own words, after those of the parent unless it
starts over at the root. -/
theorem ofTags_run_readsNames (tags : TagLibrary) (operations : List Operation) :
    ((ofTags tags).run operations).ReadsNames := by
  have hinv : ((ofTags tags).run operations).WellFormed :=
    (wellFormed_ofTags tags).run operations
  refine
    { accepts := fun parent hparent name kind location => ⟨?_, ?_⟩
      resolves := fun parent hparent name kind location path after hregister => ⟨?_, ?_⟩
      refuses := fun parent hparent name kind location hspells =>
        registerNamespace_of_not_spells hparent hspells kind location
      nests := fun parent hparent name next outer inner hname hnext kind location nextKind
          nextLocation wholeKind wholeLocation =>
        hinv.nests hparent hname hnext kind nextKind wholeKind location nextLocation wholeLocation
      reopens := fun parent hparent path hpath hne kind location =>
        hinv.reopens hparent hpath hne kind location
      unknown := fun parent hparent name kind location =>
        registerNamespace_of_not_owned hparent name kind location }
  · rintro ⟨path, after, hregister⟩
    obtain ⟨-, hresolve, -⟩ := registerNamespace_cases hregister
    exact Namespace.exists_spells_of_resolve? (Option.isSome_of_mem hresolve)
  · rintro ⟨anchored, parts, hspells⟩
    exact ⟨_, _, registerNamespace_of_spells hparent hspells kind location⟩
  · exact mem_owners_of_registerNamespace hregister
  · intro anchored parts hspells
    rw [registerNamespace_of_spells hparent hspells] at hregister
    cases hregister
    exact hspells.words_pathOf (hinv.owners_named parent hparent)

/-- A registry with the namespace `Shop::Admin`, which was opened by a name with blanks in it. -/
def shopAdmin : Registry :=
  (ofTags .standard).run [.openNamespace "" "Shop: :Admin" .classBody ⟨⟨[]⟩, 1⟩]

theorem shopAdmin_readsNames :
    let place : Location := ⟨⟨[]⟩, 2⟩
    "Shop::Admin" ∈ shopAdmin.owners ∧ "Shop" ∉ shopAdmin.owners ∧
      Namespace.Spells " A" false ["A"] ∧ Namespace.Spells "B_2 :\t: C" false ["B_2", "C"] ∧
      (¬∃ anchored parts, Namespace.Spells "A:::B" anchored parts) ∧
      (∃ middle between path after whole,
        shopAdmin.registerNamespace "Shop::Admin" " A" .classBody place = (.ok middle, between) ∧
          between.registerNamespace middle "B_2 :\t: C" .moduleBody place = (.ok path, after) ∧
          shopAdmin.registerNamespace "Shop::Admin" " A::B_2 :\t: C" .classBody place =
            (.ok path, whole)) ∧
      shopAdmin.registerNamespace "Shop::Admin" "A:::B" .classBody place =
        (.error (.malformedNamespace "Shop::Admin" "A:::B"), shopAdmin) ∧
      shopAdmin.registerNamespace "" "::Shop::Admin" .moduleBody place =
        (.ok "Shop::Admin", shopAdmin) ∧
      shopAdmin.registerNamespace "Shop" "A" .classBody place =
        (.error (.unknownNamespace "Shop"), shopAdmin) := by
  intro place
  have hreads : shopAdmin.ReadsNames := ofTags_run_readsNames _ _
  have hadmin : "Shop::Admin" ∈ shopAdmin.owners := by decide +kernel
  have hshop : "Shop" ∉ shopAdmin.owners := by decide +kernel
  have hname : Namespace.Spells " A" false ["A"] := ⟨by decide, by decide, by decide +kernel⟩
  have hnext : Namespace.Spells "B_2 :\t: C" false ["B_2", "C"] :=
    ⟨by decide, by decide, by decide +kernel⟩
  have hcolons : ¬∃ anchored parts, Namespace.Spells "A:::B" anchored parts := by
    rintro ⟨anchored, parts, hspells⟩
    have hnone : Namespace.resolve? "" "A:::B" = none := by decide +kernel
    rw [Namespace.resolve?_of_spells "" hspells] at hnone
    cases hnone
  refine ⟨hadmin, hshop, hname, hnext, hcolons, ?_, ?_, ?_, ?_⟩
  · exact hreads.nests _ hadmin _ _ _ _ hname hnext _ _ _ _ _ _
  · exact hreads.refuses _ hadmin _ _ _ hcolons
  · exact hreads.reopens _ (by decide +kernel) _ hadmin (by decide) _ _
  · exact hreads.unknown _ hshop _ _ _

end Registry

end RouteCatalog
