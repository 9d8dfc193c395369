import Mathlib.Data.List.Basic
import Mathlib.Tactic.MkIffOfInductiveProp
import RouteCatalog.Project.Entry

/-!
# Where paths lead

The path of an entry of a directory leads to that entry (`Entry.locate_join`), and so the path below
a directory that is put together from names leads to the entry at that place (`Entry.locate_below`).
`Entry.IsTree` says which values are file trees as they stand on a disk: the entries of a directory
have names of their own, and no name is mistaken for something else when it becomes part of a path.
-/

namespace RouteCatalog

/-- A name that an entry of a directory can have: it is neither empty nor dots that mean a directory,
and it does not fall apart in a path. -/
@[mk_iff]
structure IsEntryName (name : Name) : Prop where
  ne_nil : name ≠ []
  ne_here : name ≠ Path.here
  ne_up : name ≠ Path.up
  separator_not_mem : Path.separator ∉ name

instance (name : Name) : Decidable (IsEntryName name) :=
  decidable_of_iff' _ (isEntryName_iff name)

namespace Path

/-! ### The segments of a path -/

theorem exists_segmentsOf_eq (bytes : List UInt8) :
    ∃ first rest, segmentsOf bytes = first :: rest := by
  cases bytes with
  | nil => exact ⟨[], [], rfl⟩
  | cons byte bytes =>
    rw [segmentsOf]
    split
    · exact ⟨_, _, rfl⟩
    · split <;> exact ⟨_, _, rfl⟩

theorem segmentsOf_append (front back : List UInt8) :
    segmentsOf (front ++ separator :: back) = segmentsOf front ++ segmentsOf back := by
  induction front with
  | nil => rfl
  | cons byte front ih =>
    obtain ⟨first, rest, hfront⟩ := exists_segmentsOf_eq front
    rw [List.cons_append, segmentsOf, segmentsOf, ih, hfront]
    by_cases hbyte : byte = separator
    · simp [hbyte]
    · simp [hbyte]

theorem segmentsOf_of_not_mem {name : List UInt8} (hname : separator ∉ name) :
    segmentsOf name = [name] := by
  induction name with
  | nil => rfl
  | cons byte name ih =>
    rw [List.mem_cons, not_or] at hname
    rw [segmentsOf, ih hname.2]
    simp [Ne.symm hname.1]

/-- A name follows the segments of the directory, in place of the empty one after a final
separator. -/
theorem exists_segments_join (path : Path) {name : Name} (hname : IsEntryName name) :
    ∃ front back, (path.join name).segments = front ++ [name] ∧ path.segments = front ++ back ∧
      (back = [] ∨ back = [[]]) := by
  have hsegments : segmentsOf name = [name] := segmentsOf_of_not_mem hname.separator_not_mem
  obtain ⟨bytes⟩ := path
  rcases List.eq_nil_or_concat' bytes with rfl | ⟨front, last, rfl⟩
  · exact ⟨[], [[]], hsegments, rfl, .inr rfl⟩
  · by_cases hlast : last = separator
    · subst hlast
      refine ⟨segmentsOf front, [[]], ?_, segmentsOf_append front [], .inr rfl⟩
      simp [join, segments, segmentsOf_append, hsegments]
    · refine ⟨segmentsOf (front ++ [last]), [], ?_, (List.append_nil _).symm, .inl rfl⟩
      have happend := segmentsOf_append (front ++ [last]) name
      rw [hsegments] at happend
      simpa [join, segments, hlast] using happend

theorem bytes_join_ne_nil (path : Path) {name : Name} (hname : IsEntryName name) :
    (path.join name).bytes ≠ [] := by
  intro hnil
  obtain ⟨front, back, hjoin, -, -⟩ := exists_segments_join path hname
  have hempty : [] ++ [[]] = front ++ [name] := by
    rw [← hjoin, segments, hnil]
    rfl
  exact hname.ne_nil (List.singleton_inj.1 (List.append_inj_right' hempty rfl)).symm

theorem steps_join (path : Path) {name : Name} (hname : IsEntryName name) :
    (path.join name).steps = path.steps ++ [name] := by
  obtain ⟨front, back, hjoin, hpath, hback⟩ := exists_segments_join path hname
  have hnone : (back.filter fun segment => segment != [] && segment != here) = [] := by
    rcases hback with rfl | rfl <;> rfl
  have hkept : (name != [] && name != here) = true := by
    simp [hname.ne_nil, hname.ne_here]
  rw [steps, steps, hjoin, hpath, List.filter_append, List.filter_append, hnone, List.append_nil,
    List.filter_singleton, hkept]
  rfl

/-- The path to a place below a directory, given by the names that lead there. -/
def below (path : Path) (names : List Name) : Path :=
  names.foldl join path

theorem steps_below (path : Path) {names : List Name} (hnames : ∀ name ∈ names, IsEntryName name) :
    (path.below names).steps = path.steps ++ names := by
  induction names generalizing path with
  | nil => exact (List.append_nil _).symm
  | cons name names ih =>
    obtain ⟨hname, hnames⟩ := List.forall_mem_cons.1 hnames
    rw [below, List.foldl_cons, ← below, ih _ hnames, steps_join path hname, List.append_assoc]
    rfl

end Path

namespace Entry

/-! ### Following a path -/

/-- Following a path goes on where following its first part ends, or ends where that fails. -/
theorem follow_append (above : List Entry) (entry : Entry) (front : List Name) :
    (∃ error, ∀ back, follow above entry (front ++ back) = .error error) ∨
      ∃ beyond found, ∀ back, follow above entry (front ++ back) = follow beyond found back := by
  fun_induction follow above entry front with
  | case1 above entry => exact .inr ⟨above, entry, fun _ => rfl⟩
  | case2 above name content segment rest => exact .inl ⟨.notDirectory, fun _ => rfl⟩
  | case3 above name entries segment rest hstays ih =>
    simpa only [List.cons_append, follow, if_pos hstays] using ih
  | case4 name entries rest hgoes ih =>
    simpa only [List.cons_append, follow, if_neg hgoes, if_true] using ih
  | case5 name entries rest parent above hgoes ih =>
    simpa only [List.cons_append, follow, if_neg hgoes, if_true] using ih
  | case6 above name entries segment rest hgoes hdown entry hnamed ih =>
    simpa only [List.cons_append, follow, if_neg hgoes, if_neg hdown, hnamed] using ih
  | case7 above name entries segment rest hgoes hdown hnamed =>
    refine .inl ⟨.notFound, fun back => ?_⟩
    simp only [List.cons_append, follow, if_neg hgoes, if_neg hdown, hnamed]

theorem follow_name {above : List Entry} {name : Name} {entries : List Entry} {segment : Name}
    {child : Entry} (hsegment : IsEntryName segment) (hchild : named? entries segment = some child) :
    follow above (directory name entries) [segment] = .ok child := by
  simp [follow, hsegment.ne_nil, hsegment.ne_here, hsegment.ne_up, hchild]

theorem follow_stay {above : List Entry} {entry found : Entry} {back : List Name}
    (hback : back = [] ∨ back = [[]]) (hfollow : follow above entry back = .ok found) :
    entry = found := by
  rcases hback with rfl | rfl
  · simpa [follow] using hfollow
  · cases entry with
    | file name content => cases hfollow
    | directory name entries => simpa [follow] using hfollow

theorem locate_eq_ok_iff {tree found : Entry} {path : Path} :
    tree.locate path = .ok found ↔ path.bytes ≠ [] ∧ follow [] tree path.segments = .ok found := by
  by_cases hpath : path.bytes = []
  · simp [locate, hpath]
  · simp [locate, hpath]

theorem locate_join {tree child : Entry} {path : Path} {name segment : Name}
    {entries : List Entry} (hpath : tree.locate path = .ok (directory name entries))
    (hsegment : IsEntryName segment) (hchild : named? entries segment = some child) :
    tree.locate (path.join segment) = .ok child := by
  obtain ⟨-, hfollow⟩ := locate_eq_ok_iff.1 hpath
  obtain ⟨front, back, hjoin, hsegments, hback⟩ := Path.exists_segments_join path hsegment
  refine locate_eq_ok_iff.2 ⟨Path.bytes_join_ne_nil path hsegment, ?_⟩
  rw [hsegments] at hfollow
  rw [hjoin]
  rcases follow_append [] tree front with ⟨error, herror⟩ | ⟨beyond, found, hfound⟩
  · rw [herror] at hfollow
    cases hfollow
  · rw [hfound] at hfollow ⊢
    obtain rfl := follow_stay hback hfollow
    exact follow_name hsegment hchild

/-- The path below a directory leads to the entry at the place that it is put together from. -/
theorem locate_below {tree top found : Entry} {path : Path} {names : List Name}
    (hpath : tree.locate path = .ok top) (hnames : ∀ name ∈ names, IsEntryName name)
    (hfind : top.find? names = some found) : tree.locate (path.below names) = .ok found := by
  induction names generalizing path top with
  | nil =>
    obtain rfl := Option.some.inj hfind
    exact hpath
  | cons segment names ih =>
    obtain ⟨hsegment, hnames⟩ := List.forall_mem_cons.1 hnames
    cases top with
    | file name content => cases hfind
    | directory name entries =>
      obtain ⟨child, hchild, hfind⟩ := Option.bind_eq_some_iff.1 hfind
      exact ih (locate_join hpath hsegment hchild) hnames hfind

/-! ### File trees -/

/-- A file tree as it can stand on a disk: the entries of every directory have proper names, each
its own. -/
inductive IsTree : Entry → Prop where
  | file (name : Name) (content : List UInt8) : IsTree (.file name content)
  | directory {name : Name} {entries : List Entry}
      (names : ∀ entry ∈ entries, IsEntryName entry.name)
      (nodup : (entries.map Entry.name).Nodup) (inner : ∀ entry ∈ entries, IsTree entry) :
      IsTree (.directory name entries)

theorem mem_of_named? {entries : List Entry} {name : Name} {entry : Entry}
    (hnamed : named? entries name = some entry) : entry ∈ entries ∧ entry.name = name :=
  ⟨List.mem_of_find?_eq_some hnamed, by simpa using List.find?_some hnamed⟩

theorem named?_of_mem {entries : List Entry} (hnodup : (entries.map Entry.name).Nodup)
    {entry : Entry} (hentry : entry ∈ entries) : named? entries entry.name = some entry := by
  induction entries with
  | nil => cases hentry
  | cons first rest ih =>
    rw [List.map_cons, List.nodup_cons] at hnodup
    rcases List.mem_cons.1 hentry with rfl | hentry
    · simp [named?]
    · have hfirst : first.name ≠ entry.name := fun hname =>
        hnodup.1 (hname ▸ List.mem_map_of_mem hentry)
      rw [named?, List.find?_cons_of_neg (by simpa using hfirst)]
      exact ih hnodup.2 hentry

theorem IsTree.isEntryName_of_find? {top found : Entry} {names : List Name} (htree : top.IsTree)
    (hfind : top.find? names = some found) : ∀ name ∈ names, IsEntryName name := by
  induction names generalizing top with
  | nil => simp
  | cons segment names ih =>
    cases htree with
    | file name content => cases hfind
    | directory hnames hnodup hinner =>
      obtain ⟨child, hchild, hrest⟩ := Option.bind_eq_some_iff.1 hfind
      obtain ⟨hmem, rfl⟩ := mem_of_named? hchild
      exact List.forall_mem_cons.2 ⟨hnames child hmem, ih (hinner child hmem) hrest⟩

end Entry

end RouteCatalog
