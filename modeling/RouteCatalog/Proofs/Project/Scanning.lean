import RouteCatalog.Project.Scan
import RouteCatalog.Proofs.Catalog.StableSort
import RouteCatalog.Proofs.Project.Location

/-!
# What a scan finds

A scan decides entry by entry what it passes over. Seen from the root this is a condition on the
whole way to a file: `Scan.Eligible` says it, of the names on the way and without a scan, and the
root itself has no part in it (`Scan.mem_filesAt_iff`). Each directory is visited in the order of
its names, and so the files come out in the order of their steps (`Scan.ascending_filesAt`): names
are compared one by one, so that all that is below `a` stands before `a-b`.
-/

namespace RouteCatalog

namespace Scan

/-- A directory that is neither hidden nor one of bundled code. -/
def Passable (directory : Name) : Prop :=
  ¬ Text.encodeUtf8 "." <+: directory ∧ directory ≠ Text.encodeUtf8 "vendor"

instance (directory : Name) : Decidable (Passable directory) :=
  inferInstanceAs (Decidable (_ ∧ _))

/-- A file that a scan of a directory is to find: it lies below the directory, at the end of a way of
directories that are all passable, and its name is not hidden and has the ending of a Ruby file. -/
structure Eligible (top : Entry) (directories : List Name) (file : Name) : Prop where
  isFile : ∃ content, top.find? (directories ++ [file]) = some (.file file content)
  visible : ¬ Text.encodeUtf8 "." <+: file
  ruby : Text.encodeUtf8 ".rb" <:+ file
  passable : ∀ directory ∈ directories, Passable directory

/-! ### One entry -/

theorem isHidden_iff {name : Name} : isHidden name = true ↔ Text.encodeUtf8 "." <+: name := by
  have hdot : Text.encodeUtf8 "." = [0x2E] := by decide
  rw [hdot]
  cases name with
  | nil => simp [isHidden]
  | cons byte name => simp [isHidden, List.cons_prefix_cons, eq_comm (a := byte)]

theorem isRuby_iff {name : Name} (hvisible : ¬ Text.encodeUtf8 "." <+: name) :
    isRuby name = true ↔ Text.encodeUtf8 ".rb" <:+ name := by
  rw [isRuby, Bool.and_eq_true, List.isSuffixOf_iff_suffix, decide_eq_true_iff]
  refine ⟨And.left, fun hsuffix => ⟨hsuffix, ?_⟩⟩
  -- The ending alone would be a hidden name.
  refine Nat.lt_of_le_of_ne hsuffix.length_le fun hlength => hvisible ?_
  rw [← hsuffix.eq_of_length hlength]
  exact isHidden_iff.1 (by decide)

theorem isSkipped_file {name : Name} {content : List UInt8} :
    isSkipped (.file name content) = false ↔ ¬ Text.encodeUtf8 "." <+: name := by
  rw [← isHidden_iff]
  simp [isSkipped, Entry.name, Entry.isDirectory]

theorem isSkipped_directory {name : Name} {entries : List Entry} :
    isSkipped (.directory name entries) = false ↔ Passable name := by
  rw [Passable, ← isHidden_iff]
  simp [isSkipped, Entry.name, Entry.isDirectory, vendor]

theorem mem_filesAt_file {path p : Path} {name : Name} {content : List UInt8} :
    p ∈ filesAt path (.file name content) ↔ isRuby name = true ∧ p = path := by
  rw [filesAt]
  split <;> simp_all

/-! ### One directory -/

theorem filesBelow_eq (path : Path) (entries : List Entry) :
    filesBelow path entries =
      (entries.filter fun entry => !isSkipped entry).map fun entry =>
        (entry.name, filesAt (path.join entry.name) entry) := by
  induction entries with
  | nil => rfl
  | cons entry entries ih =>
    rw [filesBelow, ih]
    cases hskipped : isSkipped entry <;> simp [hskipped]

/-- The rows of a directory in the order of the visit: the entries that are not passed over, with
their files. -/
def rows (path : Path) (entries : List Entry) : List (Name × List Path) :=
  sortBy (compareOn Prod.fst) (filesBelow path entries)

theorem filesAt_directory (path : Path) (name : Name) (entries : List Entry) :
    filesAt path (.directory name entries) = (rows path entries).flatMap Prod.snd := by
  rw [filesAt]
  rfl

theorem mem_rows_iff {path : Path} {entries : List Entry} {row : Name × List Path} :
    row ∈ rows path entries ↔ ∃ entry ∈ entries, isSkipped entry = false ∧
      row = (entry.name, filesAt (path.join entry.name) entry) := by
  rw [rows, (sortBy_perm _ _).mem_iff, filesBelow_eq, List.mem_map]
  simp only [List.mem_filter, Bool.not_eq_true', and_assoc, eq_comm (a := row)]

theorem mem_filesAt_directory {path p : Path} {name : Name} {entries : List Entry} :
    p ∈ filesAt path (.directory name entries) ↔
      ∃ entry ∈ entries, isSkipped entry = false ∧ p ∈ filesAt (path.join entry.name) entry := by
  rw [filesAt_directory, List.mem_flatMap]
  constructor
  · rintro ⟨row, hrow, hp⟩
    obtain ⟨entry, hentry, hskipped, rfl⟩ := mem_rows_iff.1 hrow
    exact ⟨entry, hentry, hskipped, hp⟩
  · rintro ⟨entry, hentry, hskipped, hp⟩
    exact ⟨_, mem_rows_iff.2 ⟨entry, hentry, hskipped, rfl⟩, hp⟩

theorem rows_ascending {entries : List Entry} (hnodup : (entries.map Entry.name).Nodup)
    (path : Path) : (rows path entries).Pairwise fun a b => compare a.1 b.1 = .lt := by
  refine ascending_sortBy Prod.fst ?_
  rw [filesBelow_eq, List.map_map]
  exact hnodup.sublist (List.filter_sublist.map Entry.name)

/-! ### The way to a file -/

theorem Eligible.isDirectory {top : Entry} {directories : List Name} {file : Name}
    (heligible : Eligible top directories file) : top.isDirectory = true := by
  cases top with
  | file name content =>
    obtain ⟨content, hfind⟩ := heligible.isFile
    cases directories <;> cases hfind
  | directory name entries => rfl

theorem eligible_nil_iff {name file : Name} {entries : List Entry}
    (hnodup : (entries.map Entry.name).Nodup) :
    Eligible (.directory name entries) [] file ↔
      (∃ content, .file file content ∈ entries) ∧ ¬ Text.encodeUtf8 "." <+: file ∧
        Text.encodeUtf8 ".rb" <:+ file := by
  constructor
  · intro heligible
    obtain ⟨content, hfind⟩ := heligible.isFile
    obtain ⟨child, hchild, hlast⟩ := Option.bind_eq_some_iff.1 hfind
    obtain rfl : child = .file file content := by simpa [Entry.find?] using hlast
    exact ⟨⟨content, (Entry.mem_of_named? hchild).1⟩, heligible.visible, heligible.ruby⟩
  · rintro ⟨⟨content, hmem⟩, hvisible, hruby⟩
    have hnamed : Entry.named? entries file = some (.file file content) :=
      Entry.named?_of_mem hnodup hmem
    refine ⟨⟨content, ?_⟩, hvisible, hruby, by simp⟩
    simp [Entry.find?, hnamed]

theorem eligible_cons_iff {name directory file : Name} {entries : List Entry}
    {directories : List Name} (hnodup : (entries.map Entry.name).Nodup) :
    Eligible (.directory name entries) (directory :: directories) file ↔
      ∃ child ∈ entries, child.name = directory ∧ Passable directory ∧
        Eligible child directories file := by
  constructor
  · intro heligible
    obtain ⟨hpassable, hrest⟩ := List.forall_mem_cons.1 heligible.passable
    obtain ⟨content, hfind⟩ := heligible.isFile
    obtain ⟨child, hchild, hfind⟩ := Option.bind_eq_some_iff.1 hfind
    obtain ⟨hmem, hname⟩ := Entry.mem_of_named? hchild
    exact ⟨child, hmem, hname, hpassable,
      ⟨⟨content, hfind⟩, heligible.visible, heligible.ruby, hrest⟩⟩
  · rintro ⟨child, hmem, rfl, hpassable, heligible⟩
    obtain ⟨content, hfind⟩ := heligible.isFile
    refine ⟨⟨content, ?_⟩, heligible.visible, heligible.ruby,
      List.forall_mem_cons.2 ⟨hpassable, heligible.passable⟩⟩
    rw [List.cons_append, Entry.find?, Entry.named?_of_mem hnodup hmem]
    exact hfind

/-! ### The whole scan -/

/-- The files of a directory are those that are eligible in it. -/
theorem mem_filesAt_iff {top : Entry} (htree : top.IsTree) (htop : top.isDirectory = true)
    {path p : Path} :
    p ∈ filesAt path top ↔
      ∃ directories file, Eligible top directories file ∧
        p = path.below (directories ++ [file]) := by
  induction htree generalizing path with
  | file name content => cases htop
  | @directory name entries hnames hnodup hinner ih =>
    rw [mem_filesAt_directory]
    constructor
    · rintro ⟨entry, hentry, hskipped, hp⟩
      cases entry with
      | file file content =>
        have hvisible := isSkipped_file.1 hskipped
        obtain ⟨hruby, rfl⟩ := mem_filesAt_file.1 hp
        exact ⟨[], file, (eligible_nil_iff hnodup).2
          ⟨⟨content, hentry⟩, hvisible, (isRuby_iff hvisible).1 hruby⟩, rfl⟩
      | directory directory inner =>
        obtain ⟨directories, file, heligible, rfl⟩ := (ih _ hentry rfl).1 hp
        exact ⟨directory :: directories, file, (eligible_cons_iff hnodup).2
          ⟨_, hentry, rfl, isSkipped_directory.1 hskipped, heligible⟩, rfl⟩
    · rintro ⟨directories, file, heligible, rfl⟩
      cases directories with
      | nil =>
        obtain ⟨⟨content, hentry⟩, hvisible, hruby⟩ := (eligible_nil_iff hnodup).1 heligible
        exact ⟨_, hentry, isSkipped_file.2 hvisible,
          mem_filesAt_file.2 ⟨(isRuby_iff hvisible).2 hruby, rfl⟩⟩
      | cons directory directories =>
        obtain ⟨child, hentry, rfl, hpassable, heligible⟩ := (eligible_cons_iff hnodup).1 heligible
        have hchild := heligible.isDirectory
        refine ⟨child, hentry, ?_, (ih child hentry hchild).2 ⟨directories, file, heligible, rfl⟩⟩
        cases child with
        | file name content => cases hchild
        | directory name inner => exact isSkipped_directory.2 hpassable

theorem Eligible.isEntryName {top : Entry} {directories : List Name} {file : Name}
    (htree : top.IsTree) (heligible : Eligible top directories file) :
    ∀ name ∈ directories ++ [file], IsEntryName name := by
  obtain ⟨content, hfind⟩ := heligible.isFile
  exact htree.isEntryName_of_find? hfind

theorem steps_isPrefix_of_mem_filesAt {top : Entry} (htree : top.IsTree) {path p : Path}
    (hp : p ∈ filesAt path top) : path.steps <+: p.steps := by
  cases top with
  | file name content =>
    obtain ⟨-, rfl⟩ := mem_filesAt_file.1 hp
    exact List.prefix_rfl
  | directory name entries =>
    obtain ⟨directories, file, heligible, rfl⟩ := (mem_filesAt_iff htree rfl).1 hp
    rw [Path.steps_below path (heligible.isEntryName htree)]
    exact List.prefix_append _ _

-- The first name in which two sequences of steps differ decides.
theorem compare_of_shared_steps {front : List Name} {a b : Name} {left right : List Name}
    (hleft : front ++ [a] <+: left) (hright : front ++ [b] <+: right) (hlt : compare a b = .lt) :
    compare left right = .lt := by
  obtain ⟨back, rfl⟩ := hleft
  obtain ⟨other, rfl⟩ := hright
  induction front with
  | nil => simp [List.compare_cons_cons, hlt]
  | cons name front ih =>
    simpa [List.compare_cons_cons] using ih

/-- The files of a directory come in the order of their steps. -/
theorem ascending_filesAt {top : Entry} (htree : top.IsTree) (path : Path) :
    (filesAt path top).Pairwise fun a b => compare a.steps b.steps = .lt := by
  induction htree generalizing path with
  | file name content =>
    rw [filesAt]
    split
    · exact List.pairwise_singleton _ _
    · exact List.Pairwise.nil
  | @directory name entries hnames hnodup hinner ih =>
    rw [filesAt_directory, List.pairwise_flatMap]
    constructor
    · intro row hrow
      obtain ⟨entry, hentry, -, rfl⟩ := mem_rows_iff.1 hrow
      exact ih entry hentry _
    · refine List.Pairwise.imp_of_mem ?_ (rows_ascending hnodup path)
      intro first second hfirst hsecond hlt p hp q hq
      obtain ⟨entry, hentry, -, rfl⟩ := mem_rows_iff.1 hfirst
      obtain ⟨other, hother, -, rfl⟩ := mem_rows_iff.1 hsecond
      -- What is below an entry shares the steps up to it, and the names of the entries decide.
      have hsteps := steps_isPrefix_of_mem_filesAt (hinner entry hentry) hp
      have hsteps' := steps_isPrefix_of_mem_filesAt (hinner other hother) hq
      rw [Path.steps_join path (hnames entry hentry)] at hsteps
      rw [Path.steps_join path (hnames other hother)] at hsteps'
      exact compare_of_shared_steps hsteps hsteps' hlt

end Scan

namespace Entry

/-- **A scan of a directory finds its eligible files**, each once and in ascending order of their
steps, under paths that lead to them, and it warns of nothing. -/
theorem scan_finds_eligible {tree : Entry} {root : Path} {name : Name}
    {entries : List Entry} (hroot : tree.locate root = .ok (.directory name entries))
    (htree : (Entry.directory name entries).IsTree) :
    let top := Entry.directory name entries
    let scan := tree.scan root
    (∀ path, path ∈ scan.files ↔ ∃ directories file,
        Scan.Eligible top directories file ∧ path = root.below (directories ++ [file])) ∧
      scan.files.Nodup ∧
      (scan.files.Pairwise fun a b => compare a.steps b.steps = .lt) ∧
      scan.warnings = [] ∧
      ∀ directories file content,
        top.find? (directories ++ [file]) = some (.file file content) →
          tree.read? (root.below (directories ++ [file])) = some content ∧
            (root.below (directories ++ [file])).steps = root.steps ++ directories ++ [file] := by
  intro top scan
  have hscan : scan = ⟨Scan.filesAt root top, []⟩ := by
    simp only [scan, Entry.scan, hroot, top]
  have hascending := Scan.ascending_filesAt htree root
  have hnodup : (Scan.filesAt root top).Nodup := by
    refine List.Pairwise.imp ?_ hascending
    rintro path _ hlt rfl
    exact ne_of_compare_lt hlt rfl
  rw [hscan]
  refine ⟨fun path => Scan.mem_filesAt_iff htree rfl, hnodup, hascending, rfl, ?_⟩
  intro directories file content hfind
  have hnames := htree.isEntryName_of_find? hfind
  refine ⟨?_, ?_⟩
  · rw [read?, locate_below hroot hnames hfind]
  · rw [Path.steps_below root hnames, List.append_assoc]

/-- A directory of some name that holds a Ruby file of its own, one in a further directory and one in
a directory of bundled code. -/
def sampleProject (name : String) : Entry :=
  .directory (Text.encodeUtf8 name)
    [.file (Text.encodeUtf8 "a-b.rb") [],
      .directory (Text.encodeUtf8 "a") [.file (Text.encodeUtf8 "x.rb") [0x23]],
      .directory (Text.encodeUtf8 "vendor") [.file (Text.encodeUtf8 "y.rb") []]]

theorem isTree_sampleProject (name : String) : (sampleProject name).IsTree := by
  have hinner : ∀ directory file content, IsEntryName file →
      (Entry.directory directory [.file file content]).IsTree := fun directory file content hfile =>
    .directory (by simpa [Entry.name] using hfile) (by simp)
      (List.forall_mem_singleton.2 (.file file content))
  refine .directory (by decide) (by decide) ?_
  simp only [List.forall_mem_cons]
  exact ⟨.file _ _, hinner _ _ _ (by decide), hinner _ _ _ (by decide), by simp⟩

-- The root itself may be hidden.
theorem scan_finds_eligible_sampleProject :
    let tree := Entry.directory [] [sampleProject ".git"]
    let root := Path.ofString ".git"
    tree.locate root = .ok (sampleProject ".git") ∧ (sampleProject ".git").IsTree ∧
      Path.ofString ".git/a/x.rb" ∈ (tree.scan root).files ∧
      tree.read? (.ofString ".git/a/x.rb") = some [0x23] := by
  intro tree root
  have hroot : tree.locate root = .ok (sampleProject ".git") := by rfl
  have htree := isTree_sampleProject ".git"
  obtain ⟨hmem, -, -, -, hleads⟩ := scan_finds_eligible hroot htree
  have hfind : (sampleProject ".git").find? ([Text.encodeUtf8 "a"] ++ [Text.encodeUtf8 "x.rb"]) =
      some (.file (Text.encodeUtf8 "x.rb") [0x23]) := by rfl
  have heligible : Scan.Eligible (sampleProject ".git") [Text.encodeUtf8 "a"]
      (Text.encodeUtf8 "x.rb") :=
    ⟨⟨_, hfind⟩, by decide, by decide, by decide⟩
  exact ⟨hroot, htree, (hmem _).2 ⟨_, _, heligible, by decide⟩, (hleads _ _ _ hfind).1⟩

end Entry

end RouteCatalog
