import Mathlib.Data.List.Chain
import RouteCatalog.SourceFile

/-!
# What lowering keeps

Lowering leaves out of a concrete tree the tokens and comments, and nothing else; what it adds are
bare hashes, each around a run of pairs in an argument list. So the skeleton of the concrete tree
(`Concrete.skeleton`) comes back when every bare hash is replaced by its pairs (`Node.dissolve`),
and the bare hashes are where they should be and as they should be (`Node.IsTidy`).

`Node.groupPairs` reads the arguments one by one and holds the result in reverse.
`Node.GroupedFrom` is what each argument keeps of that: the result stands for the arguments read so
far, in order, and no run of pairs is cut in two.
-/

namespace RouteCatalog

/-! ### Trees -/

-- All nodes of a tree in pre-order, and those of a row of trees.
mutual

def Concrete.nodes : Concrete → List Concrete
  | ⟨kind, named, field, start, stop, row, children⟩ =>
    ⟨kind, named, field, start, stop, row, children⟩ :: nodesAmong children

def Concrete.nodesAmong : List Concrete → List Concrete
  | [] => []
  | tree :: rest => nodes tree ++ nodesAmong rest

end

mutual

def Node.nodes : Node → List Node
  | ⟨kind, field, source, line, children⟩ =>
    ⟨kind, field, source, line, children⟩ :: nodesAmong children

def Node.nodesAmong : List Node → List Node
  | [] => []
  | node :: rest => nodes node ++ nodesAmong rest

end

-- A concrete tree without the unnamed nodes and comments below its root: every node that is left
-- has its kind, its field, the text of its bytes and its line, counted from one.
mutual

def Concrete.skeleton (bytes : ByteArray) : Concrete → Node
  | ⟨kind, _, field, start, stop, row, children⟩ =>
    ⟨kind, field, slice bytes start stop, row + 1, skeletons bytes children⟩

def Concrete.skeletons (bytes : ByteArray) : List Concrete → List Node
  | [] => []
  | tree :: rest =>
    if tree.named = true ∧ tree.kind ≠ "comment" then
      skeleton bytes tree :: skeletons bytes rest
    else skeletons bytes rest

end

-- A tree with the children of each bare hash in its place, and a row of trees.
mutual

def Node.dissolve : Node → List Node
  | ⟨kind, field, source, line, children⟩ =>
    if kind = bareHash then dissolveAll children
    else [⟨kind, field, source, line, dissolveAll children⟩]

def Node.dissolveAll : List Node → List Node
  | [] => []
  | node :: rest => dissolve node ++ dissolveAll rest

end

theorem Concrete.mem_nodesAmong {node : Concrete} {trees : List Concrete} :
    node ∈ nodesAmong trees ↔ ∃ tree ∈ trees, node ∈ tree.nodes := by
  induction trees with
  | nil => simp [nodesAmong]
  | cons tree rest ih => simp [nodesAmong, ih]

theorem Node.mem_nodesAmong {node : Node} {trees : List Node} :
    node ∈ nodesAmong trees ↔ ∃ tree ∈ trees, node ∈ tree.nodes := by
  induction trees with
  | nil => simp [nodesAmong]
  | cons tree rest ih => simp [nodesAmong, ih]

theorem Node.mem_nodes {node tree : Node} :
    node ∈ tree.nodes ↔ node = tree ∨ ∃ child ∈ tree.children, node ∈ child.nodes := by
  obtain ⟨kind, field, source, line, children⟩ := tree
  rw [nodes, List.mem_cons, mem_nodesAmong]

/-- A tree that names no node like the runs of pairs that lowering makes. -/
def Concrete.IsPlain (tree : Concrete) : Prop :=
  ∀ node ∈ tree.nodes, node.kind ≠ Node.bareHash

theorem Concrete.IsPlain.kind_ne {tree : Concrete} (hplain : tree.IsPlain) :
    tree.kind ≠ Node.bareHash := by
  obtain ⟨kind, named, field, start, stop, row, children⟩ := tree
  apply hplain
  rw [nodes]
  exact List.mem_cons_self

theorem Concrete.IsPlain.children {kind : String} {named : Bool} {field : Option String}
    {start stop row : Nat} {children : List Concrete}
    (hplain : IsPlain ⟨kind, named, field, start, stop, row, children⟩) :
    ∀ child ∈ children, child.IsPlain := by
  intro child hchild node hnode
  apply hplain
  rw [nodes, List.mem_cons, mem_nodesAmong]
  exact .inr ⟨child, hchild, hnode⟩

namespace Node

/-! ### Runs of pairs -/

/-- A bare hash as lowering makes it. -/
structure IsPairRun (hash : Node) : Prop where
  first : ∃ pair rest, hash.children = pair :: rest ∧ hash.line = pair.line
  pairs : ∀ pair ∈ hash.children, pair.kind = "pair"
  field : hash.field = none
  source : hash.source = ", ".intercalate (hash.children.map Node.source)

theorem isPairRun_ofPair {pair : Node} (hpair : pair.kind = "pair") : pair.ofPair.IsPairRun where
  first := ⟨pair, [], rfl, rfl⟩
  pairs other hother := by
    obtain rfl := List.mem_singleton.1 hother
    exact hpair
  field := rfl
  source := by simp [ofPair]

theorem IsPairRun.addPair {hash pair : Node} (hrun : hash.IsPairRun) (hpair : pair.kind = "pair") :
    (hash.addPair pair).IsPairRun where
  first := by
    obtain ⟨first, rest, hchildren, hline⟩ := hrun.first
    exact ⟨first, rest ++ [pair], by simp [Node.addPair, hchildren], hline⟩
  pairs other hother := by
    rcases List.mem_append.1 hother with hother | hother
    · exact hrun.pairs other hother
    · exact List.mem_singleton.1 hother ▸ hpair
  field := hrun.field
  source := by
    have hne : hash.children.map Node.source ≠ [] := by
      obtain ⟨first, rest, hchildren, -⟩ := hrun.first
      simp [hchildren]
    show hash.source ++ ", " ++ pair.source =
      ", ".intercalate ((hash.children ++ [pair]).map Node.source)
    rw [List.map_append, String.intercalate_append_of_ne_nil hne (by simp), hrun.source]
    simp

/-! ### Grouping -/

/-- What an argument after grouping stands for. -/
def held (node : Node) : List Node :=
  if node.kind = bareHash then node.children else [node]

/-- Two arguments that are not both bare hashes. -/
def Apart (node next : Node) : Prop :=
  ¬(node.kind = bareHash ∧ next.kind = bareHash)

/-- The arguments before a place, grouped and in reverse. -/
structure GroupedFrom (arguments before : List Node) : Prop where
  held_eq : before.reverse.flatMap held = arguments
  no_pair : ∀ node ∈ before, node.kind ≠ "pair"
  isPairRun : ∀ node ∈ before, node.kind = bareHash → node.IsPairRun
  apart : before.IsChain Apart

theorem GroupedFrom.cons {arguments before : List Node} {node argument : Node}
    (hgrouped : GroupedFrom arguments before) (hheld : node.held = [argument])
    (hpair : node.kind ≠ "pair") (hrun : node.kind = bareHash → node.IsPairRun)
    (hapart : ∀ last ∈ before.head?, Apart node last) :
    GroupedFrom (arguments ++ [argument]) (node :: before) where
  held_eq := by
    rw [List.reverse_cons, List.flatMap_append, hgrouped.held_eq]
    simp [hheld]
  no_pair := List.forall_mem_cons.2 ⟨hpair, hgrouped.no_pair⟩
  isPairRun := List.forall_mem_cons.2 ⟨hrun, hgrouped.isPairRun⟩
  apart := List.isChain_cons.2 ⟨hapart, hgrouped.apart⟩

theorem GroupedFrom.startRun {arguments before : List Node} {pair : Node}
    (hgrouped : GroupedFrom arguments before) (hpair : pair.kind = "pair")
    (hlast : ∀ last ∈ before.head?, last.kind ≠ bareHash) :
    GroupedFrom (arguments ++ [pair]) (pair.ofPair :: before) := by
  refine hgrouped.cons ?_ ?_ (fun _ => isPairRun_ofPair hpair) fun last hmem hboth => ?_
  · exact if_pos rfl
  · show bareHash ≠ "pair"
    decide
  · exact hlast last hmem hboth.2

theorem GroupedFrom.continueRun {arguments rest : List Node} {hash pair : Node}
    (hgrouped : GroupedFrom arguments (hash :: rest)) (hhash : hash.kind = bareHash)
    (hpair : pair.kind = "pair") :
    GroupedFrom (arguments ++ [pair]) (hash.addPair pair :: rest) := by
  obtain ⟨hheld, hnoPair, hruns, hapart⟩ := hgrouped
  rw [List.forall_mem_cons] at hnoPair hruns
  rw [List.isChain_cons] at hapart
  have hheldOne : ∀ node : Node, node.kind = bareHash → node.held = node.children :=
    fun node hnode => if_pos hnode
  refine ⟨?_, List.forall_mem_cons.2 ⟨hnoPair.1, hnoPair.2⟩, ?_, ?_⟩
  · rw [List.reverse_cons, List.flatMap_append] at hheld ⊢
    rw [← hheld, List.flatMap_singleton, List.flatMap_singleton, hheldOne hash hhash,
      hheldOne (hash.addPair pair) hhash, List.append_assoc]
    rfl
  · exact List.forall_mem_cons.2 ⟨fun _ => (hruns.1 hhash).addPair hpair, hruns.2⟩
  · -- The run keeps its kind, and that is all that its neighbour looks at.
    exact List.isChain_cons.2 ⟨hapart.1, hapart.2⟩

theorem GroupedFrom.addArgument {arguments before : List Node} {argument : Node}
    (hgrouped : GroupedFrom arguments before) (hplain : argument.kind ≠ bareHash) :
    GroupedFrom (arguments ++ [argument]) (Node.addArgument before argument) := by
  unfold Node.addArgument
  by_cases hpair : argument.kind = "pair"
  · rw [if_pos (by simpa using hpair)]
    cases before with
    | nil => exact hgrouped.startRun hpair nofun
    | cons hash rest =>
      dsimp only
      by_cases hhash : hash.kind = bareHash
      · rw [if_pos (by simpa using hhash)]
        exact hgrouped.continueRun hhash hpair
      · rw [if_neg (by simpa using hhash)]
        exact hgrouped.startRun hpair (by simpa using hhash)
  · rw [if_neg (by simpa using hpair)]
    refine hgrouped.cons (if_neg hplain) hpair (fun hhash => absurd hhash hplain) ?_
    exact fun last _ hboth => hplain hboth.1

theorem groupedFrom_foldl {rest : List Node}
    (hplain : ∀ argument ∈ rest, argument.kind ≠ bareHash) :
    ∀ {arguments before : List Node}, GroupedFrom arguments before →
      GroupedFrom (arguments ++ rest) (rest.foldl Node.addArgument before) := by
  induction rest with
  | nil =>
    intro arguments before hgrouped
    simpa using hgrouped
  | cons argument rest ih =>
    intro arguments before hgrouped
    rw [List.forall_mem_cons] at hplain
    have hnext := ih hplain.2 (hgrouped.addArgument hplain.1)
    rwa [List.append_assoc, List.singleton_append] at hnext

theorem groupedFrom_groupPairs {arguments : List Node}
    (hplain : ∀ argument ∈ arguments, argument.kind ≠ bareHash) :
    GroupedFrom arguments (groupPairs arguments).reverse := by
  rw [groupPairs, List.reverse_reverse]
  exact groupedFrom_foldl hplain ⟨rfl, by simp, by simp, .nil⟩

/-! ### Dissolving -/

theorem dissolveAll_append (first second : List Node) :
    dissolveAll (first ++ second) = dissolveAll first ++ dissolveAll second := by
  induction first with
  | nil => rfl
  | cons node rest ih => rw [List.cons_append, dissolveAll, dissolveAll, ih, List.append_assoc]

theorem dissolveAll_held (node : Node) : dissolveAll node.held = dissolve node := by
  unfold held
  split_ifs with hhash
  · obtain ⟨kind, field, source, line, children⟩ := node
    rw [dissolve, if_pos hhash]
  · rw [dissolveAll, dissolveAll, List.append_nil]

theorem dissolveAll_flatMap_held (nodes : List Node) :
    dissolveAll (nodes.flatMap held) = dissolveAll nodes := by
  induction nodes with
  | nil => rfl
  | cons node rest ih =>
    rw [List.flatMap_cons, dissolveAll_append, ih, dissolveAll_held, dissolveAll]

theorem dissolveAll_groupPairs {arguments : List Node}
    (hplain : ∀ argument ∈ arguments, argument.kind ≠ bareHash) :
    dissolveAll (groupPairs arguments) = dissolveAll arguments := by
  have hheld := (groupedFrom_groupPairs hplain).held_eq
  rw [List.reverse_reverse] at hheld
  rw [← dissolveAll_flatMap_held, hheld]

/-! ### Bare hashes -/

/-- A node whose bare hashes are where they should be, and that is as it should be if it is one. -/
structure IsTidy (node : Node) : Prop where
  no_pair : node.kind = "argument_list" → ∀ child ∈ node.children, child.kind ≠ "pair"
  hash_placed : ∀ child ∈ node.children, child.kind = bareHash → node.kind = "argument_list"
  apart : node.children.IsChain Apart
  isPairRun : node.kind = bareHash → node.IsPairRun

theorem isTidy_of_plain {node : Node} (hkind : node.kind ≠ "argument_list")
    (hchildren : ∀ child ∈ node.children, child.kind ≠ bareHash)
    (hrun : node.kind = bareHash → node.IsPairRun) : node.IsTidy where
  no_pair hlist := absurd hlist hkind
  hash_placed child hchild hhash := absurd hhash (hchildren child hchild)
  apart := by
    have hapart : ∀ child ∈ node.children, ∀ next ∈ node.children, Apart child next :=
      fun child hchild _ _ hboth => hchildren child hchild hboth.1
    exact (List.pairwise_of_forall_mem_list hapart).isChain
  isPairRun := hrun

theorem isTidy_of_grouped {node : Node} (hkind : node.kind = "argument_list")
    {arguments : List Node} (hchildren : node.children = groupPairs arguments)
    (hplain : ∀ argument ∈ arguments, argument.kind ≠ bareHash) : node.IsTidy := by
  obtain ⟨-, hnoPair, -, hapart⟩ := groupedFrom_groupPairs hplain
  rw [← hchildren] at hnoPair hapart
  have hnoPair : ∀ child ∈ node.children, child.kind ≠ "pair" :=
    fun child hchild => hnoPair child (List.mem_reverse.2 hchild)
  refine ⟨fun _ => hnoPair, fun _ _ _ => hkind, ?_, ?_⟩
  · exact (List.isChain_reverse.1 hapart).imp fun _ _ hnext hboth => hnext hboth.symm
  · intro hhash
    rw [hkind] at hhash
    exact absurd hhash (by decide)

/-- The nodes of grouped arguments are those of the arguments, and runs of pairs. -/
theorem isTidy_of_mem_groupPairs {arguments : List Node}
    (hplain : ∀ argument ∈ arguments, argument.kind ≠ bareHash)
    (htidy : ∀ argument ∈ arguments, ∀ node ∈ argument.nodes, node.IsTidy) :
    ∀ child ∈ groupPairs arguments, ∀ node ∈ child.nodes, node.IsTidy := by
  intro child hchild node hnode
  have hgrouped := groupedFrom_groupPairs hplain
  have hheld : ∀ argument ∈ child.held, argument ∈ arguments := by
    intro argument hargument
    rw [← hgrouped.held_eq, List.reverse_reverse]
    exact List.mem_flatMap.2 ⟨child, hchild, hargument⟩
  by_cases hhash : child.kind = bareHash
  · have hrun := hgrouped.isPairRun child (List.mem_reverse.2 hchild) hhash
    rw [held, if_pos hhash] at hheld
    rw [mem_nodes] at hnode
    rcases hnode with rfl | ⟨pair, hpair, hnode⟩
    · refine isTidy_of_plain ?_ (fun pair hpair => hplain pair (hheld pair hpair)) fun _ => hrun
      rw [hhash]
      decide
    · exact htidy pair (hheld pair hpair) node hnode
  · rw [held, if_neg hhash, List.forall_mem_singleton] at hheld
    exact htidy child hheld node hnode

end Node

namespace Concrete

open Node (dissolve dissolveAll)

variable (bytes : ByteArray)

theorem kind_lower (tree : Concrete) : (lower bytes tree).kind = tree.kind := by
  obtain ⟨kind, named, field, start, stop, row, children⟩ := tree
  rw [lower]

theorem exists_of_mem_lowerList {trees : List Concrete} {part : Node}
    (hpart : part ∈ lowerList bytes trees) : ∃ tree ∈ trees, part = lower bytes tree := by
  induction trees with
  | nil => simp [lowerList] at hpart
  | cons tree rest ih =>
    have hcases : part = lower bytes tree ∨ part ∈ lowerList bytes rest := by
      rw [lowerList] at hpart
      split_ifs at hpart
      · exact List.mem_cons.1 hpart
      · exact .inr hpart
    rcases hcases with hpart | hpart
    · exact ⟨tree, List.mem_cons_self, hpart⟩
    · obtain ⟨other, hother, hpart⟩ := ih hpart
      exact ⟨other, List.mem_cons_of_mem _ hother, hpart⟩

theorem kind_of_mem_lowerList {trees : List Concrete} (hplain : ∀ tree ∈ trees, tree.IsPlain) :
    ∀ part ∈ lowerList bytes trees, part.kind ≠ Node.bareHash := by
  intro part hpart
  obtain ⟨tree, htree, rfl⟩ := exists_of_mem_lowerList bytes hpart
  rw [kind_lower]
  exact (hplain tree htree).kind_ne

mutual

theorem dissolve_lower : ∀ tree : Concrete, tree.IsPlain →
    dissolve (lower bytes tree) = [skeleton bytes tree]
  | ⟨kind, named, field, start, stop, row, children⟩, hplain => by
    have hkind : kind ≠ Node.bareHash := hplain.kind_ne
    have hparts := kind_of_mem_lowerList bytes hplain.children
    have hchildren := dissolveAll_lowerList children hplain.children
    rw [lower, dissolve, if_neg hkind, skeleton, ← hchildren]
    split_ifs
    · rw [Node.dissolveAll_groupPairs hparts]
    · rfl

theorem dissolveAll_lowerList : ∀ trees : List Concrete, (∀ tree ∈ trees, tree.IsPlain) →
    dissolveAll (lowerList bytes trees) = skeletons bytes trees
  | [], _ => rfl
  | tree :: rest, hplain => by
    rw [List.forall_mem_cons] at hplain
    have hrest := dissolveAll_lowerList rest hplain.2
    rw [lowerList, skeletons]
    by_cases hkept : tree.named = true ∧ tree.kind ≠ "comment"
    · rw [if_pos (by simpa [isSkeleton] using hkept), if_pos hkept, dissolveAll,
        dissolve_lower tree hplain.1, hrest]
      rfl
    · rw [if_neg (by simpa [isSkeleton] using hkept), if_neg hkept, hrest]

end

mutual

theorem isTidy_lower : ∀ tree : Concrete, tree.IsPlain →
    ∀ node ∈ (lower bytes tree).nodes, node.IsTidy
  | ⟨kind, named, field, start, stop, row, children⟩, hplain => by
    have hparts := kind_of_mem_lowerList bytes hplain.children
    have htidy := isTidy_lowerList children hplain.children
    intro node hnode
    rw [lower] at hnode
    by_cases hlist : kind = "argument_list"
    · rw [if_pos (by simpa using hlist), Node.mem_nodes] at hnode
      rcases hnode with rfl | ⟨child, hchild, hnode⟩
      · exact Node.isTidy_of_grouped hlist rfl hparts
      · exact Node.isTidy_of_mem_groupPairs hparts htidy child hchild node hnode
    · rw [if_neg (by simpa using hlist), Node.mem_nodes] at hnode
      rcases hnode with rfl | ⟨child, hchild, hnode⟩
      · exact Node.isTidy_of_plain hlist hparts fun hhash => absurd hhash hplain.kind_ne
      · exact htidy child hchild node hnode

theorem isTidy_lowerList : ∀ trees : List Concrete, (∀ tree ∈ trees, tree.IsPlain) →
    ∀ part ∈ lowerList bytes trees, ∀ node ∈ part.nodes, node.IsTidy
  | [], _ => by simp [lowerList]
  | tree :: rest, hplain => by
    rw [List.forall_mem_cons] at hplain
    have hfirst := isTidy_lower tree hplain.1
    have hrest := isTidy_lowerList rest hplain.2
    rw [lowerList]
    split_ifs
    · exact List.forall_mem_cons.2 ⟨hfirst, hrest⟩
    · exact hrest

end

end Concrete

end RouteCatalog
