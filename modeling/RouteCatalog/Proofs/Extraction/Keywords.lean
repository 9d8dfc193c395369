import RouteCatalog.Extraction.Walk
import RouteCatalog.Proofs.Syntax.Lowering

/-!
# Keyword arguments

The options of a call are written bare, as a run of pairs after the other arguments, or as one hash
in braces. Lowering makes a bare hash of a run, so that both forms end in a node that holds the
pairs (`groupPairs_append_run`, `groupPairs_append_of_no_pair`); whatever reads the arguments asks
of that node only whether it holds options and which pairs (`Node.declares_of_positional`).
-/

namespace RouteCatalog

/-! ### Lowering a row of trees -/

namespace Concrete

variable (bytes : ByteArray)

theorem lowerList_eq (trees : List Concrete) :
    lowerList bytes trees = (trees.filter isSkeleton).map (lower bytes) := by
  induction trees with
  | nil => rfl
  | cons tree rest ih =>
    rw [lowerList, List.filter_cons, ih]
    split_ifs <;> rfl

theorem lowerList_append (first second : List Concrete) :
    lowerList bytes (first ++ second) = lowerList bytes first ++ lowerList bytes second := by
  simp [lowerList_eq]

theorem lowerList_of_no_skeleton {trees : List Concrete}
    (htrees : ∀ tree ∈ trees, tree.isSkeleton = false) : lowerList bytes trees = [] := by
  simpa [lowerList_eq] using htrees

theorem kind_of_mem_lowerList_of_skeleton {trees : List Concrete} {kind : String}
    (htrees : ∀ tree ∈ trees, tree.isSkeleton = true → tree.kind = kind) :
    ∀ part ∈ lowerList bytes trees, part.kind = kind := by
  intro part hpart
  rw [lowerList_eq] at hpart
  obtain ⟨tree, htree, rfl⟩ := List.mem_map.1 hpart
  rw [kind_lower]
  exact htrees tree (List.mem_filter.1 htree).1 (List.mem_filter.1 htree).2

theorem field_lower (tree : Concrete) : (lower bytes tree).field = tree.field := by
  obtain ⟨kind, named, field, start, stop, row, children⟩ := tree
  rw [lower]

theorem children_lower_of_ne {tree : Concrete} (hkind : tree.kind ≠ "argument_list") :
    (lower bytes tree).children = lowerList bytes tree.children := by
  obtain ⟨kind, named, field, start, stop, row, children⟩ := tree
  rw [lower]
  exact if_neg (by simpa using hkind)

theorem children_lower_argumentList {tree : Concrete} (hkind : tree.kind = "argument_list") :
    (lower bytes tree).children = Node.groupPairs (lowerList bytes tree.children) := by
  obtain ⟨kind, named, field, start, stop, row, children⟩ := tree
  rw [lower]
  exact if_pos (by simpa using hkind)

end Concrete

/-! ### Grouping what ends in options -/

namespace Node

theorem addArgument_of_not_pair {argument : Node} (hpair : argument.kind ≠ "pair")
    (before : List Node) : addArgument before argument = argument :: before :=
  if_neg (by simpa using hpair)

theorem foldl_addArgument_of_no_pair {arguments : List Node}
    (harguments : ∀ argument ∈ arguments, argument.kind ≠ "pair") (before : List Node) :
    arguments.foldl addArgument before = arguments.reverse ++ before := by
  induction arguments generalizing before with
  | nil => rfl
  | cons argument rest ih =>
    rw [List.forall_mem_cons] at harguments
    rw [List.foldl_cons, addArgument_of_not_pair harguments.1, ih harguments.2]
    simp

/-- Arguments after which a pair starts a run. -/
def EndsRun (arguments : List Node) : Prop :=
  ∀ last ∈ arguments.getLast?, last.kind ≠ "pair" ∧ last.kind ≠ bareHash

theorem EndsRun.addArgument_pair {arguments : List Node} (hends : EndsRun arguments) {pair : Node}
    (hpair : pair.kind = "pair") :
    addArgument (arguments.foldl addArgument []) pair =
      pair.ofPair :: arguments.foldl addArgument [] := by
  rcases arguments.eq_nil_or_concat with rfl | ⟨front, last, rfl⟩
  · exact if_pos (by simpa using hpair)
  · obtain ⟨hlast, hhash⟩ := hends last (by simp)
    rw [List.concat_eq_append, List.foldl_append, List.foldl_cons, List.foldl_nil,
      addArgument_of_not_pair hlast]
    simp [addArgument, hpair, hhash]

/-- A run goes on to its end in the bare hash that its first pair started. -/
theorem foldl_addArgument_run {pairs : List Node} (hpairs : ∀ pair ∈ pairs, pair.kind = "pair")
    {hash : Node} (hhash : hash.kind = bareHash) (before : List Node) :
    ∃ run : Node, run.kind = bareHash ∧ run.children = hash.children ++ pairs ∧
      pairs.foldl addArgument (hash :: before) = run :: before := by
  induction pairs generalizing hash with
  | nil => exact ⟨hash, hhash, by simp, rfl⟩
  | cons pair rest ih =>
    rw [List.forall_mem_cons] at hpairs
    have hnext : (hash.addPair pair).kind = bareHash := hhash
    obtain ⟨run, hkind, hchildren, hrun⟩ := ih hpairs.2 hnext
    refine ⟨run, hkind, ?_, ?_⟩
    · rw [hchildren]
      simp [addPair]
    · rw [← hrun, List.foldl_cons]
      simp [addArgument, hpairs.1, hhash]

theorem groupPairs_append_of_no_pair {rest : List Node}
    (hrest : ∀ argument ∈ rest, argument.kind ≠ "pair") (arguments : List Node) :
    groupPairs (arguments ++ rest) = groupPairs arguments ++ rest := by
  rw [groupPairs, List.foldl_append, foldl_addArgument_of_no_pair hrest]
  simp [groupPairs]

theorem groupPairs_append_run {arguments pairs : List Node} (hends : EndsRun arguments)
    (hpairs : ∀ pair ∈ pairs, pair.kind = "pair") (hne : pairs ≠ []) :
    ∃ run : Node, run.kind = bareHash ∧ run.children = pairs ∧
      groupPairs (arguments ++ pairs) = groupPairs arguments ++ [run] := by
  obtain ⟨first, rest, rfl⟩ := List.exists_cons_of_ne_nil hne
  rw [List.forall_mem_cons] at hpairs
  obtain ⟨run, hkind, hchildren, hrun⟩ :=
    foldl_addArgument_run hpairs.2 (show first.ofPair.kind = bareHash from rfl)
      (arguments.foldl addArgument [])
  refine ⟨run, hkind, hchildren, ?_⟩
  rw [groupPairs, List.foldl_append, List.foldl_cons, hends.addArgument_pair hpairs.1, hrun]
  simp [groupPairs]

/-! ### What a call declares -/

theorem literal?_of_isOptions {node : Node} (hoptions : node.isOptions = true) :
    node.literal? = none := by
  have hkind : node.kind = "hash" ∨ node.kind = bareHash := by
    simpa [holdsOptions] using (Bool.and_eq_true_iff.1 hoptions).1
  rcases hkind with hkind | hkind <;> rw [literal?, hkind] <;> rfl

theorem filterMap_literal?_filter (arguments : List Node) :
    (arguments.filter fun argument => !argument.isOptions).filterMap literal? =
      arguments.filterMap literal? := by
  rw [List.filterMap_filter]
  apply List.filterMap_congr
  intro argument _
  cases hoptions : argument.isOptions with
  | false => rfl
  | true => simp [literal?_of_isOptions hoptions]

/-- A node that holds the pairs of an options hash, and them alone. -/
structure HoldsPairs (node : Node) (pairs : List Node) : Prop where
  holdsOptions : node.holdsOptions = true
  children : node.children = pairs
  kind_of_mem : ∀ pair ∈ pairs, pair.kind = "pair"
  ne_nil : pairs ≠ []

theorem HoldsPairs.isOptions {node : Node} {pairs : List Node} (hholds : node.HoldsPairs pairs) :
    node.isOptions = true := by
  obtain ⟨hkind, hchildren, hpairs, hne⟩ := hholds
  obtain ⟨first, rest, rfl⟩ := List.exists_cons_of_ne_nil hne
  simp [Node.isOptions, hkind, hchildren, hpairs first List.mem_cons_self]

theorem HoldsPairs.options {node : Node} {pairs : List Node} (hholds : node.HoldsPairs pairs) :
    node.options = .ofList (pairs.filterMap option?) := by
  have hpairs : pairs.filter (·.kind == "pair") = pairs :=
    List.filter_eq_self.2 fun pair hpair => by simpa using hholds.kind_of_mem pair hpair
  rw [Node.options, if_pos hholds.holdsOptions, hholds.children, hpairs]

open Extraction

/-- What a call declares wherever it stands: with the method of a hook, a handler with the arguments
and options; with that of a route, the route of the path and options, or nothing without a path. -/
structure Declares (call : Node) (args : List Literal) (path? : Option Literal)
    (options : Conditions) : Prop where
  handler : ∀ file scope controllers verb pass,
    declareHandler file scope controllers call verb pass =
      pass.addHandler { declaration file scope controllers call args with conditions := options } verb
  route : ∀ path ∈ path?, ∀ file scope controllers verb pass,
    declareRoute file scope controllers call verb pass =
      pass.addRoute
        { declaration file scope controllers call [path] with verb, conditions := options }
  skip : path? = none → ∀ file scope controllers verb pass,
    ∃ warning, declareRoute file scope controllers call verb pass = .ok (pass.skip warning)

theorem declares_of_positional {call hash : Node} {front pairs : List Node}
    (hcall : call.positional = front ++ [hash]) (hhash : hash.HoldsPairs pairs) :
    call.Declares (front.filterMap literal?) (front.head?.bind literal?)
      (.ofList (pairs.filterMap option?)) := by
  have hoptions : lastOptions call.positional = .ofList (pairs.filterMap option?) := by
    rw [lastOptions, hcall, List.getLast?_concat]
    simp only [hhash.isOptions, if_true, hhash.options]
  have hargs : call.handlerArgs = front.filterMap literal? := by
    rw [handlerArgs, filterMap_literal?_filter, hcall]
    simp [literal?_of_isOptions hhash.isOptions]
  -- The options stand for the path of a call that has no other argument, and they are no path.
  have hpath (path : Literal) :
      front.head?.bind literal? = some path ↔ call.routePath? = some (.ok path) := by
    rw [routePath?, hcall]
    cases front with
    | nil => simp [literal_eq_ok_iff, literal?_of_isOptions hhash.isOptions]
    | cons first rest => simp [literal_eq_ok_iff]
  refine ⟨?_, ?_, ?_⟩
  · intro file scope controllers verb pass
    rw [declareHandler, hargs, declaration, hoptions]
  · intro path hmem file scope controllers verb pass
    rw [declareRoute, (hpath path).1 hmem, ← hoptions]
    rfl
  · intro hnone file scope controllers verb pass
    rw [declareRoute]
    cases hroute : call.routePath? with
    | none => exact ⟨_, rfl⟩
    | some result =>
      cases result with
      | error reason => exact ⟨_, rfl⟩
      | ok path => simp [(hpath path).2 hroute] at hnone

end Node

/-! ### The two forms -/

/-- The arguments of a call that ends in a run of pairs. -/
structure KeywordArguments where
  /-- What comes before the run. -/
  leading : List Concrete
  /-- The pairs, with the tokens and comments between them. -/
  run : List Concrete
  /-- The block arguments after the run. -/
  blocks : List Concrete
  /-- No pair stands right before the run, nor a bare hash: only lowering makes those. -/
  starts : ∀ last ∈ (leading.filter Concrete.isSkeleton).getLast?,
    last.kind ≠ "pair" ∧ last.kind ≠ Node.bareHash
  pairs : ∀ part ∈ run, part.isSkeleton = true → part.kind = "pair"
  nonempty : ∃ part ∈ run, part.isSkeleton = true
  isBlock : ∀ part ∈ blocks, part.isSkeleton = true → part.kind = "block_argument"

/-- A hash in braces around a run of pairs. -/
structure Concrete.Braces (hash : Concrete) (run : List Concrete) : Prop where
  kind : hash.kind = "hash"
  named : hash.named = true
  children : ∃ opening closing, hash.children = opening ++ run ++ closing ∧
    ∀ part ∈ opening ++ closing, part.isSkeleton = false

/-- A call with a list of arguments. -/
structure Concrete.CallsWith (call : Concrete) (arguments : List Concrete) : Prop where
  kind : call.kind = "call"
  arguments : ∃ list,
    (call.children.filter isSkeleton).find? (·.field == some "arguments") = some list ∧
      list.kind = "argument_list" ∧ list.children = arguments

theorem Concrete.CallsWith.positional {call : Concrete} {arguments : List Concrete}
    (hcall : call.CallsWith arguments) (bytes : ByteArray) :
    (call.lower bytes).positional =
      (Node.groupPairs (lowerList bytes arguments)).filter (·.kind != "block_argument") := by
  obtain ⟨hkind, list, hfind, hlist, rfl⟩ := hcall
  have hchild : (call.lower bytes).child? "arguments" = some (list.lower bytes) := by
    rw [Node.child?, children_lower_of_ne bytes (by rw [hkind]; decide), lowerList_eq,
      List.find?_map]
    simp only [Function.comp_def, field_lower, hfind, Option.map_some]
  rw [Node.positional, hchild, ← children_lower_argumentList bytes hlist]

namespace KeywordArguments

open Concrete (lowerList)

/-- The arguments with their pairs bare. -/
def bare (keywords : KeywordArguments) : List Concrete :=
  keywords.leading ++ keywords.run ++ keywords.blocks

/-- The arguments with a hash for their pairs. -/
def braced (keywords : KeywordArguments) (hash : Concrete) : List Concrete :=
  keywords.leading ++ hash :: keywords.blocks

variable (keywords : KeywordArguments) (bytes : ByteArray)

/-- The arguments before the pairs, block arguments left out. -/
def front : List Node :=
  (Node.groupPairs (lowerList bytes keywords.leading)).filter (·.kind != "block_argument")

/-- The static arguments before the pairs. -/
def args : List Literal :=
  (keywords.front bytes).filterMap Node.literal?

/-- The first argument, if there is one before the pairs and it is static. -/
def path? : Option Literal :=
  (keywords.front bytes).head?.bind Node.literal?

/-- The options that the pairs spell. -/
def options : Conditions :=
  .ofList ((lowerList bytes keywords.run).filterMap Node.option?)

theorem endsRun_leading : Node.EndsRun (lowerList bytes keywords.leading) := by
  intro last hlast
  rw [Concrete.lowerList_eq, List.getLast?_map] at hlast
  obtain ⟨tree, htree, rfl⟩ := Option.map_eq_some_iff.1 hlast
  rw [Concrete.kind_lower]
  exact keywords.starts tree htree

theorem kind_run : ∀ pair ∈ lowerList bytes keywords.run, pair.kind = "pair" :=
  Concrete.kind_of_mem_lowerList_of_skeleton bytes keywords.pairs

theorem run_ne_nil : lowerList bytes keywords.run ≠ [] := by
  obtain ⟨part, hpart, hskeleton⟩ := keywords.nonempty
  rw [Concrete.lowerList_eq]
  exact List.ne_nil_of_mem (List.mem_map_of_mem (List.mem_filter.2 ⟨hpart, hskeleton⟩))

theorem kind_blocks :
    ∀ part ∈ lowerList bytes keywords.blocks, part.kind = "block_argument" :=
  Concrete.kind_of_mem_lowerList_of_skeleton bytes keywords.isBlock

theorem blocks_no_pair : ∀ part ∈ lowerList bytes keywords.blocks, part.kind ≠ "pair" := by
  intro part hpart
  rw [keywords.kind_blocks bytes part hpart]
  decide

theorem filter_options_blocks {hash : Node} (hhash : hash.kind ≠ "block_argument") :
    (hash :: lowerList bytes keywords.blocks).filter (·.kind != "block_argument") = [hash] := by
  have hblocks : (lowerList bytes keywords.blocks).filter (·.kind != "block_argument") = [] := by
    simpa using keywords.kind_blocks bytes
  rw [List.filter_cons, if_pos (by simpa using hhash), hblocks]

theorem positional_bare {call : Concrete} (hcall : call.CallsWith keywords.bare) :
    ∃ hash : Node, hash.HoldsPairs (lowerList bytes keywords.run) ∧
      (call.lower bytes).positional = keywords.front bytes ++ [hash] := by
  have hpairs := keywords.kind_run bytes
  have hne := keywords.run_ne_nil bytes
  obtain ⟨hash, hkind, hchildren, hgroup⟩ :=
    Node.groupPairs_append_run (keywords.endsRun_leading bytes) hpairs hne
  refine ⟨hash, ⟨by simp [Node.holdsOptions, hkind], hchildren, hpairs, hne⟩, ?_⟩
  rw [hcall.positional, bare, Concrete.lowerList_append, Concrete.lowerList_append,
    Node.groupPairs_append_of_no_pair (keywords.blocks_no_pair bytes), hgroup, List.append_assoc,
    List.filter_append, List.singleton_append,
    keywords.filter_options_blocks bytes (by rw [hkind]; decide), front]

theorem positional_braced {call hash : Concrete} (hhash : hash.Braces keywords.run)
    (hcall : call.CallsWith (keywords.braced hash)) :
    ∃ hash : Node, hash.HoldsPairs (lowerList bytes keywords.run) ∧
      (call.lower bytes).positional = keywords.front bytes ++ [hash] := by
  obtain ⟨hkind, hnamed, opening, closing, hchildren, houter⟩ := hhash
  rw [List.forall_mem_append] at houter
  have hlowered : (hash.lower bytes).children = lowerList bytes keywords.run := by
    rw [Concrete.children_lower_of_ne bytes (by rw [hkind]; decide), hchildren,
      Concrete.lowerList_append, Concrete.lowerList_append,
      Concrete.lowerList_of_no_skeleton bytes houter.1,
      Concrete.lowerList_of_no_skeleton bytes houter.2, List.nil_append, List.append_nil]
  have hlowerKind : (hash.lower bytes).kind = "hash" := by rw [Concrete.kind_lower, hkind]
  have hskeleton : hash.isSkeleton = true := by simp [Concrete.isSkeleton, hnamed, hkind]
  have hrest : ∀ part ∈ hash.lower bytes :: lowerList bytes keywords.blocks,
      part.kind ≠ "pair" :=
    List.forall_mem_cons.2 ⟨by rw [hlowerKind]; decide, keywords.blocks_no_pair bytes⟩
  refine ⟨hash.lower bytes, ⟨by simp [Node.holdsOptions, hlowerKind], hlowered,
    keywords.kind_run bytes, keywords.run_ne_nil bytes⟩, ?_⟩
  rw [hcall.positional, braced, Concrete.lowerList_append, Concrete.lowerList, if_pos hskeleton,
    Node.groupPairs_append_of_no_pair hrest, List.filter_append,
    keywords.filter_options_blocks bytes (by rw [hlowerKind]; decide), front]

/-- **Bare options and options in braces declare the same.** Two calls, of one text or of two, that
have the same arguments before the same pairs, bare in one and in a hash in the other, declare with
every verb and in all surroundings a handler of the same arguments and options, and a route of the
same path and options or none. -/
theorem bare_declares_as_braced (keywords keywords' : KeywordArguments) (bytes bytes' : ByteArray)
    (hleading : lowerList bytes' keywords'.leading = lowerList bytes keywords.leading)
    (hrun : lowerList bytes' keywords'.run = lowerList bytes keywords.run)
    {call call' hash : Concrete} (hcall : call.CallsWith keywords.bare)
    (hhash : hash.Braces keywords'.run) (hcall' : call'.CallsWith (keywords'.braced hash)) :
    (call.lower bytes).Declares (keywords.args bytes) (keywords.path? bytes)
        (keywords.options bytes) ∧
      (call'.lower bytes').Declares (keywords.args bytes) (keywords.path? bytes)
        (keywords.options bytes) := by
  have hfront : keywords'.front bytes' = keywords.front bytes := by rw [front, front, hleading]
  obtain ⟨bareHash, hbare, hpositional⟩ := keywords.positional_bare bytes hcall
  obtain ⟨bracedHash, hbraced, hpositional'⟩ := keywords'.positional_braced bytes' hhash hcall'
  rw [hrun] at hbraced
  rw [hfront] at hpositional'
  exact ⟨Node.declares_of_positional hpositional hbare,
    Node.declares_of_positional hpositional' hbraced⟩

/-- A path, the options `a: 1` and `b: x` on two lines with a comment after the first, and a block
argument; the options start at one offset and the comma after them stands at another. -/
def rootRoute (start after : Nat) : KeywordArguments where
  leading := [⟨"string", true, none, 4, 7, 0, [⟨"string_content", true, none, 5, 6, 0, []⟩]⟩,
    ⟨",", false, none, 7, 8, 0, []⟩]
  run := [⟨"pair", true, none, start, start + 4, 0,
      [⟨"hash_key_symbol", true, some "key", start, start + 1, 0, []⟩,
        ⟨":", false, none, start + 1, start + 2, 0, []⟩,
        ⟨"integer", true, some "value", start + 3, start + 4, 0, []⟩]⟩,
    ⟨",", false, none, start + 4, start + 5, 0, []⟩,
    ⟨"comment", true, none, start + 6, start + 9, 0, []⟩,
    ⟨"pair", true, none, start + 11, start + 15, 1,
      [⟨"hash_key_symbol", true, some "key", start + 11, start + 12, 1, []⟩,
        ⟨":", false, none, start + 12, start + 13, 1, []⟩,
        ⟨"identifier", true, some "value", start + 14, start + 15, 1, []⟩]⟩]
  blocks := [⟨",", false, none, after, after + 1, 1, []⟩,
    ⟨"block_argument", true, none, after + 2, after + 4, 1,
      [⟨"identifier", true, none, after + 3, after + 4, 1, []⟩]⟩]
  starts := by decide
  pairs := by simp [Concrete.isSkeleton]
  nonempty := by simp [Concrete.isSkeleton]
  isBlock := by simp [Concrete.isSkeleton]

/-- A hash in braces around the options of `rootRoute`, which start after its opening brace. -/
def rootHash : Concrete :=
  ⟨"hash", true, none, 9, 26, 0,
    ⟨"\x7b", false, none, 9, 10, 0, []⟩ :: (rootRoute 10 26).run ++
      [⟨"\x7d", false, none, 25, 26, 1, []⟩]⟩

/-- A call of `get` with arguments up to an offset. -/
def getCall (arguments : List Concrete) (stop : Nat) : Concrete :=
  ⟨"call", true, none, 0, stop, 0,
    [⟨"identifier", true, some "method", 0, 3, 0, []⟩,
      ⟨"argument_list", true, some "arguments", 4, stop, 0, arguments⟩]⟩

theorem bare_declares_as_braced_rootRoute :
    let bytes := "get \"/\", a: 1, # n\n b: x, &c".toUTF8
    let bytes' := "get \"/\", \x7ba: 1, # n\n b: x\x7d, &c".toUTF8
    let call := getCall (rootRoute 9 24).bare 28
    let call' := getCall ((rootRoute 10 26).braced rootHash) 30
    let options := .ofList [(.symbol "a", .integer 1), (.symbol "b", .raw "x")]
    (call.lower bytes).source = "get \"/\", a: 1, # n\n b: x, &c" ∧
      (call'.lower bytes').source = "get \"/\", \x7ba: 1, # n\n b: x\x7d, &c" ∧
      (call.lower bytes).Declares [.text "/"] (some (.text "/")) options ∧
      (call'.lower bytes').Declares [.text "/"] (some (.text "/")) options := by
  intro bytes bytes' call call' options
  have hargs : (rootRoute 9 24).args bytes = [.text "/"] := by decide +kernel
  have hpath : (rootRoute 9 24).path? bytes = some (.text "/") := by decide +kernel
  have hoptions : (rootRoute 9 24).options bytes = options := by decide +kernel
  have hcall : call.CallsWith (rootRoute 9 24).bare := ⟨rfl, _, rfl, rfl, rfl⟩
  have hcall' : call'.CallsWith ((rootRoute 10 26).braced rootHash) := ⟨rfl, _, rfl, rfl, rfl⟩
  have hhash : rootHash.Braces (rootRoute 10 26).run := ⟨rfl, rfl, [_], [_], rfl, by decide⟩
  have hleading : lowerList bytes' (rootRoute 10 26).leading =
      lowerList bytes (rootRoute 9 24).leading := by
    have hsources : ∀ range ∈ [(4, 7), (5, 6)],
        Concrete.slice bytes' range.1 range.2 = Concrete.slice bytes range.1 range.2 := by
      decide +kernel
    simp only [List.forall_mem_cons] at hsources
    simp [rootRoute, Concrete.lowerList, Concrete.lower, Concrete.isSkeleton, hsources]
  -- The brace moves each text of a pair by one byte.
  have hrun : lowerList bytes' (rootRoute 10 26).run = lowerList bytes (rootRoute 9 24).run := by
    have hsources : ∀ range ∈ [(9, 13), (9, 10), (12, 13), (20, 24), (20, 21), (23, 24)],
        Concrete.slice bytes' (range.1 + 1) (range.2 + 1) =
          Concrete.slice bytes range.1 range.2 := by
      decide +kernel
    simp only [List.forall_mem_cons] at hsources
    simp [rootRoute, Concrete.lowerList, Concrete.lower, Concrete.isSkeleton, hsources]
  have hdeclares := bare_declares_as_braced (rootRoute 9 24) (rootRoute 10 26) bytes bytes'
    hleading hrun hcall hhash hcall'
  rw [hargs, hpath, hoptions] at hdeclares
  exact ⟨by decide +kernel, by decide +kernel, hdeclares⟩

end KeywordArguments

end RouteCatalog
