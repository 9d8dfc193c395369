import RouteCatalog.Command.Run
import RouteCatalog.Proofs.Extraction.Growth

/-!
# What the totals of a project leave out

A walk counts what it adds, up to its end or to where it is stopped (`Extraction.Counts`). The
totals of a project are made of the counts of the files that came to their ends. A file that stops
keeps its records in the registry, but what it had counted is dropped: `Project.uncounted` adds up
these counts over a project, and is exactly what the totals are short of (`Project.Balances`). The
lines of the log that tell how much was found (`LogLine.isTotal`) give the totals, so they can be
too low, and can say that nothing was found where the catalog lists records.
-/

namespace RouteCatalog

namespace Summary

@[simp]
theorem add_routes (first second : Summary) :
    (first + second).routes = first.routes + second.routes := rfl

@[simp]
theorem add_handlers (first second : Summary) :
    (first + second).handlers = first.handlers + second.handlers := rfl

end Summary

namespace Extraction

/-! ### One file -/

/-- What was counted is what was added to a registry, and no warning speaks of the whole project. -/
structure Counts (registry : Registry) (pass : Pass) : Prop where
  routes : pass.registry.routes.length = registry.routes.length + pass.summary.routes
  handlers : pass.registry.handlers.length = registry.handlers.length + pass.summary.handlers
  warnings : Warning.nothingFound ∉ pass.warnings

section Counting

variable {registry : Registry} {pass : Pass}

theorem Counts.skip (hcounts : Counts registry pass) {warning : Warning}
    (hwarning : warning ≠ .nothingFound) : Counts registry (pass.skip warning) where
  routes := hcounts.routes
  handlers := hcounts.handlers
  warnings := by
    intro hmem
    rcases List.mem_append.1 hmem with hmem | hmem
    · exact hcounts.warnings hmem
    · exact hwarning (List.mem_singleton.1 hmem).symm

theorem Counts.openNamespace (hcounts : Counts registry pass) (file : SourceFile)
    (parent name : String) (kind : NamespaceKind) (line : Nat) :
    Counts registry (passOf (Event.perform file pass (.opening parent name kind line))) := by
  rw [Event.perform, Pass.openNamespace]
  rcases hregister : pass.registry.registerNamespace parent name kind ⟨file.path, line⟩ with
    ⟨error | path, after⟩
  · rw [Registry.registerNamespace_error hregister]
    exact hcounts
  · obtain ⟨-, -, ⟨-, rfl⟩ | ⟨-, rfl⟩⟩ := Registry.registerNamespace_cases hregister
    · exact hcounts
    · exact ⟨hcounts.routes, hcounts.handlers, hcounts.warnings⟩

theorem Counts.addRoute (hcounts : Counts registry pass) (route : Route) :
    Counts registry (passOf (pass.addRoute route)) := by
  rw [Pass.addRoute]
  rcases hregister : pass.registry.registerRoute route with ⟨error | registration, after⟩
  · rw [Registry.registerRoute_error hregister]
    exact hcounts
  · rcases Registry.registerRoute_cases hregister with ⟨hother, rfl⟩ | ⟨rfl, -, -, rfl⟩
    · cases registration with
      | added => exact absurd rfl hother
      | duplicate => exact hcounts.skip (by simp)
      | collision holder => exact hcounts.skip (by simp)
    · refine ⟨?_, hcounts.handlers, hcounts.warnings⟩
      have hroutes := hcounts.routes
      show (pass.registry.routes ++ [route]).length = _ + (pass.summary.routes + 1)
      rw [List.length_append, List.length_singleton]
      omega

theorem Counts.addHandler (hcounts : Counts registry pass) (declaration : Declaration)
    (verb : HookVerb) : Counts registry (passOf (pass.addHandler declaration verb)) := by
  simp only [Pass.addHandler, Registry.takeSerial]
  -- Taking the number touches neither the lists nor the counts.
  rcases hregister : Registry.registerHandler
      { pass.registry with nextSerial := pass.registry.nextSerial + 1 }
      { declaration with verb, serial := pass.registry.nextSerial } with
    ⟨error | registration, after⟩
  · rw [Registry.registerHandler_error hregister]
    exact ⟨hcounts.routes, hcounts.handlers, hcounts.warnings⟩
  · rcases Registry.registerHandler_cases hregister with ⟨hother, rfl⟩ | ⟨rfl, -, -, rfl⟩
    · cases registration with
      | added => exact absurd rfl hother
      | duplicate => exact ⟨hcounts.routes, hcounts.handlers, hcounts.warnings⟩
      | collision holder => exact ⟨hcounts.routes, hcounts.handlers, hcounts.warnings⟩
    · refine ⟨hcounts.routes, ?_, hcounts.warnings⟩
      have hhandlers := hcounts.handlers
      show (pass.registry.handlers ++ [_]).length = _ + (pass.summary.handlers + 1)
      rw [List.length_append, List.length_singleton]
      omega

theorem Counts.perform (hcounts : Counts registry pass) (file : SourceFile) (event : Event) :
    Counts registry (passOf (event.perform file pass)) := by
  cases event with
  | opening parent name kind line => exact hcounts.openNamespace file parent name kind line
  | hook owner controller verb call => exact hcounts.addHandler _ verb
  | route owner controller verb call =>
    rw [Event.perform]
    cases call.routePath? with
    | none => exact hcounts.skip (by simp)
    | some read =>
      cases read with
      | error reason => exact hcounts.skip (by simp)
      | ok path => exact hcounts.addRoute _

end Counting

end Extraction

namespace SourceFile

theorem lastPass_counts (file : SourceFile) (registry : Registry) :
    Extraction.Counts registry (file.lastPass registry) :=
  file.lastPass_induction (fun event _ _ hcounts => hcounts.perform file event)
    ⟨rfl, rfl, List.not_mem_nil⟩

/-- What a file had counted when it was stopped, and nothing if it was not. -/
def uncounted (file : SourceFile) (registry : Registry) : Summary :=
  match (file.extract registry).result with
  | .ok _ => {}
  | .error _ => (file.lastPass registry).summary

end SourceFile

namespace Project

/-! ### All files -/

/-- What the files that stop had counted, when files are extracted in order. -/
def uncounted (registry : Registry) : List SourceFile → Summary
  | [] => {}
  | file :: rest =>
    file.uncounted registry + uncounted (file.extract registry).registry rest

/-- The totals grew by what the lists of the registry grew by, less what is missed. -/
structure Balances (progress : Progress) (missed : Summary) (after : Progress) : Prop where
  routes : after.registry.routes.length + progress.summary.routes =
    progress.registry.routes.length + after.summary.routes + missed.routes
  handlers : after.registry.handlers.length + progress.summary.handlers =
    progress.registry.handlers.length + after.summary.handlers + missed.handlers
  warnings : Warning.nothingFound ∈ after.warnings → Warning.nothingFound ∈ progress.warnings

theorem add_registry (progress : Progress) (file : SourceFile) :
    (progress.add file).registry = (file.extract progress.registry).registry := by
  dsimp only [Progress.add]
  split <;> rfl

theorem add_balances (progress : Progress) (file : SourceFile) :
    Balances progress (file.uncounted progress.registry) (progress.add file) := by
  obtain ⟨hroutes, hhandlers, hwarnings⟩ := file.lastPass_counts progress.registry
  rcases file.extract_of_lastPass progress.registry with hextract | ⟨error, hextract⟩
  · rw [Progress.add, SourceFile.uncounted, hextract]
    constructor
    · simp only [Summary.add_routes]
      omega
    · simp only [Summary.add_handlers]
      omega
    · intro hmem
      exact (List.mem_append.1 hmem).resolve_right hwarnings
  · rw [Progress.add, SourceFile.uncounted, hextract]
    constructor
    · dsimp only
      omega
    · dsimp only
      omega
    · intro hmem
      rcases List.mem_append.1 hmem with hmem | hmem
      · exact (List.mem_append.1 hmem).resolve_right hwarnings
      · cases List.mem_singleton.1 hmem

theorem foldl_add_balances (files : List SourceFile) (progress : Progress) :
    Balances progress (uncounted progress.registry files) (files.foldl Progress.add progress) := by
  -- A file starts from the registry that the files before it left, stopped or not.
  induction files generalizing progress with
  | nil => exact ⟨rfl, rfl, id⟩
  | cons file files ih =>
    obtain ⟨hroutes, hhandlers, hwarnings⟩ := add_balances progress file
    obtain ⟨hroutes', hhandlers', hwarnings'⟩ := ih (progress.add file)
    rw [add_registry] at hroutes hhandlers hroutes' hhandlers'
    rw [List.foldl_cons, uncounted]
    constructor
    · rw [Summary.add_routes]
      omega
    · rw [Summary.add_handlers]
      omega
    · exact fun hmem => hwarnings (hwarnings' hmem)

theorem uncounted_of_refusal?_eq_none {files : List SourceFile} :
    ∀ {registry : Registry}, registry.Numbered →
      (∀ file ∈ files, file.refusal? registry.tags = none) → uncounted registry files = {} := by
  induction files with
  | nil => exact fun _ _ => rfl
  | cons file files ih =>
    intro registry hnumbered hnone
    obtain ⟨hnext, hextends⟩ := file.extract_numbered hnumbered
    have hrest : uncounted (file.extract registry).registry files = {} := by
      refine ih hnext fun other hother => ?_
      rw [hextends.tags_eq]
      exact hnone other (List.mem_cons_of_mem _ hother)
    obtain ⟨pass, -, hextract⟩ :=
      file.extract_of_refusal?_eq_none hnumbered (hnone file List.mem_cons_self)
    have hfile : file.uncounted registry = {} := by rw [SourceFile.uncounted, hextract]
    rw [uncounted, hfile, hrest]
    rfl

end Project

/-! ### The log -/

/-- Whether a line of the log tells how much was found. -/
def LogLine.isTotal : LogLine → Bool
  | .info (.extracted _) => true
  | .info (.routeTotal _) => true
  | .info (.handlerTotal _) => true
  | .warn .nothingFound => true
  | _ => false

namespace Project

/-- The lines that tell what was found when a registry is built. -/
def reported (summary : Summary) : List LogLine :=
  .info (.extracted summary) ::
    if summary.routes = 0 ∧ summary.handlers = 0 then [.warn .nothingFound] else []

theorem filter_warnAll {warnings : List Warning} (hquiet : .nothingFound ∉ warnings) :
    (warnAll warnings).filter LogLine.isTotal = [] := by
  rw [List.filter_eq_nil_iff]
  intro line hline
  obtain ⟨warning, hwarning, rfl⟩ := List.mem_map.1 hline
  cases warning with
  | nothingFound => exact absurd hwarning hquiet
  | _ => exact Bool.false_ne_true

theorem filter_reported (summary : Summary) :
    (reported summary).filter LogLine.isTotal = reported summary := by
  unfold reported
  split <;> rfl

theorem scan_quiet (tree : Entry) (root : Path) : .nothingFound ∉ (tree.scan root).warnings := by
  unfold Entry.scan
  split <;> simp

theorem readFile_quiet (grammar : Grammar) (tree : Entry) (path : Path) :
    .nothingFound ∉ (readFile grammar tree path).2 := by
  unfold readFile
  split
  · simp only [Parse.warnings]
    split <;> simp
  · simp

theorem reads_quiet (grammar : Grammar) (tree : Entry) (paths : List Path) :
    .nothingFound ∉ (paths.map (readFile grammar tree)).flatMap Prod.snd := by
  intro hmem
  obtain ⟨read, hread, hmem⟩ := List.mem_flatMap.1 hmem
  obtain ⟨path, -, rfl⟩ := List.mem_map.1 hread
  exact readFile_quiet grammar tree path hmem

theorem buildFiles_log (files : List SourceFile) :
    (buildFiles files).log.filter LogLine.isTotal = reported (extractAll files).summary := by
  have hquiet : .nothingFound ∉ (extractAll files).warnings :=
    fun hmem => List.not_mem_nil ((foldl_add_balances files {}).warnings hmem)
  have hlog : (buildFiles files).log = [.info .extracting] ++
      warnAll (extractAll files).warnings ++ reported (extractAll files).summary := by
    simp [buildFiles, reported]
  rw [hlog, List.filter_append, List.filter_append, filter_warnAll hquiet, filter_reported]
  rfl

/-- The files of a project that can be read, in the order of the scan. -/
def sources (grammar : Grammar) (tree : Entry) (root : Path) : List SourceFile :=
  ((tree.scan root).files.map (readFile grammar tree)).filterMap Prod.fst

theorem build_of_ok {grammar : Grammar} {tree : Entry} {root : Path} {registry : Registry}
    {summary : Summary} (hbuild : (build grammar tree root).result = .ok (registry, summary)) :
    registry = (extractAll (sources grammar tree root)).registry ∧
      summary = (extractAll (sources grammar tree root)).summary ∧
      (build grammar tree root).log.filter LogLine.isTotal = reported summary := by
  have hscan := filter_warnAll (scan_quiet tree root)
  have hreads := filter_warnAll (reads_quiet grammar tree (tree.scan root).files)
  dsimp only [build] at hbuild ⊢
  split_ifs at hbuild ⊢ with hfound hread
  obtain ⟨rfl, rfl⟩ := Prod.mk.inj (Except.ok.inj hbuild)
  refine ⟨rfl, rfl, ?_⟩
  rw [List.filter_append, buildFiles_log]
  simp only [List.filter_append, hscan, hreads]
  rfl

end Project

namespace Command

theorem filter_validate {tree : Entry} {arguments : Arguments} {log : List LogLine}
    (hvalid : validate tree arguments = .ok log) : log.filter LogLine.isTotal = [] := by
  unfold validate at hvalid
  split at hvalid
  · cases hvalid
  · cases hvalid
  · obtain rfl := Except.ok.inj hvalid
    cases arguments.stats <;> cases arguments.output <;> rfl

theorem filter_content (arguments : Arguments) (registry : Registry) :
    (content arguments registry).2.filter LogLine.isTotal = [] := by
  unfold content
  split <;> rfl

theorem filter_deliver (tree : Entry) (output : Option Path) (text : String) :
    (deliver tree output text).log.filter LogLine.isTotal = [] := by
  unfold deliver
  split
  · rfl
  · split <;> rfl

variable {grammar : Grammar} {tree : Entry} {arguments : Arguments}

theorem filter_generate {registry : Registry} {summary : Summary}
    (hbuild : (Project.build grammar tree arguments.project).result = .ok (registry, summary))
    (hresult : (generate grammar tree arguments).result = .ok ()) :
    (generate grammar tree arguments).log.filter LogLine.isTotal =
      Project.reported summary ++
        [.info (.routeTotal summary.routes), .info (.handlerTotal summary.handlers)] := by
  obtain ⟨-, -, hlog⟩ := Project.build_of_ok hbuild
  have hcontent := filter_content arguments registry
  dsimp only [generate] at hresult ⊢
  rw [hbuild] at hresult ⊢
  dsimp only at hresult ⊢
  cases htext : (content arguments registry).1 with
  | error error => simp [htext] at hresult
  | ok text =>
    have hdeliver := filter_deliver tree arguments.output text
    rw [htext] at hresult
    dsimp only at hresult ⊢
    cases hdelivered : (deliver tree arguments.output text).result with
    | error error => simp [hdelivered] at hresult
    | ok _ =>
      simp only [List.filter_append, hlog, hcontent, hdeliver, List.append_nil]
      rfl

theorem filter_run {registry : Registry} {summary : Summary}
    (hbuild : (Project.build grammar tree arguments.project).result = .ok (registry, summary))
    (hresult : (run grammar tree arguments).result = .ok ()) :
    (run grammar tree arguments).log.filter LogLine.isTotal =
      Project.reported summary ++
        [.info (.routeTotal summary.routes), .info (.handlerTotal summary.handlers)] := by
  unfold run at hresult ⊢
  cases hvalid : validate tree arguments with
  | error error => simp [hvalid] at hresult
  | ok log =>
    rw [hvalid] at hresult
    have hgenerate := filter_generate hbuild hresult
    simp only [List.filter_append, filter_validate hvalid, hgenerate]
    rfl

end Command

namespace Project

/-- **The totals of a project are short of what its stopped files had counted**, and of nothing
else: where no file is refused, they are the numbers of routes and handlers in the registry. The
lines of the log that tell how much was found give the totals, and the warning that nothing was
found stands among them exactly if the totals count no route and no handler. -/
theorem build_totals (grammar : Grammar) (tree : Entry) (root : Path) (registry : Registry)
    (summary : Summary) (hbuild : (build grammar tree root).result = .ok (registry, summary)) :
    let files := sources grammar tree root
    let missed := uncounted .empty files
    registry.routes.length = summary.routes + missed.routes ∧
      registry.handlers.length = summary.handlers + missed.handlers ∧
      ((∀ file ∈ files, file.refusal? .standard = none) →
        summary.routes = registry.routes.length ∧ summary.handlers = registry.handlers.length) ∧
      (build grammar tree root).log.filter LogLine.isTotal = reported summary ∧
      ∀ arguments : Command.Arguments, arguments.project = root →
        (Command.run grammar tree arguments).result = .ok () →
          (Command.run grammar tree arguments).log.filter LogLine.isTotal =
            reported summary ++
              [.info (.routeTotal summary.routes), .info (.handlerTotal summary.handlers)] := by
  intro files missed
  obtain ⟨hregistry, hsummary, hlog⟩ := build_of_ok hbuild
  have hbalances : Balances {} missed (extractAll files) := foldl_add_balances files {}
  have hroutes : registry.routes.length = summary.routes + missed.routes := by
    have hall : _ + 0 = 0 + _ + missed.routes := hbalances.routes
    rw [← hregistry, ← hsummary] at hall
    omega
  have hhandlers : registry.handlers.length = summary.handlers + missed.handlers := by
    have hall : _ + 0 = 0 + _ + missed.handlers := hbalances.handlers
    rw [← hregistry, ← hsummary] at hall
    omega
  refine ⟨hroutes, hhandlers, fun hnone => ?_, hlog, ?_⟩
  · have hmissed : missed = {} :=
      uncounted_of_refusal?_eq_none (Registry.numbered_ofTags .standard) hnone
    rw [hmissed] at hroutes hhandlers
    exact ⟨hroutes.symm, hhandlers.symm⟩
  · rintro arguments rfl hresult
    exact Command.filter_run hbuild hresult

/-- A class that declares a route, opens a group under a name that is no path, and goes on. -/
def haltingSource : String :=
  "class App\n  get :first\n  App.new.controllers :x do\n    get :index\n  end\n  get :lost\nend\n"

/-- The syntax of that class. -/
def haltingParse : Parse where
  hasError := false
  tree := ⟨"program", true, none, 0, 88, 0,
    [⟨"class", true, none, 0, 87, 0,
      [⟨"class", false, none, 0, 5, 0, []⟩,
        ⟨"constant", true, some "name", 6, 9, 0, []⟩,
        ⟨"body_statement", true, some "body", 12, 83, 1, [get 12 22 1, group, get 74 83 5]⟩,
        ⟨"end", false, none, 84, 87, 6, []⟩]⟩]⟩
where
  get (start stop row : Nat) : Concrete :=
    ⟨"call", true, none, start, stop, row,
      [⟨"identifier", true, some "method", start, start + 3, row, []⟩,
        ⟨"argument_list", true, some "arguments", start + 4, stop, row,
          [⟨"simple_symbol", true, none, start + 4, stop, row, []⟩]⟩]⟩
  group : Concrete :=
    ⟨"call", true, none, 25, 71, 2,
      [⟨"call", true, some "receiver", 25, 32, 2,
          [⟨"constant", true, some "receiver", 25, 28, 2, []⟩,
            ⟨".", false, some "operator", 28, 29, 2, []⟩,
            ⟨"identifier", true, some "method", 29, 32, 2, []⟩]⟩,
        ⟨".", false, some "operator", 32, 33, 2, []⟩,
        ⟨"identifier", true, some "method", 33, 44, 2, []⟩,
        ⟨"argument_list", true, some "arguments", 45, 47, 2,
          [⟨"simple_symbol", true, none, 45, 47, 2, []⟩]⟩,
        ⟨"do_block", true, some "block", 48, 71, 2,
          [⟨"do", false, none, 48, 50, 2, []⟩,
            ⟨"body_statement", true, some "body", 55, 65, 3, [get 55 65 3]⟩,
            ⟨"end", false, none, 68, 71, 4, []⟩]⟩]⟩

/-- A project that holds the class in its one file. -/
def haltingProject : Entry :=
  .directory []
    [.directory (Text.encodeUtf8 "proj")
      [.file (Text.encodeUtf8 "a_broken.rb") (Text.encodeUtf8 haltingSource)]]

theorem exists_build_haltingProject :
    ∃ registry summary,
      (build (fun _ => haltingParse) haltingProject (.ofString "proj")).result =
          .ok (registry, summary) ∧
        registry.routes.length = 1 ∧ summary = ⟨0, 0, 0⟩ := by
  have hcounts :
      (build (fun _ => haltingParse) haltingProject (.ofString "proj")).result.toOption.map
        (fun built => (built.1.routes.length, built.2)) = some (1, ⟨0, 0, 0⟩) := by
    decide +kernel
  cases hresult : (build (fun _ => haltingParse) haltingProject (.ofString "proj")).result with
  | error error =>
    rw [hresult] at hcounts
    cases hcounts
  | ok built =>
    rw [hresult] at hcounts
    obtain ⟨hroutes, hsummary⟩ := Prod.mk.inj (Option.some.inj hcounts)
    exact ⟨built.1, built.2, rfl, hroutes, hsummary⟩

theorem build_totals_haltingProject :
    let files := sources (fun _ => haltingParse) haltingProject (.ofString "proj")
    (uncounted .empty files).routes = 1 ∧
      (build (fun _ => haltingParse) haltingProject (.ofString "proj")).log.filter
        LogLine.isTotal = [.info (.extracted ⟨0, 0, 0⟩), .warn .nothingFound] := by
  intro files
  obtain ⟨registry, summary, hbuild, hone, rfl⟩ := exists_build_haltingProject
  obtain ⟨hroutes, -, -, hlog, -⟩ :=
    build_totals (fun _ => haltingParse) haltingProject (.ofString "proj") _ _ hbuild
  rw [hone, Nat.zero_add] at hroutes
  exact ⟨hroutes.symm, hlog⟩

theorem not_totals_describe_registry :
    (¬∀ (grammar : Grammar) (tree : Entry) (root : Path) (registry : Registry) (summary : Summary),
      (build grammar tree root).result = .ok (registry, summary) →
        summary.routes = registry.routes.length ∧
          summary.handlers = registry.handlers.length) ∧
      ¬∀ (grammar : Grammar) (tree : Entry) (root : Path) (registry : Registry) (summary : Summary),
        (build grammar tree root).result = .ok (registry, summary) →
          .warn .nothingFound ∈ (build grammar tree root).log →
            registry.routes = [] ∧ registry.handlers = [] := by
  obtain ⟨registry, summary, hbuild, hone, rfl⟩ := exists_build_haltingProject
  refine ⟨fun hagree => ?_, fun hnone => ?_⟩
  · obtain ⟨hroutes, -⟩ := hagree _ _ _ _ _ hbuild
    rw [hone] at hroutes
    cases hroutes
  · obtain ⟨-, -, hlog⟩ := build_of_ok hbuild
    have hwarned : .warn .nothingFound ∈ reported ⟨0, 0, 0⟩ := by decide
    rw [← hlog] at hwarned
    obtain ⟨hroutes, -⟩ := hnone _ _ _ _ _ hbuild (List.mem_filter.1 hwarned).1
    rw [hroutes] at hone
    cases hone

end Project

end RouteCatalog
