import RouteCatalog.Scope.Program

/-!
# What a program observes

The stack of controllers is handed from step to step, and every block gives it back on every path
out of its body. What a program observes can therefore be read off its text: `visitsAll` lists the
moments of a program with the blocks written around them, and hands nothing on from one step to the
next. Running a step inside some blocks comes to the visits of the step there, and leaves the blocks
as they were (`runStep_inside`, `runSteps_inside`).
-/

namespace RouteCatalog

namespace Controllers

/-- The controllers inside further blocks, given by the names in them, innermost first. -/
def inside (controllers : Controllers) (around : List (Option String)) : Controllers :=
  ⟨around ++ controllers.levels⟩

theorem current_inside (controllers : Controllers) (around : List (Option String)) :
    (controllers.inside around).current = around.head?.getD controllers.current := by
  cases around with
  | nil => rfl
  | cons name around => exact current_enter (controllers.inside around) name

theorem depth_inside (controllers : Controllers) (around : List (Option String)) :
    (controllers.inside around).depth = controllers.depth + around.length := by
  rw [depth, inside, List.length_append, Nat.add_comm]
  rfl

theorem enter_inside (controllers : Controllers) (around : List (Option String))
    (name : Option String) :
    (controllers.inside around).enter name = controllers.inside (name :: around) := rfl

theorem leave_inside (controllers : Controllers) (around : List (Option String))
    (name : Option String) :
    (controllers.inside (name :: around)).leave = controllers.inside around := rfl

end Controllers

namespace Program

mutual

/-- How a step ends. -/
def endingOf : Step → Ending
  | .enter _ body => endingOfAll body
  | .attempt _ => .finished
  | .fail => .failed
  | .panic => .panicked
  | .read => .finished

/-- How steps end: like the first that aborts. -/
def endingOfAll : List Step → Ending
  | [] => .finished
  | step :: rest =>
    match endingOf step with
    | .finished => endingOfAll rest
    | ending => ending

end

/-- A moment of a program, with the names in the blocks around it, innermost first. -/
structure Visit where
  moment : Moment
  around : List (Option String)
  deriving DecidableEq, Repr, Inhabited

/-- What is observed at a visit, if the program starts under the given controllers: the controller
that the innermost block names, and one more level for every block. -/
def Visit.observed (initial : Controllers) (visit : Visit) : Event where
  moment := visit.moment
  controller := visit.around.head?.getD initial.current
  depth := initial.depth + visit.around.length

mutual

/-- The moments of a step that stands inside some blocks. -/
def visits (around : List (Option String)) : Step → List Visit
  | .enter name body =>
    ⟨.entered, name :: around⟩ :: visitsAll (name :: around) body ++
      if endingOfAll body = .finished then [⟨.left, around⟩] else []
  | .attempt body => visitsAll around body ++ [⟨.attempted (endingOfAll body), around⟩]
  | .fail => []
  | .panic => []
  | .read => [⟨.read, around⟩]

/-- The moments of steps that stand inside some blocks, up to the first that aborts. -/
def visitsAll (around : List (Option String)) : List Step → List Visit
  | [] => []
  | step :: rest =>
    visits around step ++ if endingOf step = .finished then visitsAll around rest else []

end

theorem under_inside (initial : Controllers) (around : List (Option String)) (moment : Moment) :
    Event.under (initial.inside around) moment = Visit.observed initial ⟨moment, around⟩ := by
  rw [Event.under, Controllers.current_inside, Controllers.depth_inside, Visit.observed]

mutual

theorem runStep_inside (initial : Controllers) (around : List (Option String)) :
    ∀ step : Step, runStep (initial.inside around) step =
      ⟨endingOf step, initial.inside around, (visits around step).map (Visit.observed initial)⟩
  | .enter name body => by
    rw [runStep, endingOf, visits, Controllers.within, Controllers.enter_inside]
    dsimp only
    rw [runSteps_inside initial (name :: around) body]
    cases hending : endingOfAll body <;> simp [Controllers.leave_inside, under_inside]
  | .attempt body => by
    rw [runStep, endingOf, visits, runSteps_inside initial around body]
    simp [under_inside]
  | .fail => rfl
  | .panic => rfl
  | .read => by
    rw [runStep, under_inside]
    rfl

theorem runSteps_inside (initial : Controllers) (around : List (Option String)) :
    ∀ steps : List Step, runSteps (initial.inside around) steps =
      ⟨endingOfAll steps, initial.inside around,
        (visitsAll around steps).map (Visit.observed initial)⟩
  | [] => rfl
  | step :: rest => by
    rw [runSteps, endingOfAll, visitsAll, runStep_inside initial around step]
    cases hending : endingOf step with
    | finished => simp [runSteps_inside initial around rest]
    | failed => simp
    | panicked => simp

end

theorem runSteps_eq (controllers : Controllers) (steps : List Step) :
    runSteps controllers steps =
      ⟨endingOfAll steps, controllers, (visitsAll [] steps).map (Visit.observed controllers)⟩ :=
  runSteps_inside controllers [] steps

/-- **Controllers are restored on every path**: each step, wherever it stands and however it ends,
leaves the controllers as they were before it, a whole program does so too, and all that a program
observes, on the way and at its end, is what the blocks written around it say. -/
theorem controllers_restored :
    (∀ controllers step, (runStep controllers step).controllers = controllers) ∧
      ∀ controllers steps,
        (runSteps controllers steps).controllers = controllers ∧
          trace controllers steps =
            (visitsAll [] steps).map (Visit.observed controllers) ++
              [Visit.observed controllers ⟨.over (endingOfAll steps), []⟩] := by
  refine ⟨fun controllers step => ?_, fun controllers steps => ⟨?_, ?_⟩⟩
  · exact congrArg Run.controllers (runStep_inside controllers [] step)
  · rw [runSteps_eq]
  · rw [trace, runSteps_eq]
    rfl

end Program

end RouteCatalog
