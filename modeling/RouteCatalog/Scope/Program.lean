import RouteCatalog.Scope.Controllers

/-!
# Programs over controllers

A program enters and leaves blocks, reads the controller in effect, and may abort: by failing or by
panicking, up to the nearest attempt around. A block that is aborted is left like any other, so
`Program.runSteps` gives the stack back on every path.
-/

namespace RouteCatalog.Program

/-- A step of a program. -/
inductive Step where
  /-- Runs a body inside a block that names a controller or none. -/
  | enter (name : Option String) (body : List Step)
  /-- Runs a body and goes on, whether or not the body aborts. -/
  | attempt (body : List Step)
  /-- Aborts by an early return. -/
  | fail
  /-- Aborts by unwinding. -/
  | panic
  /-- Reads the controller in effect. -/
  | read
  deriving Repr, Inhabited

/-- How a program ended. -/
inductive Ending where
  | finished
  | failed
  | panicked
  deriving DecidableEq, Repr, Inhabited

/-- What happened at a point of a program. -/
inductive Moment where
  /-- A block was entered. -/
  | entered
  /-- A block was left at the end of its body. -/
  | left
  /-- An attempt is over. -/
  | attempted (ending : Ending)
  /-- The controller was read. -/
  | read
  | over (ending : Ending)
  deriving DecidableEq, Repr, Inhabited

/-- What happened, with the controller in effect and the depth at that point. -/
structure Event where
  moment : Moment
  /-- The controller in effect. -/
  controller : Option String
  /-- The number of blocks around. -/
  depth : Nat
  deriving DecidableEq, Repr, Inhabited

/-- The event of a moment under the given controllers. -/
def Event.under (controllers : Controllers) (moment : Moment) : Event :=
  { moment, controller := controllers.current, depth := controllers.depth }

/-- What running a program leaves: how it ended, the controllers after it, and what happened. -/
structure Run where
  ending : Ending
  /-- The controllers after it. -/
  controllers : Controllers
  /-- What happened, in order. -/
  events : List Event
  deriving DecidableEq, Repr, Inhabited

mutual

/-- Runs one step. -/
def runStep (controllers : Controllers) : Step → Run
  | .enter name body =>
    let (run, outside) := controllers.within name fun inside =>
      let run := runSteps inside body
      ({ run with events := .under inside .entered :: run.events }, run.controllers)
    match run.ending with
    | .finished => ⟨.finished, outside, run.events ++ [.under outside .left]⟩
    | ending => ⟨ending, outside, run.events⟩
  | .attempt body =>
    let run := runSteps controllers body
    ⟨.finished, run.controllers, run.events ++ [.under run.controllers (.attempted run.ending)]⟩
  | .fail => ⟨.failed, controllers, []⟩
  | .panic => ⟨.panicked, controllers, []⟩
  | .read => ⟨.finished, controllers, [.under controllers .read]⟩

/-- Runs steps in order, up to the first that aborts. -/
def runSteps (controllers : Controllers) : List Step → Run
  | [] => ⟨.finished, controllers, []⟩
  | step :: rest =>
    let first := runStep controllers step
    match first.ending with
    | .finished =>
      let second := runSteps first.controllers rest
      ⟨second.ending, second.controllers, first.events ++ second.events⟩
    | ending => ⟨ending, first.controllers, first.events⟩

end

/-- Everything that happens in a program, its end included. -/
def trace (controllers : Controllers) (steps : List Step) : List Event :=
  let run := runSteps controllers steps
  run.events ++ [.under run.controllers (.over run.ending)]

end RouteCatalog.Program
