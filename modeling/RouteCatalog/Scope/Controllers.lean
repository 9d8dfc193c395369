/-!
# Controllers in effect

The stack of controllers around a place in a source file, innermost first. A level names its
controller or none, and the innermost level alone decides which controller is in effect. The stack
is handed on and given back: a block is entered through `Controllers.within`, which leaves it again.
-/

namespace RouteCatalog

/-- The controllers around a place, innermost first. -/
structure Controllers where
  /-- One level for each block, with the controller that it names, if any. -/
  levels : List (Option String) := []
  deriving DecidableEq, Repr, Inhabited

namespace Controllers

/-- The controller in effect. -/
def current (controllers : Controllers) : Option String :=
  controllers.levels.head?.join

/-- The number of blocks around the place. -/
def depth (controllers : Controllers) : Nat :=
  controllers.levels.length

/-- The controllers inside a block that names a controller or none. -/
def enter (controllers : Controllers) (name : Option String) : Controllers :=
  ⟨name :: controllers.levels⟩

/-- The controllers outside the innermost block. -/
def leave (controllers : Controllers) : Controllers :=
  ⟨controllers.levels.tail⟩

/-- Runs a body inside a block that names a controller or none. The block is left however the body
ends, which its result says. -/
def within {α : Type} (controllers : Controllers) (name : Option String)
    (body : Controllers → α × Controllers) : α × Controllers :=
  let (result, inside) := body (controllers.enter name)
  (result, inside.leave)

@[simp]
theorem leave_enter (controllers : Controllers) (name : Option String) :
    (controllers.enter name).leave = controllers := rfl

@[simp]
theorem current_enter (controllers : Controllers) (name : Option String) :
    (controllers.enter name).current = name := by
  cases name <;> rfl

@[simp]
theorem depth_enter (controllers : Controllers) (name : Option String) :
    (controllers.enter name).depth = controllers.depth + 1 := rfl

/-- A block whose body gives the controllers back gives them back too. -/
theorem within_of_eq {α : Type} {controllers : Controllers} {name : Option String}
    {body : Controllers → α × Controllers} {result : α}
    (hbody : body (controllers.enter name) = (result, controllers.enter name)) :
    controllers.within name body = (result, controllers) := by
  rw [within, hbody]
  rfl

end Controllers

end RouteCatalog
