import RouteCatalog.Proofs.Registry.Serials

/-!
# Serial numbers as something to spend

A number that was taken is in hand until a handler carries it. `Registry.Spends` says of a run of
calls that every handler carries a number in hand, so that no number is used before it was taken or
a second time; when it is used, and whether it ever is, is left open. In such a run no stored
handler carries a number in hand (`Registry.Unspent`), and so no handler finds its path held.
-/

namespace RouteCatalog

/-- The number of a handler that a call registers is one of these. -/
def Operation.PaidFrom (numbers : List Nat) : Operation → Prop
  | .addHandler handler => handler.serial ∈ numbers
  | _ => True

instance (numbers : List Nat) (operation : Operation) : Decidable (operation.PaidFrom numbers) :=
  match operation with
  | .addHandler handler => inferInstanceAs (Decidable (handler.serial ∈ numbers))
  | .openNamespace _ _ _ _ => .isTrue trivial
  | .addRoute _ => .isTrue trivial
  | .takeSerial => .isTrue trivial

namespace Registry

/-- The numbers in hand after a call. A handler uses up its number even when it is refused. -/
def inHand (registry : Registry) (numbers : List Nat) : Operation → List Nat
  | .takeSerial => registry.takeSerial.1 :: numbers
  | .addHandler handler => numbers.erase handler.serial
  | _ => numbers

/-- Every handler that calls register carries a number that is in hand at that time. -/
def Spends (registry : Registry) (numbers : List Nat) : List Operation → Prop
  | [] => True
  | operation :: rest =>
    operation.PaidFrom numbers ∧
      Spends (registry.apply operation) (registry.inHand numbers operation) rest

instance decidableSpends : (registry : Registry) → (numbers : List Nat) →
    (operations : List Operation) → Decidable (registry.Spends numbers operations)
  | _, _, [] => .isTrue trivial
  | registry, numbers, operation :: rest =>
    have := decidableSpends (registry.apply operation) (registry.inHand numbers operation) rest
    inferInstanceAs (Decidable (_ ∧ _))

/-- The numbers in hand were taken, and none of them is in use. -/
structure Unspent (registry : Registry) (numbers : List Nat) : Prop where
  numbered : registry.Numbered
  nodup : numbers.Nodup
  taken : ∀ n ∈ numbers, n < registry.nextSerial
  unused : ∀ handler ∈ registry.handlers, handler.serial ∉ numbers

theorem unspent_ofTags (tags : TagLibrary) : (ofTags tags).Unspent [] where
  numbered := numbered_ofTags tags
  nodup := List.nodup_nil
  taken _ hn := absurd hn List.not_mem_nil
  unused _ _ := List.not_mem_nil

section Calls

variable {registry : Registry} {numbers : List Nat}

theorem Unspent.of_frame {after : Registry} (hunspent : registry.Unspent numbers)
    (hstep : Step registry after)
    (hframe : after.handlers = registry.handlers ∧ after.nextSerial = registry.nextSerial) :
    after.Unspent numbers where
  numbered := by
    refine ⟨hunspent.numbered.wellFormed.step hstep, ?_⟩
    rw [hframe.1, hframe.2]
    exact hunspent.numbered.serial_lt
  nodup := hunspent.nodup
  taken := by
    rw [hframe.2]
    exact hunspent.taken
  unused := by
    rw [hframe.1]
    exact hunspent.unused

theorem Unspent.addHandler (hunspent : registry.Unspent numbers) {handler : Handler}
    (hpaid : handler.serial ∈ numbers) :
    (registry.apply (.addHandler handler)).Unspent (numbers.erase handler.serial) := by
  have hinv := hunspent.numbered.wellFormed.step (registry.apply_step (.addHandler handler))
  have hless : registry.Unspent (numbers.erase handler.serial) :=
    { numbered := hunspent.numbered
      nodup := hunspent.nodup.erase _
      taken := fun n hn => hunspent.taken n (List.mem_of_mem_erase hn)
      unused := fun other hother hmem => hunspent.unused other hother (List.mem_of_mem_erase hmem) }
  rcases registry.apply_addHandler_cases handler with hafter | ⟨-, -, hafter⟩
  · rw [hafter]
    exact hless
  · rw [hafter] at hinv ⊢
    refine ⟨⟨hinv, fun other hother => ?_⟩, hless.nodup, hless.taken, fun other hother => ?_⟩
    · rcases List.mem_append.1 hother with hother | hother
      · exact hunspent.numbered.serial_lt other hother
      · rw [List.mem_singleton.1 hother]
        exact hunspent.taken handler.serial hpaid
    · rcases List.mem_append.1 hother with hother | hother
      · exact hless.unused other hother
      · rw [List.mem_singleton.1 hother]
        exact hunspent.nodup.not_mem_erase

theorem Unspent.takeSerial (hunspent : registry.Unspent numbers) :
    (registry.apply .takeSerial).Unspent (registry.nextSerial :: numbers) where
  numbered := hunspent.numbered.takeSerial
  nodup := by
    refine List.nodup_cons.2 ⟨fun hmem => ?_, hunspent.nodup⟩
    exact absurd (hunspent.taken _ hmem) (Nat.lt_irrefl _)
  taken n hn := by
    rcases List.mem_cons.1 hn with rfl | hn
    · exact Nat.lt_succ_self _
    · exact Nat.lt_succ_of_lt (hunspent.taken n hn)
  unused handler hhandler := by
    have hlt := hunspent.numbered.serial_lt handler hhandler
    have hnot := hunspent.unused handler hhandler
    rw [List.mem_cons, not_or]
    exact ⟨by omega, hnot⟩

theorem Unspent.apply (hunspent : registry.Unspent numbers) {operation : Operation}
    (hpaid : operation.PaidFrom numbers) :
    (registry.apply operation).Unspent (registry.inHand numbers operation) := by
  have hstep := registry.apply_step operation
  cases operation with
  | openNamespace parent name kind location =>
    exact hunspent.of_frame hstep (registry.apply_openNamespace_frame parent name kind location)
  | addRoute route => exact hunspent.of_frame hstep (registry.apply_addRoute_frame route)
  | addHandler handler => exact hunspent.addHandler hpaid
  | takeSerial => exact hunspent.takeSerial

/-- What becomes of a handler that carries a number in hand. -/
theorem Unspent.registerHandler_outcome (hunspent : registry.Unspent numbers) {handler : Handler}
    (hpaid : handler.serial ∈ numbers) :
    (∃ after, registry.registerHandler handler = (.ok .added, after)) ∨
      ∃ error, registry.registerHandler handler = (.error error, registry) := by
  have hfresh : Record.path handler ∉ registry.paths := by
    refine hunspent.numbered.wellFormed.path_not_mem_paths fun other hother heq => ?_
    exact hunspent.unused other hother (heq ▸ hpaid)
  by_cases hadmits : registry.Admits handler.toDeclaration
  · have hregister := registerHandler_of_admits hadmits
    rw [if_neg hfresh] at hregister
    exact .inl ⟨_, hregister⟩
  · exact .inr (registerHandler_of_not_admits hadmits)

/-- No handler of a run that spends its numbers is taken for one that is there already. -/
theorem Unspent.run_outcome {before after : List Operation} {handler : Handler} :
    ∀ {registry : Registry} {numbers : List Nat}, registry.Unspent numbers →
      registry.Spends numbers (before ++ .addHandler handler :: after) →
      (∃ next, (registry.run before).registerHandler handler = (.ok .added, next)) ∨
        ∃ error, (registry.run before).registerHandler handler =
          (.error error, registry.run before) := by
  -- The calls in front of the handler keep the numbers in hand unspent, whichever they are.
  induction before with
  | nil =>
    intro registry numbers hunspent hspends
    exact hunspent.registerHandler_outcome hspends.1
  | cons operation before ih =>
    intro registry numbers hunspent hspends
    exact ih (hunspent.apply hspends.1) hspends.2

end Calls

end Registry

end RouteCatalog
