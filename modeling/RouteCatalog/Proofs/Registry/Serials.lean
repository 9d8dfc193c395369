import RouteCatalog.Proofs.Registry.Classification
import RouteCatalog.Proofs.Text.Numeral

/-!
# Serial numbers of handlers

The identifier of a handler ends in a mark and its serial number in decimal, and digits are no
marks, so the number can be read back (`Handler.number?_eq`), from the identifier and from the path
(`Handler.serial_eq_of_path_eq`). A registry is numbered (`Registry.Numbered`) when it is well
formed and every number that its handlers carry has been handed out; then no record holds the path
of a handler that carries the next number.
-/

namespace RouteCatalog

namespace Text

theorem hash_not_mem_natText (n : Nat) : '#' ∉ (natText n).toList := by
  intro hhash
  exact absurd (isDigit_of_mem_natText hhash) (by decide)

/-- What follows the last mark of a text. -/
def afterLast (mark : Char) (cs : List Char) : List Char :=
  (cs.reverse.takeWhile (· != mark)).reverse

theorem afterLast_append_cons {back : List Char} {mark : Char} (hback : mark ∉ back)
    (front : List Char) : afterLast mark (front ++ mark :: back) = back := by
  have hfree : ∀ c ∈ back.reverse, (c != mark) = true := by
    intro c hc
    rw [bne_iff_ne]
    rintro rfl
    exact hback (List.mem_reverse.1 hc)
  have hreverse : (front ++ mark :: back).reverse = back.reverse ++ mark :: front.reverse := by simp
  rw [afterLast, hreverse, List.takeWhile_append_of_pos hfree]
  simp

theorem readNat?_afterLast (front : List Char) (n : Nat) :
    readNat? 10 (afterLast '#' (front ++ '#' :: (natText n).toList)) = some n := by
  rw [afterLast_append_cons (hash_not_mem_natText n), readNat?_natText]

end Text

/-- A handler without its serial number. -/
def Handler.unnumbered (handler : Handler) : Handler :=
  { handler with serial := 0 }

theorem Handler.toList_identifier (handler : Handler) :
    (Record.identifier handler).toList =
      (handler.toDeclaration.identifier handler.verb.name).toList ++
        '#' :: (Text.natText handler.serial).toList := by
  simp [Record.identifier]

/-- The number after the last mark of the identifier of a handler. -/
def Handler.number? (handler : Handler) : Option Nat :=
  Text.readNat? 10 (Text.afterLast '#' (Record.identifier handler).toList)

theorem Handler.number?_eq (handler : Handler) : handler.number? = some handler.serial := by
  rw [number?, toList_identifier, Text.readNat?_afterLast]

theorem Handler.serial_eq_of_path_eq {handler other : Handler}
    (hpath : Record.path handler = Record.path other) : handler.serial = other.serial := by
  have hread : ∀ handler : Handler,
      Text.readNat? 10 (Text.afterLast '#' (Record.path handler).toList) = some handler.serial := by
    intro handler
    rw [Record.toList_path, Handler.toList_identifier, ← List.cons_append, ← List.append_assoc]
    exact Text.readNat?_afterLast _ _
  apply Option.some.inj
  rw [← hread, hpath, hread]

namespace Registry

/-- A well-formed registry whose handlers carry numbers that were handed out. -/
structure Numbered (registry : Registry) : Prop where
  wellFormed : registry.WellFormed
  serial_lt : ∀ handler ∈ registry.handlers, handler.serial < registry.nextSerial

theorem map_unnumbered_handlersIn (registry : Registry) (path : String) :
    (registry.handlersIn path).map Handler.unnumbered =
      (registry.handlers.map Handler.unnumbered).filter fun handler => handler.owner == path := by
  rw [List.filter_map]
  rfl

theorem numbered_ofTags (tags : TagLibrary) : (ofTags tags).Numbered where
  wellFormed := wellFormed_ofTags tags
  serial_lt handler hhandler := by simp [ofTags] at hhandler

variable {registry : Registry}

/-- No record holds the path of a handler that carries a number of its own. -/
theorem WellFormed.path_not_mem_paths (hinv : registry.WellFormed) {handler : Handler}
    (hserial : ∀ other ∈ registry.handlers, other.serial ≠ handler.serial) :
    Record.path handler ∉ registry.paths := by
  intro htaken
  rw [hinv.mem_paths_iff, recordPaths, List.mem_append] at htaken
  rcases htaken with hroute | hhandler
  · obtain ⟨route, hroute, hpath⟩ := List.mem_map.1 hroute
    have howned := (hinv.routes_admitted route hroute).1
    exact Route.path_ne_handler_path (hinv.hash_not_mem_owner howned) handler hpath
  · obtain ⟨other, hother, hpath⟩ := List.mem_map.1 hhandler
    exact hserial other hother (Handler.serial_eq_of_path_eq hpath)

theorem Numbered.path_not_mem_paths (hnumbered : registry.Numbered) {handler : Handler}
    (hserial : handler.serial = registry.nextSerial) : Record.path handler ∉ registry.paths := by
  refine hnumbered.wellFormed.path_not_mem_paths fun other hother heq => ?_
  have hlt := hnumbered.serial_lt other hother
  omega

theorem Numbered.takeSerial (hnumbered : registry.Numbered) :
    Numbered { registry with nextSerial := registry.nextSerial + 1 } where
  wellFormed := hnumbered.wellFormed.step .serialTaken
  serial_lt handler hhandler := Nat.lt_succ_of_lt (hnumbered.serial_lt handler hhandler)

end Registry

end RouteCatalog
