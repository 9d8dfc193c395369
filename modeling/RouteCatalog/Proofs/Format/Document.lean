import RouteCatalog.Format
import RouteCatalog.Proofs.Catalog.Document
import RouteCatalog.Proofs.Format.Json

/-!
# The JSON text of a document

A document has a value exactly if its file paths are text. The value determines the document
(`Document.value?_determines`): a field that may be left out is told from the field after it by its
name, and it is left out for one content only, `none` or an empty one. So the JSON text determines
the document as well.
-/

namespace RouteCatalog

/-! ### Paths -/

/-- A path that spells a text: its bytes are valid UTF-8. -/
def Path.IsText (path : Path) : Prop :=
  ∃ text, path = ofString text

theorem Path.text?_eq_some_iff {path : Path} {text : String} :
    path.text? = some text ↔ path = ofString text := by
  obtain ⟨bytes⟩ := path
  simp only [text?, Text.decodeUtf8?, String.fromUTF8?, ofString, Text.encodeUtf8]
  constructor
  · intro hdecode
    split at hdecode
    · rw [← Option.some.inj hdecode]
      rfl
    · cases hdecode
  · intro hbytes
    obtain rfl := Path.mk.inj hbytes
    exact dif_pos text.isValidUTF8

theorem Path.isSome_text?_iff {path : Path} : path.text?.isSome ↔ path.IsText := by
  simp only [Option.isSome_iff_exists, text?_eq_some_iff, IsText]

namespace Value

/-! ### Fields that may be left out -/

section Fields

variable {name key : String} {rest others : List (String × Value)}

/-- The first field, if any, has another name. -/
def NotAhead (name : String) (fields : List (String × Value)) : Prop :=
  ∀ field ∈ fields.head?, field.1 ≠ name

theorem notAhead_nil : NotAhead name [] := by
  intro field hfield
  cases hfield

theorem notAhead_cons (hkey : key ≠ name) (value : Value) :
    NotAhead name ((key, value) :: rest) := by
  intro field hfield
  obtain rfl : (key, value) = field := by simpa using hfield
  exact hkey

theorem notAhead_sequenceField (hkey : key ≠ name) (items : List Value) :
    NotAhead name (sequenceField key items) := by
  cases items with
  | nil => exact notAhead_nil
  | cons item items => exact notAhead_cons hkey _

theorem NotAhead.ne_cons (hrest : NotAhead name rest) (value : Value) :
    rest ≠ (name, value) :: others := by
  rintro rfl
  exact hrest _ rfl rfl

theorem field?_append_inj {content other : Option Value} (hrest : NotAhead name rest)
    (hothers : NotAhead name others)
    (heq : (content.map (name, ·)).toList ++ rest = (other.map (name, ·)).toList ++ others) :
    content = other ∧ rest = others := by
  cases content with
  | none =>
    cases other with
    | none => exact ⟨rfl, heq⟩
    | some other => exact absurd heq (hrest.ne_cons other)
  | some content =>
    cases other with
    | none => exact absurd heq.symm (hothers.ne_cons content)
    | some other => simpa using heq

theorem optionalField_append_inj {content other : Option String} (hrest : NotAhead name rest)
    (hothers : NotAhead name others)
    (heq : optionalField name content ++ rest = optionalField name other ++ others) :
    content = other ∧ rest = others := by
  have hfield : ∀ content : Option String,
      optionalField name content = ((content.map text).map (name, ·)).toList := by
    intro content
    cases content <;> rfl
  rw [hfield, hfield] at heq
  obtain ⟨hcontent, htail⟩ := field?_append_inj hrest hothers heq
  exact ⟨Option.map_injective (fun _ _ => text.inj) hcontent, htail⟩

theorem sequenceField_append_inj {items other : List Value} (hrest : NotAhead name rest)
    (hothers : NotAhead name others)
    (heq : sequenceField name items ++ rest = sequenceField name other ++ others) :
    items = other ∧ rest = others := by
  have hfield : ∀ items : List Value, sequenceField name items =
      ((if items.isEmpty then none else some (sequence items)).map (name, ·)).toList := by
    intro items
    cases items <;> rfl
  rw [hfield, hfield] at heq
  obtain ⟨hitems, htail⟩ := field?_append_inj hrest hothers heq
  refine ⟨?_, htail⟩
  cases items <;> cases other <;> simp_all

theorem optionalField_injective (name : String) : Function.Injective (optionalField name) := by
  intro content other heq
  have happend : optionalField name content ++ [] = optionalField name other ++ [] := by rw [heq]
  exact (optionalField_append_inj notAhead_nil notAhead_nil happend).1

theorem sequenceField_injective (name : String) : Function.Injective (sequenceField name) := by
  intro items other heq
  have happend : sequenceField name items ++ [] = sequenceField name other ++ [] := by rw [heq]
  exact (sequenceField_append_inj notAhead_nil notAhead_nil happend).1

end Fields

/-! ### Values of several things -/

section Several

variable {α : Type} {value? : α → Option Value} {xs ys : List α}

/-- No two things have the same value. -/
def Determines (value? : α → Option Value) : Prop :=
  ∀ ⦃a b : α⦄ ⦃value : Value⦄, value? a = some value → value? b = some value → a = b

theorem mapM_cons_eq_some_iff {x : α} {values : List Value} :
    (x :: xs).mapM value? = some values ↔ ∃ value rest,
      value? x = some value ∧ xs.mapM value? = some rest ∧ value :: rest = values := by
  simp [List.mapM_cons, Option.bind_eq_some_iff]

theorem Determines.mapM (hvalue : Determines value?) {values : List Value}
    (hxs : xs.mapM value? = some values) (hys : ys.mapM value? = some values) : xs = ys := by
  induction xs generalizing ys values with
  | nil =>
    obtain rfl : [] = values := by simpa using hxs
    cases ys with
    | nil => rfl
    | cons y ys =>
      obtain ⟨value, rest, -, -, heq⟩ := mapM_cons_eq_some_iff.1 hys
      cases heq
  | cons x xs ih =>
    obtain ⟨value, rest, hx, hrest, rfl⟩ := mapM_cons_eq_some_iff.1 hxs
    cases ys with
    | nil => simp at hys
    | cons y ys =>
      obtain ⟨other, others, hy, hothers, heq⟩ := mapM_cons_eq_some_iff.1 hys
      obtain ⟨rfl, rfl⟩ := List.cons.inj heq
      rw [hvalue hx hy, ih hrest hothers]

theorem isSome_mapM_iff : (xs.mapM value?).isSome ↔ ∀ x ∈ xs, (value? x).isSome := by
  induction xs with
  | nil => simp
  | cons x xs ih =>
    rw [List.mapM_cons, List.forall_mem_cons, ← ih]
    cases value? x <;> cases xs.mapM value? <;> simp

end Several

end Value

/-! ### The value of a document and of its parts -/

theorem ConditionEntry.value_injective : Function.Injective ConditionEntry.value := by
  intro ⟨label, name, text⟩ ⟨otherLabel, otherName, otherText⟩ heq
  simp only [value, List.cons_append, List.nil_append, Value.mapping.injEq, List.cons.injEq,
    Prod.mk.injEq, Value.text.injEq, true_and] at heq
  obtain ⟨rfl, hfields⟩ := heq
  obtain ⟨rfl, htext⟩ := Value.optionalField_append_inj (Value.notAhead_cons (by decide) _)
    (Value.notAhead_cons (by decide) _) hfields
  simpa using htext

theorem Statistic.value_injective : Function.Injective Statistic.value := by
  intro ⟨name, total, undocumented⟩ ⟨otherName, otherTotal, otherUndocumented⟩ heq
  simpa [value] using heq

theorem CatalogEntry.shownDocstring_injective :
    Function.Injective fun docstring : String =>
      if docstring.isEmpty then none else some docstring := by
  intro docstring other heq
  dsimp only at heq
  split at heq <;> split at heq <;> simp_all

theorem CatalogEntry.value?_determines : Value.Determines CatalogEntry.value? := by
  rintro ⟨identifier, name, verb, controller, args, conditions, group, file, line, docstring⟩
    ⟨identifier', name', verb', controller', args', conditions', group', file', line', docstring'⟩
    value hentry hother
  simp only [value?, Option.bind_eq_bind, Option.bind_eq_some_iff, Option.pure_def,
    Option.some.injEq, Path.text?_eq_some_iff] at hentry hother
  obtain ⟨path, rfl, rfl⟩ := hentry
  obtain ⟨path', rfl, hfields⟩ := hother
  -- The fields are compared from front to back, so that each is known before the next is reached.
  simp only [List.cons_append, List.nil_append, List.append_assoc, Value.mapping.injEq,
    List.cons.injEq, Prod.mk.injEq, Value.text.injEq, true_and] at hfields
  obtain ⟨rfl, rfl, rfl, hafterVerb⟩ := hfields
  obtain ⟨rfl, hfromArgs⟩ := Value.optionalField_append_inj (Value.notAhead_cons (by decide) _)
    (Value.notAhead_cons (by decide) _) hafterVerb
  simp only [List.cons.injEq, Prod.mk.injEq, Value.sequence.injEq, true_and] at hfromArgs
  obtain ⟨hargs, hafterArgs⟩ := hfromArgs
  obtain ⟨hconditions, hfromGroup⟩ := Value.sequenceField_append_inj
    (Value.notAhead_cons (by decide) _) (Value.notAhead_cons (by decide) _) hafterArgs
  simp only [List.cons.injEq, Prod.mk.injEq, Value.text.injEq, Value.number.injEq,
    true_and] at hfromGroup
  obtain ⟨rfl, rfl, rfl, hdocstring⟩ := hfromGroup
  rw [List.map_injective_iff.2 (fun _ _ => Value.text.inj) hargs,
    ConditionEntry.value_injective.list_map hconditions,
    shownDocstring_injective (Value.optionalField_injective _ hdocstring)]

theorem Listing.value?_determines : Value.Determines Listing.value? := by
  rintro ⟨controller, entries⟩ ⟨otherController, otherEntries⟩ value hlisting hother
  simp only [value?, Option.bind_eq_bind, Option.bind_eq_some_iff, Option.pure_def,
    Option.some.injEq] at hlisting hother
  obtain ⟨values, hvalues, rfl⟩ := hlisting
  obtain ⟨otherValues, hotherValues, heq⟩ := hother
  simp only [Value.mapping.injEq, List.cons.injEq, Prod.mk.injEq, Value.text.injEq,
    Value.sequence.injEq, true_and, and_true] at heq
  obtain ⟨rfl, rfl⟩ := heq
  rw [CatalogEntry.value?_determines.mapM hvalues hotherValues]

theorem Section.value?_determines : Value.Determines Section.value? := by
  rintro ⟨owner, routes, handlers⟩ ⟨otherOwner, otherRoutes, otherHandlers⟩ value hpart hother
  simp only [value?, Option.bind_eq_bind, Option.bind_eq_some_iff, Option.pure_def,
    Option.some.injEq] at hpart hother
  obtain ⟨routeValues, hroutes, handlerValues, hhandlers, rfl⟩ := hpart
  obtain ⟨otherRouteValues, hotherRoutes, otherHandlerValues, hotherHandlers, heq⟩ := hother
  simp only [List.cons_append, List.nil_append, Value.mapping.injEq, List.cons.injEq,
    Prod.mk.injEq, Value.text.injEq, true_and] at heq
  obtain ⟨rfl, hfields⟩ := heq
  obtain ⟨hroutesEq, hhandlersEq⟩ := Value.sequenceField_append_inj
    (Value.notAhead_sequenceField (by decide) _) (Value.notAhead_sequenceField (by decide) _)
    hfields
  rw [hroutesEq] at hotherRoutes
  rw [Value.sequenceField_injective _ hhandlersEq] at hotherHandlers
  rw [Listing.value?_determines.mapM hroutes hotherRoutes,
    Listing.value?_determines.mapM hhandlers hotherHandlers]

theorem Document.value?_determines : Value.Determines Document.value? := by
  rintro ⟨sections, statistics⟩ ⟨otherSections, otherStatistics⟩ value hdocument hother
  simp only [value?, Option.bind_eq_bind, Option.bind_eq_some_iff, Option.pure_def,
    Option.some.injEq] at hdocument hother
  obtain ⟨values, hvalues, rfl⟩ := hdocument
  obtain ⟨otherValues, hotherValues, heq⟩ := hother
  simp only [Value.mapping.injEq, List.cons.injEq, Prod.mk.injEq, Value.sequence.injEq, true_and,
    and_true] at heq
  obtain ⟨rfl, hstatistics⟩ := heq
  rw [Section.value?_determines.mapM hvalues hotherValues,
    Statistic.value_injective.list_map hstatistics]

theorem CatalogEntry.isSome_value?_iff {entry : CatalogEntry} :
    entry.value?.isSome ↔ entry.file.IsText := by
  rw [← Path.isSome_text?_iff, value?]
  cases entry.file.text? <;> simp

theorem Listing.isSome_value?_iff {listing : Listing} :
    listing.value?.isSome ↔ ∀ entry ∈ listing.entries, entry.file.IsText := by
  simp only [← CatalogEntry.isSome_value?_iff, ← Value.isSome_mapM_iff, value?]
  cases listing.entries.mapM CatalogEntry.value? <;> simp

theorem Section.isSome_value?_iff {part : Section} :
    part.value?.isSome ↔
      (∀ listing ∈ part.routes, listing.value?.isSome) ∧
        ∀ listing ∈ part.handlers, listing.value?.isSome := by
  simp only [← Value.isSome_mapM_iff, value?]
  cases part.routes.mapM Listing.value? <;> cases part.handlers.mapM Listing.value? <;> simp

namespace Document

theorem isSome_value?_iff {document : Document} :
    document.value?.isSome ↔
      ∀ entry ∈ document.routeEntries ++ document.handlerEntries, entry.file.IsText := by
  have hsections : document.value?.isSome ↔ ∀ part ∈ document.sections, part.value?.isSome := by
    simp only [← Value.isSome_mapM_iff, value?]
    cases document.sections.mapM Section.value? <;> simp
  simp only [hsections, Section.isSome_value?_iff, Listing.isSome_value?_iff, routeEntries,
    handlerEntries, List.forall_mem_append, List.forall_mem_flatMap, forall₂_and]

theorem render_json_eq_ok_iff {document : Document} {text : String} :
    document.render .json = .ok text ↔
      ∃ value, document.value? = some value ∧ Json.render value = text := by
  rw [render]
  cases document.value? <;> simp

/-- **The JSON text determines the document.** A document has a JSON text exactly if the file path
of every entry is valid UTF-8, and no other document has the same one. -/
theorem render_json_determines (document other : Document) :
    ((∃ text, document.render .json = .ok text) ↔
        ∀ entry ∈ document.routeEntries ++ document.handlerEntries, entry.file.IsText) ∧
      ∀ text, document.render .json = .ok text →
        (other.render .json = .ok text ↔ other = document) := by
  refine ⟨?_, ?_⟩
  · rw [← isSome_value?_iff, Option.isSome_iff_exists]
    simp [render_json_eq_ok_iff]
  · intro text hdocument
    refine ⟨?_, ?_⟩
    · intro hother
      obtain ⟨value, hvalue, rfl⟩ := render_json_eq_ok_iff.1 hdocument
      obtain ⟨otherValue, hotherValue, htext⟩ := render_json_eq_ok_iff.1 hother
      rw [Json.render_injective htext] at hotherValue
      exact value?_determines hotherValue hvalue
    · rintro rfl
      exact hdocument

/-- The entry of a route under the given controller. -/
def ordersEntry (controller : Option String) : CatalogEntry where
  identifier := "get_orders"
  name := "get \"/orders\""
  verb := "get"
  controller := controller
  args := ["\"/orders\""]
  conditions := [{ label := "Options", name := none, text := "\n" }]
  group := "Routes"
  file := Path.ofString "shop.rb"
  line := 3
  docstring := ""

/-- A document with that entry only. -/
def ofController (controller : Option String) : Document where
  sections :=
    [{ owner := "Shop"
       routes := [{ controller := "", entries := [ordersEntry controller] }]
       handlers := [] }]
  statistics := []

theorem render_json_ofController :
    ∃ text, (ofController (some "")).render .json = .ok text ∧
      (ofController none).render .json ≠ .ok text := by
  obtain ⟨hok, hdetermines⟩ := render_json_determines (ofController (some "")) (ofController none)
  have hfiles : ∀ entry ∈ (ofController (some "")).routeEntries ++
      (ofController (some "")).handlerEntries, entry.file.IsText := by
    intro entry hentry
    obtain rfl : entry = ordersEntry (some "") := by
      simpa [routeEntries, handlerEntries, ofController] using hentry
    exact ⟨"shop.rb", rfl⟩
  obtain ⟨text, htext⟩ := hok.2 hfiles
  refine ⟨text, htext, ?_⟩
  intro hnone
  exact absurd ((hdetermines text htext).1 hnone) (by decide)

end Document

end RouteCatalog
