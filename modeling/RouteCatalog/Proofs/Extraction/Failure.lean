import RouteCatalog.Proofs.Extraction.Steps

/-!
# Why an extraction fails

A file is refused for its first event that the tag library or the grammar of names refuses
(`SourceFile.result_eq_error_iff`); what was extracted before plays no part. So an event never asks
for a namespace that is not there, and under a library that defines the condition tag the only
event that is refused is an opening by a malformed name.
-/

namespace RouteCatalog

namespace Extraction.Event

/-- An opening whose name is no path, its blanks and a separator in front of it left out. -/
def IsMalformed : Event → Prop
  | .opening _ name _ _ => ¬Namespace.IsPath (String.ofList (Namespace.relativePart name))
  | _ => False

theorem refusal?_opening (tags : TagLibrary) (parent name : String) (kind : NamespaceKind)
    (line : Nat) :
    refusal? tags (.opening parent name kind line) =
      if (Namespace.resolve? parent name).isSome then none
      else some (.malformedNamespace parent name) := by
  rw [refusal?]
  cases Namespace.resolve? parent name <;> rfl

theorem undefinedTag?_cases (tags : TagLibrary) (call : Node) :
    undefinedTag? tags call = none ∨ undefinedTag? tags call = some (.unknownTag Tag.condition) := by
  unfold undefinedTag?
  split
  · exact .inl rfl
  · exact .inr rfl

theorem refusal?_ne_unknownNamespace (tags : TagLibrary) (event : Event) (path : String) :
    event.refusal? tags ≠ some (.unknownNamespace path) := by
  cases event with
  | opening parent name kind line =>
    rw [refusal?_opening]
    split <;> simp
  | hook owner controller verb call =>
    rw [refusal?]
    rcases undefinedTag?_cases tags call with hcall | hcall <;> simp [hcall]
  | route owner controller verb call =>
    rw [refusal?]
    rcases undefinedTag?_cases tags call with hcall | hcall <;> split <;> simp [hcall]

variable {tags : TagLibrary}

theorem undefinedTag?_eq_none (hdefined : tags.isDefined Tag.condition = true) (call : Node) :
    undefinedTag? tags call = none := by
  simp [undefinedTag?, TagLibrary.covers, hdefined]

/-- Where the condition tag is defined, only malformed names are refused. -/
theorem refusal?_eq_none_iff (hdefined : tags.isDefined Tag.condition = true) {event : Event} :
    event.refusal? tags = none ↔ ¬event.IsMalformed := by
  cases event with
  | opening parent name kind line =>
    rw [refusal?_opening, IsMalformed, not_not, ← Namespace.resolve?_isSome_iff parent]
    split <;> simp_all
  | hook owner controller verb call => simp [refusal?, IsMalformed, undefinedTag?_eq_none hdefined]
  | route owner controller verb call =>
    simp only [refusal?, IsMalformed, undefinedTag?_eq_none hdefined]
    split <;> simp

theorem refusal?_of_isMalformed {parent name : String} {kind : NamespaceKind} {line : Nat}
    (hmalformed : (opening parent name kind line).IsMalformed) :
    refusal? tags (.opening parent name kind line) = some (.malformedNamespace parent name) := by
  rw [IsMalformed, ← Namespace.resolve?_isSome_iff parent] at hmalformed
  rw [refusal?_opening, if_neg hmalformed]

theorem isMalformed_cases {event : Event} (hmalformed : event.IsMalformed) :
    ∃ parent name kind line, event = .opening parent name kind line := by
  cases event with
  | opening parent name kind line => exact ⟨parent, name, kind, line, rfl⟩
  | hook => exact hmalformed.elim
  | route => exact hmalformed.elim

end Extraction.Event

namespace SourceFile

open Extraction (Event)

theorem result_eq_error_iff (file : SourceFile) {registry : Registry}
    (hnumbered : registry.Numbered) {error : RegistryError} :
    (file.extract registry).result = .error error ↔ file.refusal? registry.tags = some error := by
  rcases file.extract_cases hnumbered with ⟨hnone, after, -, heq⟩ | ⟨first, hsome, halted, -, -, heq⟩
  · simp [heq, hnone]
  · simp [heq, hsome]

/-- Where the condition tag is defined, a file is refused for its first malformed name. -/
theorem refusal?_eq_some_iff (file : SourceFile) {tags : TagLibrary}
    (hdefined : tags.isDefined Tag.condition = true) {error : RegistryError} :
    file.refusal? tags = some error ↔
      ∃ before parent name kind line after,
        file.events = before ++ Event.opening parent name kind line :: after ∧
          (∀ event ∈ before, ¬event.IsMalformed) ∧
          (Event.opening parent name kind line).IsMalformed ∧
          error = .malformedNamespace parent name := by
  rw [refusal?, List.findSome?_eq_some_iff]
  constructor
  · rintro ⟨before, event, after, hevents, hsome, hbefore⟩
    have hmalformed : event.IsMalformed := by
      by_contra hwell
      rw [(Event.refusal?_eq_none_iff hdefined).2 hwell] at hsome
      cases hsome
    obtain ⟨parent, name, kind, line, rfl⟩ := Event.isMalformed_cases hmalformed
    refine ⟨before, parent, name, kind, line, after, hevents, fun other hother => ?_, hmalformed, ?_⟩
    · exact (Event.refusal?_eq_none_iff hdefined).1 (hbefore other hother)
    · rw [Event.refusal?_of_isMalformed hmalformed] at hsome
      exact (Option.some.inj hsome).symm
  · rintro ⟨before, parent, name, kind, line, after, hevents, hbefore, hmalformed, rfl⟩
    refine ⟨before, _, after, hevents, Event.refusal?_of_isMalformed hmalformed, ?_⟩
    exact fun other hother => (Event.refusal?_eq_none_iff hdefined).2 (hbefore other hother)

/-- **Only a malformed name stops an extraction.** Whatever the tag library and the files before, a
file never asks for a namespace that is not registered. Where the condition tag is defined, it stops
exactly at its first malformed name, and the error gives that name and the namespace around it. -/
theorem extract_error_iff_malformed (tags : TagLibrary) (earlier : List SourceFile)
    (file : SourceFile) :
    let registry := (Registry.ofTags tags).afterFiles earlier
    (∀ path, (file.extract registry).result ≠ .error (.unknownNamespace path)) ∧
      (tags.isDefined Tag.condition = true → ∀ error,
        (file.extract registry).result = .error error ↔
          ∃ before parent name kind line after,
            file.events = before ++ Event.opening parent name kind line :: after ∧
              (∀ event ∈ before, ¬event.IsMalformed) ∧
              (Event.opening parent name kind line).IsMalformed ∧
              error = .malformedNamespace parent name) := by
  intro registry
  obtain ⟨hnumbered, htags⟩ := Registry.numbered_ofTags_afterFiles tags earlier
  refine ⟨fun path hresult => ?_, fun hdefined error => ?_⟩
  · rw [file.result_eq_error_iff hnumbered, refusal?] at hresult
    obtain ⟨event, -, hsome⟩ := List.exists_of_findSome?_eq_some hresult
    exact event.refusal?_ne_unknownNamespace _ path hsome
  · rw [file.result_eq_error_iff hnumbered, htags]
    exact file.refusal?_eq_some_iff hdefined

/-- A class `App` whose body calls `helpers` on an element of a list. -/
def indexedReceiver : SourceFile where
  path := ⟨[]⟩
  source := ""
  tree := ⟨"program", none, "", 1,
    [⟨"class", none, "", 1,
      [⟨"constant", some "name", "App", 1, []⟩,
        ⟨"body_statement", some "body", "", 2,
          [⟨"call", none, "apps[0].helpers", 2,
            [⟨"element_reference", some "receiver", "apps[0]", 2, []⟩,
              ⟨"identifier", some "method", "helpers", 2, []⟩]⟩]⟩]⟩]⟩

theorem extract_indexedReceiver :
    TagLibrary.standard.isDefined Tag.condition = true ∧
      (indexedReceiver.extract Registry.empty).result =
        .error (.malformedNamespace "App" "apps[0]") := by
  have hdefined : TagLibrary.standard.isDefined Tag.condition = true := by decide
  have hevents : indexedReceiver.events =
      [.opening "" "App" .classBody 1] ++ .opening "App" "apps[0]" .classBody 2 :: [] :=
    rfl
  have hfirst : ¬(Event.opening "" "App" .classBody 1).IsMalformed := by
    rw [← Event.refusal?_eq_none_iff hdefined]
    decide +kernel
  have hsecond : (Event.opening "App" "apps[0]" .classBody 2).IsMalformed := by
    rw [Event.IsMalformed, ← Namespace.resolve?_isSome_iff "App"]
    decide +kernel
  refine ⟨hdefined, ((extract_error_iff_malformed .standard [] indexedReceiver).2 hdefined _).2 ?_⟩
  exact ⟨_, _, _, _, _, _, hevents, by simpa using hfirst, hsecond, rfl⟩

end SourceFile

end RouteCatalog
