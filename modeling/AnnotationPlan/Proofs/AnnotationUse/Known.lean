import AnnotationPlan.Proofs.AnnotationUse.Collisions

/-!
# Only known annotations are written

An annotation use may hold others as values, to any depth (`FieldValue.Holds`). If it can be
written, then the definitions of all of these are known, and its own as well
(`Formatter.Written.known`): nothing within it is left out.
-/

namespace AnnotationPlan

/-- **A value holds an annotation use**: the value is the use, or has it within itself – as
an item, or in the value of a field. -/
inductive FieldValue.Holds (u : AnnotationUse) : FieldValue → Prop where
  | here : Holds u (.nested u)
  | field {name : String} {values : List (String × FieldValue)} {k : String} {v : FieldValue}
    (hfind : Entries.find? k values = some v) (h : Holds u v) : Holds u (.nested ⟨name, values⟩)
  | item {items : List FieldValue} {v : FieldValue} (hmem : v ∈ items) (h : Holds u v) :
    Holds u (.array items)

namespace Formatter

variable {definitions : DefinitionTable} {p : NamePolicy}

/-- A value that can be written: a use by itself, any other value as one of some type. -/
def Written (f : Formatter) : FieldValue → Prop
  | .nested u => ∃ w, f.format u = .ok w
  | v => ∃ site t w, f.formatValue site t v = .ok w

/-- What is written as a value of a type can be written. -/
theorem written_of_formatValue {f : Formatter} {site : FieldSite} {t : FieldType} {v : FieldValue}
    {w : Formatted} (h : f.formatValue site t v = .ok w) : f.Written v := by
  cases v with
  | nested u =>
    cases t with
    | scalar t => exact ⟨w, nestedValue_eq_ok h⟩
    | array t => cases t <;> cases h
  | _ => exact ⟨site, t, w, h⟩

/-- The items of an array that can be written can be written. -/
theorem Written.item {f : Formatter} {items : List FieldValue} (h : f.Written (.array items))
    {v : FieldValue} (hv : v ∈ items) : f.Written v := by
  obtain ⟨site, t, w, h⟩ := h
  cases t with
  | scalar t => cases t <;> cases h
  | array t =>
    cases t with
    | some element =>
      obtain ⟨w, hw⟩ := (formatArray_eq_ok h).1 v hv
      exact written_of_formatValue hw
    | none =>
      cases items with
      | nil => exact absurd hv List.not_mem_nil
      | cons x rest => cases h

/-- **A use that can be written** is of a known definition, and its values can be written. -/
theorem Written.nested {name : String} {values : List (String × FieldValue)}
    (h : Written ⟨definitions, p⟩ (.nested ⟨name, values⟩)) :
    (∃ d, definitions.get? name = some d)
    ∧ ∀ k v, Entries.find? k values = some v → Written ⟨definitions, p⟩ v := by
  obtain ⟨w, h⟩ := h
  obtain ⟨d, hd, hdeclared, hvalues, -⟩ := format_eq_ok h
  refine ⟨⟨d, hd⟩, fun k v hv => ?_⟩
  have hk : k ∈ d.fields.keys := hdeclared (k, v) (Entries.mem_of_find? hv)
  obtain ⟨t, ht⟩ := Option.isSome_iff_exists.mp ((Entries.isSome_find?_iff _ _).mpr hk)
  obtain ⟨w, hw⟩ := hvalues k hk v hv t ht
  exact written_of_formatValue hw

/-- **All uses within a value that can be written** are of known definitions. -/
theorem Written.known {v : FieldValue} {u : AnnotationUse} (hu : v.Holds u)
    (h : Written ⟨definitions, p⟩ v) : ∃ d, definitions.get? u.definition = some d := by
  obtain ⟨name, values⟩ := u
  induction hu with
  | here => exact (Written.nested h).1
  | field hfind _ ih => exact ih ((Written.nested h).2 _ _ hfind)
  | item hmem _ ih => exact ih (h.item hmem)

end Formatter

end AnnotationPlan
