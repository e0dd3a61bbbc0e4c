import AnnotationPlan.Synthesis.Draft
import AnnotationPlan.Proofs.Outcome

/-!
# Writing annotations fails on the scene only

An annotation use can be written if it conforms to its definition, and every error on
the way says in which respect it does not. So what stops the writing of annotations is
always in the scene (`Formatter.format_yields`), and the annotations on a position are
written or the scene is at fault (`Formatter.notes_yields`).
-/

namespace AnnotationPlan

namespace Formatter

variable {f : Formatter}

/-- A definition is known or the scene is at fault. -/
theorem definition_yields (f : Formatter) (u : AnnotationUse) :
    Yields (fun _ => True) (f.definition u) := by
  unfold definition
  split
  · exact trivial
  · exact (rfl : PlanError.code _ = _)

/-- **Putting values in order** fails only if one of them does. -/
theorem inOrder_yields {values : List (String × Except PlanError Formatted)}
    (h : ∀ v ∈ values, Yields (fun _ => True) v.2) :
    ∀ fields : List String, Yields (fun _ => True) (inOrder fields values)
  | [] => trivial
  | k :: rest => by
    have hrest := inOrder_yields h rest
    unfold inOrder at hrest ⊢
    rw [List.foldr_cons]
    cases hk : Entries.find? k values with
    | none => exact hrest
    | some value =>
      have hvalue : Yields (fun _ => True) value := h (k, value) (Entries.mem_of_find? hk)
      exact hvalue.bind (fun _ _ => hrest.bind (fun _ _ => Yields.pure trivial))

/-- A scalar is written or the scene is at fault. -/
theorem formatLiteral_yields (site : FieldSite) (t : ScalarType) (v : FieldValue) :
    Yields (fun _ => True) (formatLiteral site t v) := by
  unfold formatLiteral
  split
  · exact trivial
  · exact (rfl : PlanError.code _ = _)

/-- An annotation use as a scalar is written or the scene is at fault. -/
theorem nestedValue_yields (site : FieldSite) (t : ScalarType) (u : AnnotationUse)
    {written : Except PlanError Formatted} (h : Yields (fun _ => True) written) :
    Yields (fun _ => True) (f.nestedValue site t u written) := by
  unfold nestedValue
  split
  · refine (definition_yields f u).bind (fun actual _ => ?_)
    split
    · exact h
    · split
      · exact h
      · exact (rfl : PlanError.code _ = _)
  · exact (rfl : PlanError.code _ = _)

mutual

/-- **An annotation use is written or the scene is at fault.** -/
theorem format_yields (f : Formatter) :
    ∀ u : AnnotationUse, Yields (fun _ => True) (f.format u)
  | ⟨name, values⟩ => by
    rw [format]
    refine (definition_yields f ⟨name, values⟩).bind (fun d _ => ?_)
    split
    · exact (rfl : PlanError.code _ = _)
    · have hparts := inOrder_yields (formatFields_yields f d values) d.fields.keys
      exact hparts.bind (fun _ _ => trivial)

/-- The values of fields are written or the scene is at fault. -/
theorem formatFields_yields (f : Formatter) (d : Definition) :
    ∀ values : List (String × FieldValue),
      ∀ v ∈ formatFields f d values, Yields (fun _ => True) v.2
  | [] => fun _ hv => absurd hv List.not_mem_nil
  | (k, v) :: rest => by
    intro w hw
    rw [formatFields] at hw
    rcases List.mem_append.mp hw with hw | hw
    · split at hw
      · exact absurd hw List.not_mem_nil
      · obtain rfl := List.mem_singleton.mp hw
        exact formatValue_yields f _ _ v
    · exact formatFields_yields f d rest w hw

/-- A value is written or the scene is at fault. -/
theorem formatValue_yields (f : Formatter) (site : FieldSite) :
    ∀ (t : FieldType) (v : FieldValue), Yields (fun _ => True) (formatValue f site t v)
  | .scalar t, .nested u => by
    rw [formatValue]
    exact nestedValue_yields site t u (format_yields f u)
  | .scalar t, .bool b => formatLiteral_yields site t (.bool b)
  | .scalar t, .int n => formatLiteral_yields site t (.int n)
  | .scalar t, .float x => formatLiteral_yields site t (.float x)
  | .scalar t, .text s => formatLiteral_yields site t (.text s)
  | .scalar t, .array items => formatLiteral_yields site t (.array items)
  | .array (some element), .array items => by
    rw [formatValue]
    exact (formatItems_yields f site element items).bind (fun _ _ => trivial)
  | .array none, .array [] => trivial
  | .array none, .array (_ :: _) => (rfl : PlanError.code _ = _)
  | .array t, .bool _ => by cases t <;> exact (rfl : PlanError.code _ = _)
  | .array t, .int _ => by cases t <;> exact (rfl : PlanError.code _ = _)
  | .array t, .float _ => by cases t <;> exact (rfl : PlanError.code _ = _)
  | .array t, .text _ => by cases t <;> exact (rfl : PlanError.code _ = _)
  | .array t, .nested _ => by cases t <;> exact (rfl : PlanError.code _ = _)

/-- The items of an array are written or the scene is at fault. -/
theorem formatItems_yields (f : Formatter) (site : FieldSite) (element : ScalarType) :
    ∀ items : List FieldValue, Yields (fun _ => True) (formatItems f site element items)
  | [] => trivial
  | v :: rest => by
    rw [formatItems]
    refine (formatValue_yields f site (.scalar element) v).bind (fun _ _ => ?_)
    exact (formatItems_yields f site element rest).bind (fun _ _ => trivial)

end

/-- Writing one more annotation fails on the scene only, and then there is one. -/
theorem addNote_yields (f : Formatter) (notes : List Note) (u : AnnotationUse) :
    Yields (fun r => r ≠ []) (f.addNote notes u) := by
  refine (format_yields f u).bind (fun written _ => ?_)
  refine (definition_yields f u).bind (fun d _ => ?_)
  split
  case isTrue hany =>
    refine Yields.pure (fun hnil => ?_)
    rw [hnil] at hany
    cases hany
  case isFalse => exact Yields.pure (List.append_ne_nil_of_right_ne_nil _ (List.cons_ne_nil _ _))

/-- **The annotations on a position are written or the scene is at fault**, and there is
something to write exactly if there are any. -/
theorem notes_yields (f : Formatter) (place : CriteriaList) (uses : List AnnotationUse) :
    Yields (fun notes => notes = [] ↔ uses = []) (f.notes place uses) := by
  refine Yields.mapError_locate ?_ place.text
  cases uses with
  | nil => exact iff_of_true rfl rfl
  | cons u rest =>
    rw [List.foldlM_cons]
    refine (addNote_yields f [] u).bind (fun first hfirst => ?_)
    refine (Yields.foldlM rest (fun notes _ v _ => addNote_yields f notes v) hfirst).mono ?_
    exact fun notes hnotes => iff_of_false hnotes (List.cons_ne_nil u rest)

end Formatter

end AnnotationPlan
