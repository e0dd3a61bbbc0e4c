import AnnotationPlan.OrderedMap

/-!
# Uses of annotations

An **annotation use** is what a scene puts on an element: the name of a
definition and values for some of its fields. A value is a truth value, a
number, a text, an array of values or another use.

Two uses are the same when they name the same definition and give the same
values to the same fields, in whatever order. Floating-point values are compared
as numbers, so that the two zeros are the same and what is not a number differs
from everything.
-/

namespace AnnotationPlan

mutual

/-- **The value of a field.** -/
inductive FieldValue where
  /-- A truth value. -/
  | bool (value : Bool)
  /-- An integer. -/
  | int (value : Int64)
  /-- A floating-point number. -/
  | float (value : Float)
  /-- A text: also a character, the name of a class or of a constant. -/
  | text (value : String)
  /-- An array. -/
  | array (items : List FieldValue)
  /-- Another annotation. -/
  | nested (use : AnnotationUse)

/-- **A use of an annotation.** -/
structure AnnotationUse where
  /-- The name of the definition, qualified or not. -/
  definition : String
  /-- The values of fields, in the order in which they were given. -/
  values : List (String × FieldValue)

end

instance : Inhabited AnnotationUse := ⟨⟨"", []⟩⟩

mutual

/-- Whether two values are the same. -/
def FieldValue.same : FieldValue → FieldValue → Bool
  | .bool a, .bool b => a == b
  | .int a, .int b => a == b
  | .float a, .float b => a == b
  | .text a, .text b => a == b
  | .array xs, .array ys => FieldValue.sameItems xs ys
  | .nested u, .nested v => u.same v
  | _, _ => false
termination_by structural x => x

/-- **Whether two uses are the same**, the order of their values set aside. -/
def AnnotationUse.same : AnnotationUse → AnnotationUse → Bool
  | ⟨definition, values⟩, u =>
    definition == u.definition && values.length == u.values.length
      && FieldValue.sameIn values u.values
termination_by structural x => x

/-- Whether two lists hold the same values one by one. -/
def FieldValue.sameItems : List FieldValue → List FieldValue → Bool
  | [], [] => true
  | x :: xs, y :: ys => x.same y && FieldValue.sameItems xs ys
  | _, _ => false
termination_by structural x => x

/-- Whether every field of one list has the same value in another. -/
def FieldValue.sameIn : List (String × FieldValue) → List (String × FieldValue) → Bool
  | [], _ => true
  | (k, x) :: rest, others =>
    (match Entries.find? k others with
      | some y => x.same y
      | none => false)
      && FieldValue.sameIn rest others
termination_by structural x => x

end

instance : BEq FieldValue := ⟨FieldValue.same⟩

instance : BEq AnnotationUse := ⟨AnnotationUse.same⟩

namespace AnnotationUse

/-- A use without values. -/
def ofName (definition : String) : AnnotationUse := ⟨definition, []⟩

/-- Add a use to a list unless the list has the same one already. -/
def addTo (uses : List AnnotationUse) (u : AnnotationUse) : List AnnotationUse :=
  if uses.any (·.same u) then uses else uses ++ [u]

end AnnotationUse

end AnnotationPlan
