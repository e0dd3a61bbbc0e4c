import AnnotationPlan.AnnotationUse.Basic
import AnnotationPlan.Json.Load

/-!
# Annotation uses in JSON

An annotation use is a structure of a definition's name and a map of values. The
form of a value decides what it is: truth values, integers of 64 bits, other
numbers, texts, arrays whose items are all values, and otherwise annotation uses.
An array can thus be a use in its array form, if not all of its items are values.
-/

namespace AnnotationPlan

/-- The fields of an annotation use, its values being loaded as given. -/
def AnnotationUse.fields (value : Load.Loader FieldValue) : List (Load.Field AnnotationUse) := [
  Load.requiredField "def" Load.text (fun u definition => { u with definition }),
  Load.field "values" (Load.pairs Load.textKey value)
    (fun u values => { u with values := Entries.ofList values })]

namespace FieldValue

/-- A number as a value: an integer if it fits 64 bits with a sign. -/
def ofNumber : Number → FieldValue
  | .natural n => if n < Nat.pow 2 63 then .int (Int64.ofInt n) else .float n.toUInt64.toFloat
  | .negative n => .int (Int64.ofInt n)
  | .real x => .float x

/-- Load an annotation use as a value, its own values being loaded as given. -/
def loadNested (value : Load.Loader FieldValue) : Load.Loader FieldValue := fun s =>
  (Load.record (AnnotationUse.fields value) default s).map .nested

/-- Load a value with at most the given number of values around one another. -/
def loadWithin : Nat → Load.Loader FieldValue
  | 0, _ => .error .malformed
  | _ + 1, .bool b => .ok (.bool b)
  | _ + 1, .number x => (Load.orMalformed x.value?).map ofNumber
  | _ + 1, .string spelled => (Load.orMalformed (Source.text? spelled)).map .text
  | n + 1, .array items =>
    match items.mapM (loadWithin n) with
    | .ok values => .ok (.array values)
    | .error _ => loadNested (loadWithin n) (.array items)
  | n + 1, s => loadNested (loadWithin n) s

/-- **Load a value**, which must be usable with all its parts. -/
def load : Load.Loader FieldValue := fun s =>
  if s.isUsable then loadWithin Source.depthLimit s else .error .malformed

end FieldValue

/-- **Load an annotation use.** -/
def AnnotationUse.load : Load.Loader AnnotationUse :=
  Load.record (AnnotationUse.fields FieldValue.load) default

end AnnotationPlan
