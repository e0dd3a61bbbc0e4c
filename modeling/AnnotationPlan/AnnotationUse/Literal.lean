import AnnotationPlan.Decimal.Layout
import AnnotationPlan.Schema.FieldType
import AnnotationPlan.Text.Names

/-!
# Literals in source text

The value of an annotation field is written as a literal of the field's type:
integers with the suffix of their type, characters and texts between quotes, and
floating-point numbers with the fewest digits that identify them. Whether a value
fits the type at all is decided here too, value by value; arrays and nested
annotations are put together elsewhere.

Between quotes, the quote itself, the backslash and all control characters are
written as escapes: the common ones by a letter, the others by their number in
four hexadecimal digits (`escape`).
-/

namespace AnnotationPlan.Literal

/-- Whether a character is a control character. -/
def isControl (c : Char) : Bool :=
  c.toNat < 0x20 || (0x7F ≤ c.toNat && c.toNat ≤ 0x9F)

/-- **A character between quotes**, as an escape if it needs one. -/
def escape (quote : Char) (c : Char) : List Char :=
  if c = '\\' then ['\\', '\\']
  else if c = '\n' then ['\\', 'n']
  else if c = '\t' then ['\\', 't']
  else if c = '\r' then ['\\', 'r']
  else if c = '\x08' then ['\\', 'b']
  else if c = '\x0c' then ['\\', 'f']
  else if c = quote then ['\\', quote]
  else if isControl c then '\\' :: 'u' :: List.leftpad 4 '0' (Nat.toDigits 16 c.toNat)
  else [c]

/-- A text between quotes. -/
def quoted (quote : Char) (cs : List Char) : String :=
  String.ofList (quote :: (cs.flatMap (escape quote) ++ [quote]))

/-- How floating-point numbers are written: with the point in place from `0.0001`
to below ten to the sixteenth power. -/
def real : Decimal.Layout where
  leastPlaces := -3
  mostPlaces := 16
  nan := "NaN"
  infinity := "inf"
  negativeInfinity := "-inf"

/-- A floating-point number of a type with a given class and suffix; what is not
finite is written as a constant of the class. -/
def ofFloat (boxed suffix : String) (x : Float) : String :=
  if x.isNaN then boxed ++ ".NaN"
  else if x.isInf then
    boxed ++ if x > 0 then ".POSITIVE_INFINITY" else ".NEGATIVE_INFINITY"
  else real.text x ++ suffix

/-- An integer within the range of a number of bits. -/
def ofInt? (bits : Nat) (n : Int64) : Option String :=
  if -(Nat.pow 2 (bits - 1) : Int) ≤ n.toInt ∧ n.toInt < Nat.pow 2 (bits - 1) then
    some n.toInt.repr
  else none

end AnnotationPlan.Literal
