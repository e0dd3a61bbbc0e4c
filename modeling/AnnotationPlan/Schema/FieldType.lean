import AnnotationPlan.Text.Blank

/-!
# Types of annotation fields

A field of an annotation definition holds a **scalar** – a number, a truth
value, a character, a text, a class, a constant of an enumeration, or another
annotation – or an array of scalars. Arrays of arrays do not exist. The type
`unknown[]` is that of an empty array whose element type was never seen.

The written form of a field type is that of a declaration in source text, with
the words `enum` and `annotation-field` before the names of enumerations and of
nested annotations. Blanks around a type and around those names do not count.
-/

namespace AnnotationPlan

/-- **The type of one value.** -/
inductive ScalarType where
  /-- A truth value. -/
  | boolean
  /-- An integer of 8 bits. -/
  | byte
  /-- A character. -/
  | char
  /-- An integer of 16 bits. -/
  | short
  /-- An integer of 32 bits. -/
  | int
  /-- An integer of 64 bits. -/
  | long
  /-- A floating-point number of single precision. -/
  | float
  /-- A floating-point number of double precision. -/
  | double
  /-- A text. -/
  | string
  /-- A class, given by its name. -/
  | classLiteral
  /-- A constant of the enumeration with the given name. -/
  | enumeration (typeName : String)
  /-- An annotation of the definition with the given name. -/
  | nested (definition : String)
deriving DecidableEq

/-- **The type of a field.** -/
inductive FieldType where
  /-- One value. -/
  | scalar (type : ScalarType)
  /-- An array; the element type is missing when it is not known. -/
  | array (element : Option ScalarType)
deriving DecidableEq

/-- **A text that is no field type.** -/
structure FieldTypeError where
  /-- The text that was to be read. -/
  input : String
deriving DecidableEq

/-- The message that reports a text that is no field type. -/
def FieldTypeError.message (e : FieldTypeError) : String :=
  "invalid annotation field type '" ++ e.input ++ "'"

namespace ScalarType

/-- The types that are written as a single word, and no others. -/
def words : List (String × ScalarType) := [
  ("boolean", .boolean), ("byte", .byte), ("char", .char), ("short", .short), ("int", .int),
  ("long", .long), ("float", .float), ("double", .double), ("String", .string),
  ("java.lang.String", .string), ("Class", .classLiteral), ("java.lang.Class", .classLiteral)]

/-- The written form. -/
def text : ScalarType → String
  | .boolean => "boolean"
  | .byte => "byte"
  | .char => "char"
  | .short => "short"
  | .int => "int"
  | .long => "long"
  | .float => "float"
  | .double => "double"
  | .string => "String"
  | .classLiteral => "Class"
  | .enumeration typeName => "enum " ++ typeName
  | .nested definition => "annotation-field " ++ definition

/-- **Read a text as a scalar type.** -/
def parse (s : String) : Except FieldTypeError ScalarType :=
  match words.lookup s with
  | some t => .ok t
  | none =>
    match "enum ".toList.isPrefixOf? s.toList with
    | some name => .ok (.enumeration (String.ofList (Text.trimChars name)))
    | none =>
      match "annotation-field ".toList.isPrefixOf? s.toList with
      | some name => .ok (.nested (String.ofList (Text.trimChars name)))
      | none => .error ⟨s⟩

end ScalarType

namespace FieldType

/-- The written form. -/
def text : FieldType → String
  | .scalar t => t.text
  | .array (some t) => t.text ++ "[]"
  | .array none => "unknown[]"

/-- **Read a text as a field type.** An error shows the text without the blanks
around it. -/
def parse (s : String) : Except FieldTypeError FieldType :=
  let t := Text.trim s
  match "[]".toList.isSuffixOf? t.toList with
  | none => (ScalarType.parse t).map .scalar
  | some element =>
    if element = "unknown".toList then .ok (.array none)
    else
      match ScalarType.parse (String.ofList (Text.trimChars element)) with
      | .ok e => .ok (.array (some e))
      | .error _ => .error ⟨t⟩

end FieldType

end AnnotationPlan
