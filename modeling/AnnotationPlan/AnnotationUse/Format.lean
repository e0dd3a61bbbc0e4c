import AnnotationPlan.AnnotationUse.Basic
import AnnotationPlan.AnnotationUse.Literal
import AnnotationPlan.Error
import AnnotationPlan.Schema.NamePolicy

/-!
# Annotation uses as source text

An annotation use is written as `@Name`, as `@Name(v)` when its only value is that
of the field `value`, and otherwise as `@Name(a=v, b=w)`, with the fields in the
order in which the definition declares them. It can be written only if it conforms
to its definition: the definition is known, declares every field that is set, and
every value fits the type of its field.

Names are written simple where the name policy allows it. A simple name relies on
an import, so the result of writing is the text together with the **imports** that
it relies on, each once and in the order of first use (`Formatted`). The values of a
use are written one by one, whatever their order; only then they are put in the
order of the definition, and the imports with them.
-/

namespace AnnotationPlan

/-- **A written annotation use**, or a part of one. -/
structure Formatted where
  /-- The source text. -/
  text : String
  /-- The names that have to be imported, as source text writes them. -/
  imports : List String
deriving DecidableEq

/-- What annotation uses are written with. -/
structure Formatter where
  /-- The known definitions. -/
  definitions : DefinitionTable
  /-- Which names are written in full. -/
  policy : NamePolicy

namespace Formatter

/-- Whether a name needs no import: it lies directly in `java.lang`. -/
def isImplicitlyImported (name : String) : Bool :=
  match "java.lang.".toList.isPrefixOf? name.toList with
  | some rest => !rest.contains '.'
  | none => false

/-- **How the name of a definition is written.** -/
def displayName (f : Formatter) (qualified : String) : String :=
  if !Name.isQualified qualified then qualified
  else if f.policy.isAmbiguous (Name.simple qualified) then Name.source qualified
  else Name.simple qualified

/-- The import that the written name of a definition relies on. -/
def importOf (f : Formatter) (name : String) : List String :=
  if Name.isQualified name && !f.policy.isAmbiguous (Name.simple name)
      && !isImplicitlyImported (Name.source name) then [Name.source name]
  else []

/-- The names of two lists, each once. -/
def mergeImports (first second : List String) : List String :=
  second.foldl NamePolicy.addName first

/-- The definition of an annotation use. -/
def definition (f : Formatter) (u : AnnotationUse) : Except PlanError Definition :=
  match f.definitions.get? u.definition with
  | some d => .ok d
  | none => .error (.unknownDefinition u.definition)

/-- The written forms of scalars that hold no other annotation. -/
def literal? : ScalarType → FieldValue → Option String
  | .boolean, .bool b => some (if b then "true" else "false")
  | .byte, .int n => Literal.ofInt? 8 n
  | .short, .int n => Literal.ofInt? 16 n
  | .int, .int n => Literal.ofInt? 32 n
  | .long, .int n => some (n.toInt.repr ++ "L")
  | .float, .float x => some (Literal.ofFloat "Float" "f" x)
  | .float, .int n => some (n.toInt.repr ++ "f")
  | .double, .float x => some (Literal.ofFloat "Double" "" x)
  | .double, .int n => some (n.toInt.repr ++ ".0")
  | .char, .text s =>
    match s.toList with
    | [c] => some (Literal.quoted '\'' [c])
    | _ => none
  | .string, .text s => some (Literal.quoted '"' s.toList)
  | .classLiteral, .text name => some (Name.source name ++ ".class")
  | .enumeration typeName, .text constant => some (Name.source typeName ++ "." ++ constant)
  | _, _ => none

/-- Put the values of a use together, in the order of the fields of its
definition. -/
def inOrder (fields : List String) (values : List (String × Except PlanError Formatted)) :
    Except PlanError (List (String × Formatted)) :=
  fields.foldr (fun k rest =>
    match Entries.find? k values with
    | none => rest
    | some value => do
      let v ← value
      let vs ← rest
      pure ((k, v) :: vs)) (.ok [])

/-- The arguments of an annotation with the given values. -/
def argumentText : List (String × Formatted) → String
  | [] => ""
  | [("value", v)] => "(" ++ v.text ++ ")"
  | vs => "(" ++ String.intercalate ", " (vs.map (fun v => v.1 ++ "=" ++ v.2.text)) ++ ")"

/-- The imports of several parts, those of the first part first. -/
def importsOf (start : List String) (parts : List Formatted) : List String :=
  parts.foldl (fun imports p => mergeImports imports p.imports) start

/-- **A field that is being written**: where it belongs, for the case that its
value does not fit. -/
structure FieldSite where
  /-- The name of the definition. -/
  definition : String
  /-- The name of the field. -/
  field : String
  /-- The declared type of the field. -/
  type : FieldType

/-- The error of a value that does not fit the type of its field. -/
def FieldSite.mismatch (site : FieldSite) : PlanError :=
  .fieldTypeMismatch site.definition site.field site.type.text

/-- Write a value that holds no other annotation as a scalar. -/
def formatLiteral (site : FieldSite) (t : ScalarType) (v : FieldValue) :
    Except PlanError Formatted :=
  match literal? t v with
  | some s => .ok ⟨s, []⟩
  | none => .error site.mismatch

/-- An annotation use as a scalar, given its written form: it must be of the
definition that the type names, if that definition is known. -/
def nestedValue (f : Formatter) (site : FieldSite) (t : ScalarType) (u : AnnotationUse)
    (written : Except PlanError Formatted) : Except PlanError Formatted :=
  match t with
  | .nested declared => do
    let actual ← f.definition u
    match f.definitions.get? declared with
    | none => written
    | some expected => if expected.name = actual.name then written else .error site.mismatch
  | _ => .error site.mismatch

mutual

/-- **Write an annotation use.** -/
def format (f : Formatter) : AnnotationUse → Except PlanError Formatted
  | ⟨name, values⟩ => do
    let d ← f.definition ⟨name, values⟩
    match values.find? (fun v => !d.fields.contains v.1) with
    | some v => .error (.undeclaredField d.name v.1)
    | none =>
      let parts ← inOrder d.fields.keys (formatFields f d values)
      pure ⟨"@" ++ f.displayName d.name ++ argumentText parts,
        importsOf (f.importOf d.name) (parts.map Prod.snd)⟩
termination_by structural u => u

/-- Write the values of declared fields, each on its own. -/
def formatFields (f : Formatter) (d : Definition) :
    List (String × FieldValue) → List (String × Except PlanError Formatted)
  | [] => []
  | (k, v) :: rest =>
    (match d.fields.find? k with
      | none => []
      | some type => [(k, formatValue f ⟨d.name, k, type⟩ type v)]) ++ formatFields f d rest
termination_by structural vs => vs

/-- **Write a value as one of the expected type**: the type of its field, or the
element type of that. -/
def formatValue (f : Formatter) (site : FieldSite) :
    FieldType → FieldValue → Except PlanError Formatted
  | .scalar t, .nested u => nestedValue f site t u (format f u)
  | .scalar t, v => formatLiteral site t v
  | .array (some element), .array items => do
    let parts ← formatItems f site element items
    pure ⟨"\x7b" ++ String.intercalate "," (parts.map Formatted.text) ++ "\x7d",
      importsOf [] parts⟩
  | .array none, .array [] => .ok ⟨"\x7b\x7d", []⟩
  | _, _ => .error site.mismatch
termination_by structural _ v => v

/-- Write the items of an array. -/
def formatItems (f : Formatter) (site : FieldSite) (element : ScalarType) :
    List FieldValue → Except PlanError (List Formatted)
  | [] => .ok []
  | v :: rest => do
    let part ← formatValue f site (.scalar element) v
    let parts ← formatItems f site element rest
    pure (part :: parts)
termination_by structural vs => vs

end

end Formatter

end AnnotationPlan
