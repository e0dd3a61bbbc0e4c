import AnnotationPlan.JavaType.Basic
import AnnotationPlan.Json.Document
import AnnotationPlan.Json.Load

/-!
# Types as JSON

A type is written as an object whose member `kind` says which of the three forms
it has; the other members are the parts of that form. Lists may be missing and are
then empty, and a missing or null type inside is no type. A type may also be
written as an array, the kind first and the parts in their order behind it.

Writing (`JavaType.json`) puts the kind first, keeps empty lists and leaves out
what is not there. What is written loads as the same type.
-/

namespace AnnotationPlan

namespace BoundKind

/-- The kinds of bounds by name. -/
def names : List (String × BoundKind) :=
  [("extends", .upper), ("super", .lower), ("unbounded", .unbounded)]

/-- The name of a kind of bounds. -/
def name : BoundKind → String
  | .upper => "extends"
  | .lower => "super"
  | .unbounded => "unbounded"

/-- Load a kind of bounds, written as its name or as an object whose only member
is called so and holds nothing. -/
def load : Load.Loader BoundKind
  | .object [(spelled, .object [])] => Load.choice names (.string spelled)
  | s => Load.choice names s

end BoundKind

namespace JavaType

/-! ## Writing -/

mutual

/-- **The type as JSON.** -/
def json : JavaType → Json
  | .declared as name arguments inner =>
    .object (("kind", .string "declared") :: ("annotations", Json.strings as)
      :: ("name", .string name) :: ("type_args", .array (jsons arguments))
      :: jsonMember "inner" inner)
  | .array as component =>
    .object [("kind", .string "array"), ("annotations", Json.strings as),
      ("component", component.json)]
  | .wildcard as kind bound =>
    .object (("kind", .string "wildcard") :: ("annotations", Json.strings as)
      :: ("bound_kind", .string kind.name) :: jsonMember "bound" bound)

/-- Several types as JSON. -/
def jsons : List JavaType → List Json
  | [] => []
  | t :: rest => t.json :: jsons rest

/-- A member for a type that may be missing. -/
def jsonMember (name : String) : Option JavaType → List (String × Json)
  | none => []
  | some t => [(name, t.json)]

end

/-! ## Loading -/

/-- The forms of types. -/
inductive Form where
  /-- A declared type. -/
  | declared
  /-- An array. -/
  | array
  /-- A wildcard. -/
  | wildcard
deriving DecidableEq

/-- The forms by name, in their order. -/
def Form.names : List (String × Form) :=
  [("declared", .declared), ("array", .array), ("wildcard", .wildcard)]

/-- Load a form, written as its name or, in a type within another, as its
number. -/
def Form.load (inside : Bool) : Load.Loader Form
  | .string spelled => Load.orMalformed ((Source.text? spelled).bind (List.lookup · names))
  | .number x =>
    match inside, x.value? with
    | true, some (.natural n) => Load.orMalformed (names[n]?.map Prod.snd)
    | _, _ => .error .malformed
  | _ => .error .malformed

/-- Whether a spelled key names the form of a type. -/
def isFormKey (m : List Char × Source) : Bool :=
  Source.text? m.1 == some "kind"

/-- **Split a type into its form and its parts.** The form occurs once, anywhere in
an object and first in an array. -/
def splitForm (inside : Bool) : Source → Except LoadError (Form × Source)
  | .object members => do
    match members.filter isFormKey with
    | [(_, s)] =>
      let form ← Form.load inside s
      pure (form, .object (members.filter (!isFormKey ·)))
    | _ => .error .malformed
  | .array (s :: rest) => do
    let form ← Form.load inside s
    pure (form, .array rest)
  | _ => .error .malformed

/-- A declared type with another name; all other types as they are. -/
def withName : JavaType → String → JavaType
  | .declared as _ arguments inner, name => .declared as name arguments inner
  | t, _ => t

/-- A wildcard bounded in another way; all other types as they are. -/
def withBoundKind : JavaType → BoundKind → JavaType
  | .wildcard as _ bound, kind => .wildcard as kind bound
  | t, _ => t

/-- A type with another one inside: nested in it, as its component or as its
bound. An array keeps its component when there is none to put in its place. -/
def withInside : JavaType → Option JavaType → JavaType
  | .declared as name arguments _, inner => .declared as name arguments inner
  | .array as component, inside => .array as (inside.getD component)
  | .wildcard as kind _, bound => .wildcard as kind bound

/-- The list of annotations, a part of every form. -/
def annotationsField : Load.Field JavaType :=
  Load.field "annotations" (Load.list Load.text) withAnnotations

/-- **The parts of a form**, the types within it being loaded as given. -/
def fields (inside : Load.Loader JavaType) : Form → List (Load.Field JavaType)
  | .declared => [
      annotationsField,
      Load.requiredField "name" Load.text withName,
      Load.field "type_args" (Load.list inside) withArguments,
      Load.field "inner" (Load.nullable inside) withInside]
  | .array => [
      annotationsField,
      Load.requiredField "component" inside (fun t component => t.withInside (some component))]
  | .wildcard => [
      annotationsField,
      Load.field "bound_kind" BoundKind.load withBoundKind,
      Load.field "bound" (Load.nullable inside) withInside]

/-- A type of a form without any parts. -/
def Form.start : Form → JavaType
  | .declared => .unnamed
  | .array => .array [] .unnamed
  | .wildcard => .wildcard [] .unbounded none

/-- Load a type with at most the given number of types around one another. -/
def loadWithin : Nat → Bool → Load.Loader JavaType
  | 0, _ => fun _ => .error .malformed
  | n + 1, inside => fun s => do
    let (form, parts) ← splitForm inside s
    Load.record (fields (loadWithin n true) form) form.start parts

/-- **Load a type**, which must be usable with all its parts, the unknown ones
included. Types cannot lie deeper within one another than containers can. -/
def load : Load.Loader JavaType := fun s =>
  if s.isUsable then loadWithin Source.depthLimit false s else .error .malformed

end JavaType

end AnnotationPlan
