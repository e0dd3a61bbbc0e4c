import AnnotationPlan.Location.TypePath

/-!
# Types that can be annotated

Casts, receiver parameters, object creations and constructors are written with a
whole type, and annotations may stand at any position of it. A `JavaType` is such
a type with the texts of the annotations at each of its positions.

A **type path** names a position: `at?` finds it, and `annotateAt?` adds the text
of an annotation there; both fail when the path leads out of the type. A declared
type without a name stands for a position whose type is not known; of it only the
annotations are written.
-/

namespace AnnotationPlan

/-- How a wildcard is bounded. -/
inductive BoundKind where
  /-- From above. -/
  | upper
  /-- From below. -/
  | lower
  /-- Not at all. -/
  | unbounded
deriving DecidableEq

/-- **A type with annotations at its positions.** -/
inductive JavaType where
  /-- A class, interface or primitive type, with its arguments and possibly a type
  nested in it. -/
  | declared (annotations : List String) (name : String) (arguments : List JavaType)
      (inner : Option JavaType)
  /-- An array. -/
  | array (annotations : List String) (component : JavaType)
  /-- A wildcard. -/
  | wildcard (annotations : List String) (kind : BoundKind) (bound : Option JavaType)

instance : Inhabited JavaType := ⟨.declared [] "" [] none⟩

namespace JavaType

/-- A declared type with a name and nothing else. -/
def named (name : String) : JavaType := .declared [] name [] none

/-- A type of which only the annotations are known. -/
def unnamed : JavaType := named ""

/-- The annotations at the outermost position. -/
def annotations : JavaType → List String
  | .declared as _ _ _ => as
  | .array as _ => as
  | .wildcard as _ _ => as

/-- A type with other annotations at the outermost position. -/
def withAnnotations : JavaType → List String → JavaType
  | .declared _ name arguments inner, as => .declared as name arguments inner
  | .array _ component, as => .array as component
  | .wildcard _ kind bound, as => .wildcard as kind bound

/-- Add the text of an annotation at the outermost position. -/
def annotate (text : String) (t : JavaType) : JavaType :=
  t.withAnnotations (t.annotations ++ [text])

/-- The name of a declared type. -/
def name? : JavaType → Option String
  | .declared _ name _ _ => some name
  | _ => none

/-- A declared type with other arguments; all other types as they are. -/
def withArguments : JavaType → List JavaType → JavaType
  | .declared as name _ inner, arguments => .declared as name arguments inner
  | t, _ => t

/-- A declared type with another type nested in it; all other types as they are. -/
def withInner : JavaType → JavaType → JavaType
  | .declared as name arguments _, inner => .declared as name arguments (some inner)
  | t, _ => t

/-! ## Positions -/

/-- The position one step inside a type. -/
def step? : TypePath.Step → JavaType → Option JavaType
  | .array, .array _ component => some component
  | .inner, .declared _ _ _ inner => inner
  | .wildcard, .wildcard _ _ bound => bound
  | .argument i, .declared _ _ arguments _ => arguments[i.toNat]?
  | _, _ => none

/-- The position at the end of a list of steps. -/
def atSteps? : List TypePath.Step → JavaType → Option JavaType
  | [], t => some t
  | s :: rest, t => (t.step? s).bind (atSteps? rest)

/-- **The position that a path leads to.** -/
def at? (p : TypePath) (t : JavaType) : Option JavaType := atSteps? p.steps t

/-- Put another type in the place one step inside a type. -/
def setStep (s : TypePath.Step) (inside : JavaType) (t : JavaType) : JavaType :=
  match s, t with
  | .array, .array as _ => .array as inside
  | .inner, .declared as name arguments (some _) => .declared as name arguments (some inside)
  | .wildcard, .wildcard as kind (some _) => .wildcard as kind (some inside)
  | .argument i, .declared as name arguments inner =>
    .declared as name (arguments.set i.toNat inside) inner
  | _, _ => t

/-- Change the position at the end of a list of steps. -/
def modifySteps? (f : JavaType → JavaType) : List TypePath.Step → JavaType → Option JavaType
  | [], t => some (f t)
  | s :: rest, t => do
    let inside ← t.step? s
    let changed ← modifySteps? f rest inside
    pure (setStep s changed t)

/-- **Add the text of an annotation at the position that a path leads to.** -/
def annotateAt? (p : TypePath) (text : String) (t : JavaType) : Option JavaType :=
  modifySteps? (annotate text) p.steps t

/-! ## Writing -/

/-- Annotations in front of what they stand on. -/
def leading (as : List String) : String := String.join (as.map (· ++ " "))

/-- The brackets of one dimension of an array, with the annotations of the array
before them. -/
def dimension (as : List String) : String :=
  String.join (as.map (" " ++ ·)) ++ (if as.isEmpty then "" else " ") ++ "[]"

mutual

/-- A type as source text, followed by the brackets of the arrays around it. -/
def textBefore (brackets : String) : JavaType → String
  | .array as component => component.textBefore (brackets ++ dimension as)
  | .declared as name arguments inner =>
    if name = "" then String.intercalate " " as ++ brackets
    else
      leading as ++ name
        ++ (if arguments.isEmpty then ""
          else "<" ++ String.intercalate ", " (texts arguments) ++ ">")
        ++ textAfter "." inner ++ brackets
  | .wildcard as kind bound =>
    leading as ++ "?"
      ++ (match kind with
        | .upper => textAfter " extends " bound
        | .lower => textAfter " super " bound
        | .unbounded => "")
      ++ brackets

/-- A type that may be missing as source text, with a mark in front if it is
there. -/
def textAfter (mark : String) : Option JavaType → String
  | none => ""
  | some t => mark ++ t.textBefore ""

/-- Several types as source text. -/
def texts : List JavaType → List String
  | [] => []
  | t :: rest => t.textBefore "" :: texts rest

end

/-- **The type as source text.** The dimensions of an array are written behind the
element type, the outermost first. -/
def text (t : JavaType) : String := t.textBefore ""

end JavaType

end AnnotationPlan
