import AnnotationPlan.Location.Scan

/-!
# Type paths

A type such as `Map<String, ? extends List<E>>` has many positions that can be
annotated. A **type path** names one of them by the steps from the outer type
down to it: into the component of an array (written `[`), into the nested type
of a qualified type (`.`), into the bound of a wildcard (`*`), or into the type
argument with a given number (`0;`). The empty path is the outer type itself.

Steps are written one after another without anything between them. Reading
takes steps as long as there are any; the first place at which no step begins
is where an error is reported.
-/

namespace AnnotationPlan

/-- One step into a compound type. -/
inductive TypePath.Step where
  /-- From an array to its component. -/
  | array
  /-- From a type to the type nested in it. -/
  | inner
  /-- From a wildcard to its bound. -/
  | wildcard
  /-- From a parameterized type to one of its arguments. -/
  | argument (index : UInt8)
deriving DecidableEq

/-- **A path into a compound type.** -/
structure TypePath where
  /-- The steps, from the outside in. -/
  steps : List TypePath.Step
deriving DecidableEq

namespace TypePath

/-- The written form of a step. -/
def Step.text : Step → String
  | .array => "["
  | .inner => "."
  | .wildcard => "*"
  | .argument i => i.toNat.repr ++ ";"

/-- The place of a step in the order of steps: arrays, nested types, wildcards,
then the arguments by number. -/
def Step.rank : Step → Nat
  | .array => 0
  | .inner => 1
  | .wildcard => 2
  | .argument i => 3 + i.toNat

/-- The path to the outer type. -/
def root : TypePath := ⟨[]⟩

instance : Inhabited TypePath := ⟨root⟩

/-- Whether the path leads to the outer type. -/
def isEmpty (p : TypePath) : Bool := p.steps.isEmpty

/-- The number of steps. -/
def length (p : TypePath) : Nat := p.steps.length

/-- One path followed by another. -/
def join (p q : TypePath) : TypePath := ⟨p.steps ++ q.steps⟩

/-- A path with one more step. -/
def child (p : TypePath) (s : Step) : TypePath := ⟨p.steps ++ [s]⟩

/-- The written form: the steps one after another. -/
def text (p : TypePath) : String := String.join (p.steps.map Step.text)

/-- Lists of steps in the order of a dictionary. -/
def compareSteps : List Step → List Step → Ordering
  | [], [] => .eq
  | [], _ :: _ => .lt
  | _ :: _, [] => .gt
  | s :: ss, t :: ts => (compare s.rank t.rank).then (compareSteps ss ts)

/-- Paths in the order of a dictionary. -/
def compare (p q : TypePath) : Ordering := compareSteps p.steps q.steps

/-! ## Reading -/

/-- Read one step; whatever goes wrong, reading stops where the step began. -/
def scanStep : Location.Scan Step
  | '[' :: rest => .ok (.array, rest)
  | '.' :: rest => .ok (.inner, rest)
  | '*' :: rest => .ok (.wildcard, rest)
  | cs =>
    match Location.Scan.natural cs with
    | .ok (n, ';' :: rest) =>
      if n.toNat < UInt8.size then .ok (.argument n.toUInt8, rest) else .error cs
    | _ => .error cs

/-- Read a path: as many steps as there are. -/
def scan : Location.Scan TypePath := do
  let steps ← Location.Scan.many scanStep
  pure ⟨steps⟩

/-- **Read a text as a type path.** -/
def parse (s : String) : Except Location.ParseError TypePath :=
  Location.Scan.parse .typePath scan s s.toList

end TypePath

end AnnotationPlan
