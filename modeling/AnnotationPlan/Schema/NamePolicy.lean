import AnnotationPlan.Schema.Definition

/-!
# Which names are written in full

In source text an annotation is best written with its simple name, the full one
being imported once. That fails where two definitions share a simple name: then
each of them is written in full. The **name policy** is the list of those simple
names. It is computed from the definitions before anything is written, and never
changes afterwards.
-/

namespace AnnotationPlan

/-- **The simple names that must not be used.** -/
structure NamePolicy where
  /-- The names, in the order in which they were found, each once. -/
  alwaysQualify : List String
deriving DecidableEq

namespace NamePolicy

/-- Add a name to a list unless it is there. -/
def addName (names : List String) (name : String) : List String :=
  if name ∈ names then names else names ++ [name]

/-- **The policy for a table of definitions.** A simple name is ambiguous when
some qualified definition has it, but the table knows no definition under it. -/
def ofTable (t : DefinitionTable) : NamePolicy :=
  ⟨t.definitions.foldl (fun names d =>
    if Name.isQualified d.name && (t.get? (Name.simple d.name)).isNone then
      addName names (Name.simple d.name)
    else names) []⟩

/-- Whether a simple name must not be used. -/
def isAmbiguous (p : NamePolicy) (simple : String) : Bool :=
  decide (simple ∈ p.alwaysQualify)

end NamePolicy

end AnnotationPlan
