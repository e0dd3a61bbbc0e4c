import AnnotationPlan.Synthesis.Draft

/-!
# From a scene to a plan

A **plan** is everything that a run produces: the insertions, those of them that are
in the output and in what order, where each comes from, what has to be imported, and
what was not known about constructors. A run works off the parts of the scene in
order and stops at the first error.

For each class the lookup is asked once. If compiled classes are not to be consulted
nothing is known about any class, and there is nothing to warn of.
-/

namespace AnnotationPlan

/-- **What a run produces.** -/
structure Plan where
  /-- All insertions, those included that only other insertions refer to. -/
  store : Store
  /-- The insertions in the output, in order. -/
  order : List InsertionId
  /-- Where the insertions come from. -/
  sources : Sources
  /-- Which names are written in full. -/
  policy : NamePolicy
  /-- The names to import. -/
  imports : List String
  /-- The warnings. -/
  warnings : List Warning

namespace Plan

/-- What is known about a class, and the warning if the lookup failed. -/
def knowledge (settings : Settings) (lookup : ConstructorLookup) (className : String) :
    ConstructorKnowledge × List Warning :=
  if settings.readBytecode then
    match lookup className with
    | .ok k => (k, [])
    | .error e => (.unknown, [⟨className, e.message⟩])
  else (.unknown, [])

/-- **Work off a part of a scene.** -/
def visitPart (formatter : Formatter) (settings : Settings) (lookup : ConstructorLookup)
    (d : Draft) (p : Part) : Except PlanError Draft :=
  match p with
  | .nameless className =>
    .error (.malformedScene ("class '" ++ className ++ "' names no package"))
  | .package .. => p.sites.foldlM (Draft.visit ⟨formatter, false⟩) d
  | .type className _ =>
    let (known, warnings) := knowledge settings lookup className
    p.sites.foldlM (Draft.visit ⟨formatter, settings.writesConstructor known⟩)
      { d with constructor := none, warnings := d.warnings ++ warnings }

/-- **Run with a given name policy.** -/
def ofSceneWith (policy : NamePolicy) (scene : Scene) (lookup : ConstructorLookup)
    (settings : Settings) : Except PlanError Plan := do
  let d ← scene.parts.foldlM (visitPart ⟨scene.definitions, policy⟩ settings lookup) Draft.empty
  pure {
    store := d.store
    order := d.placed.reverse
    sources := d.sources
    policy := policy
    imports := d.imports
    warnings := d.warnings }

/-- **Run**, with the name policy that the definitions of the scene call for. -/
def ofScene (scene : Scene) (lookup : ConstructorLookup) (settings : Settings) :
    Except PlanError Plan :=
  ofSceneWith (NamePolicy.ofTable scene.definitions) scene lookup settings

/-- The texts of the insertions in the output. -/
def rendered (p : Plan) : Except PlanError (List String) :=
  p.order.mapM p.store.render

end Plan

end AnnotationPlan
