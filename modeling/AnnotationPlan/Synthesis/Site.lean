import AnnotationPlan.Criteria.Basic
import AnnotationPlan.Scene.Basic

/-!
# The annotated sites of a scene

Everything in a scene that can be annotated is a **site**: its criteria, the
annotations on it, and the positions within its type. A scene is laid out as the list
of its sites, part by part, and everything after that works on the list alone. So the
order of the list is the order of the output:

* packages, then classes in the order of the scene;
* within a class its declaration, the bounds of its type parameters, its supertypes,
  what goes into its syntax tree, fields, methods, and the three kinds of
  initializers;
* within a method its declaration, receiver, result type, bounds, parameters, what
  goes into its syntax tree, and its code;
* within a block the local variables, then the expressions by kind, lambdas last;
* within a type the positions inside a position before the position itself.

Of the parameters of methods only the types count, and of lambdas only the
parameters and the code. A class whose name ends in `.package-info` stands for its
package.
-/

namespace AnnotationPlan

/-- **A position that can be annotated.** -/
structure Position where
  /-- Where it is. -/
  criteria : CriteriaList
  /-- The annotations on it. -/
  annotations : List AnnotationUse

/-- **A site**: a declaration or a whole type, with the positions within. -/
structure Site extends Position where
  /-- The positions within the type, in order. -/
  nested : List Position := []
  /-- The type to cast to, where a cast is to be inserted. -/
  cast : Option JavaType := none
  /-- Whether the annotations within the type wait for what the type becomes: they
  may have to be written into it. -/
  withholds : Bool := false

namespace Site

/-- A declaration. -/
def declaration (criteria : CriteriaList) (annotations : List AnnotationUse) : Site where
  criteria := criteria
  annotations := annotations

/-- The positions within a type at a place. -/
def positionsWithin (place : CriteriaList) (inner : List (TypePath × TypeElement)) :
    List Position :=
  (TypeElement.positionsOf TypePath.root inner).map
    (fun p => ⟨place.add (.atLocation p.1), p.2⟩)

/-- **A type in the program.** -/
def type (place : CriteriaList) (t : TypeElement) : Site where
  criteria := place.add Criterion.outerType
  annotations := t.annotations
  nested := positionsWithin place t.inner

/-- A supertype of a class. -/
def supertype (place : CriteriaList) (t : TypeElement) : Site where
  criteria := place
  annotations := t.annotations
  nested := positionsWithin place t.inner

/-- A type at a place in a syntax tree. -/
def inserted (place : CriteriaList) (t : TypeElement) : Site where
  criteria := place
  annotations := t.annotations
  nested := positionsWithin place t.inner
  withholds := true

/-- **A cast to be inserted** at a place in a syntax tree. -/
def insertedCast (place : CriteriaList) (c : CastElement) : Site where
  criteria := place
  annotations := c.annotations
  nested := positionsWithin place c.inner
  cast := some c.type
  withholds := true

end Site

/-- What goes into a syntax tree: annotations, then casts. -/
def AstInsertions.sites (place : CriteriaList) (i : AstInsertions) : List Site :=
  i.annotations.entries.map (fun e => Site.inserted (place.add (.astPath e.1)) e.2)
    ++ i.casts.entries.map (fun e => Site.insertedCast (place.add (.astPath e.1)) e.2)

namespace VariableElement

/-- The sites of a field: its declaration, its type and the code that belongs to it. -/
def fieldSites (place : CriteriaList) (name : String) (v : VariableElement) : List Site :=
  Site.declaration (place.add (.field name true)) v.annotations
    :: Site.type (place.add (.field name false)) v.type
    :: v.insertions.sites (place.add (.field name false))

/-- The sites of a local variable: its declaration and its type. -/
def localSites (place : CriteriaList) (v : VariableElement) : List Site :=
  [Site.declaration place v.annotations, Site.type place v.type]

/-- The sites of a parameter of a lambda: its type and the code that belongs to it. -/
def lambdaSites (place : CriteriaList) (v : VariableElement) : List Site :=
  Site.type place v.type :: v.insertions.sites place

end VariableElement

/-- The method that the parameters of lambdas are said to be in. -/
def anonymousMethod : String := "(anonymous)"

/-- The types of expressions of one kind. -/
def expressionSites (place : CriteriaList) (criterion : RelativeLocation → Criterion)
    (es : OrderedMap RelativeLocation TypeElement) : List Site :=
  es.entries.map (fun e => Site.type (place.add (criterion e.1)) e.2)

mutual

/-- **The sites of expressions** in a method. -/
def ExpressionElement.sites (place : CriteriaList) (method : String) :
    ExpressionElement → List Site
  | ⟨casts, news, instanceOfs, memberReferences, calls, lambdas⟩ =>
    expressionSites place (.cast method) casts
      ++ expressionSites place (.new method) news
      ++ expressionSites place (.instanceOf method) instanceOfs
      ++ expressionSites place (.memberReference method) memberReferences
      ++ expressionSites place (.methodCall method) calls
      ++ lambdaSites place method lambdas
termination_by structural e => e

/-- The sites of lambdas. -/
def lambdaSites (place : CriteriaList) (method : String) :
    List (RelativeLocation × MethodElement) → List Site
  | [] => []
  | (location, m) :: rest =>
    m.lambdaSites (place.add (.lambda method location)) method ++ lambdaSites place method rest
termination_by structural es => es

/-- The sites of a lambda: its parameters and its code. -/
def MethodElement.lambdaSites (place : CriteriaList) (method : String) :
    MethodElement → List Site
  | ⟨_, _, _, _, parameters, _, body⟩ =>
    parameters.entries.flatMap
        (fun p => p.2.lambdaSites (place.add (.parameter anonymousMethod p.1)))
      ++ body.sites place method
termination_by structural m => m

/-- **The sites of a block** in a method. -/
def BlockElement.sites (place : CriteriaList) (method : String) : BlockElement → List Site
  | ⟨locals, expressions⟩ =>
    locals.entries.flatMap (fun l => l.2.localSites (place.add (.localVariable method l.1)))
      ++ expressions.sites place method
termination_by structural b => b

end

/-- **The sites of a method** of a class. -/
def MethodElement.sites (place : CriteriaList) (className name : String) (m : MethodElement) :
    List Site :=
  let place := place.add (.inMethod name)
  Site.declaration place m.annotations
    :: Site.type (place.add (.receiver name)) m.receiver
    :: Site.type (place.add (.returnType className name)) m.returnType
    :: m.bounds.entries.map (fun b => Site.type (place.add (.methodBound name b.1)) b.2)
    ++ m.parameters.entries.map (fun p => Site.type (place.add (.parameter name p.1)) p.2.type)
    ++ m.insertions.sites place
    ++ m.body.sites place name

namespace ClassElement

/-- Where the members of a class are: in the class itself, and then in the class or
those nested in it. -/
def memberPlace (name : String) : CriteriaList :=
  (CriteriaList.empty.add (.inClass name true)).add (.inClass name false)

/-- **The sites of a class.** -/
def sites (name : String) (c : ClassElement) : List Site :=
  let inside := CriteriaList.empty.add (.inClass name true)
  let place := memberPlace name
  Site.declaration (CriteriaList.empty.add (.isClass name)) c.annotations
    :: c.bounds.entries.map (fun b => Site.type (inside.add (.classBound name b.1)) b.2)
    ++ c.supertypes.entries.map (fun t => Site.supertype (place.add (.supertype name t.1)) t.2)
    ++ c.insertions.sites place
    ++ c.fields.entries.flatMap (fun f => f.2.fieldSites place f.1)
    ++ c.methods.entries.flatMap (fun m => m.2.sites place name m.1)
    ++ c.staticInits.entries.flatMap (fun i =>
      i.2.sites (place.add (.inStaticInit i.1)) ("static init number " ++ i.1.toNat.repr ++ "()"))
    ++ c.instanceInits.entries.flatMap (fun i =>
      i.2.sites (place.add (.inInstanceInit i.1))
        ("instance init number " ++ i.1.toNat.repr ++ "()"))
    ++ c.fieldInits.entries.flatMap (fun i =>
      i.2.sites (place.add (.inFieldInit i.1)) ("init for field " ++ i.1 ++ "()"))

end ClassElement

/-- **A part of a scene** that is worked off by itself. -/
inductive Part where
  /-- A package and the annotations on its declaration. -/
  | package (name : String) (annotations : List AnnotationUse)
  /-- A class. -/
  | type (name : String) (element : ClassElement)
  /-- A class that stands for a package without a name. -/
  | nameless (className : String)

namespace Part

/-- What the classes are called that stand for packages, after the name of the
package. -/
def packageSuffix : String := ".package-info"

/-- The part that a class of a scene is. -/
def ofClass (name : String) (c : ClassElement) : Part :=
  match packageSuffix.toList.isSuffixOf? name.toList with
  | none => .type name c
  | some [] => .nameless name
  | some start => .package (String.ofList start) c.annotations

/-- The sites of a part. -/
def sites : Part → List Site
  | .package name annotations =>
    [Site.declaration (CriteriaList.empty.add (.packageDecl name)) annotations]
  | .type name c => c.sites name
  | .nameless _ => []

end Part

/-- **The parts of a scene in order.** -/
def Scene.parts (s : Scene) : List Part :=
  s.packages.entries.map (fun p => .package p.1 p.2.annotations)
    ++ s.classes.entries.map (fun c => Part.ofClass c.1 c.2)

end AnnotationPlan
