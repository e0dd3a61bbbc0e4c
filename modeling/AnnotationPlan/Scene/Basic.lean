import AnnotationPlan.AnnotationUse.Basic
import AnnotationPlan.JavaType.Basic
import AnnotationPlan.Location.AstPath
import AnnotationPlan.Location.LocalVariable
import AnnotationPlan.Location.Relative
import AnnotationPlan.Schema.Definition

/-!
# Scenes

A **scene** is what is to be inserted into a program: the annotation definitions,
and for every annotated element of the program the uses of annotations on it. It
has the shape of a program – packages, classes, their fields and methods, the
blocks of code in them, the expressions in those – but holds only what is
annotated.

The members of every element are kept in the order in which they were given,
because insertions come out in that order. The elements that occur within
themselves – types, whose positions have positions, and methods, whose code has
lambdas – hold those members as bare lists of pairs, all others as ordered maps.
-/

namespace AnnotationPlan

/-- **A position of a type**, and the positions within it. -/
structure TypeElement where
  /-- The annotations on the position itself. -/
  annotations : List AnnotationUse
  /-- The positions within it, by their paths from it. -/
  inner : List (TypePath × TypeElement)

instance : Inhabited TypeElement := ⟨⟨[], []⟩⟩

/-- **A place where a cast is to be inserted**, and the positions within the type
of the cast. -/
structure CastElement where
  /-- The annotations on the type of the cast. -/
  annotations : List AnnotationUse
  /-- The positions within the type of the cast, by their paths. -/
  inner : List (TypePath × TypeElement)
  /-- The type to cast to. -/
  type : JavaType

instance : Inhabited CastElement := ⟨⟨[], [], .unnamed⟩⟩

/-- **What goes into a syntax tree**: annotations and casts by the path to where
they are to be inserted. -/
structure AstInsertions where
  /-- The annotated places. -/
  annotations : OrderedMap AstPath TypeElement
  /-- The places where casts are to be inserted. -/
  casts : OrderedMap AstPath CastElement

instance : Inhabited AstInsertions := ⟨⟨.empty, .empty⟩⟩

/-- **A field, a parameter or a local variable.** -/
structure VariableElement where
  /-- The annotations on the declaration. -/
  annotations : List AnnotationUse
  /-- The type. -/
  type : TypeElement
  /-- What goes into the code that belongs to it. -/
  insertions : AstInsertions

instance : Inhabited VariableElement := ⟨⟨[], default, default⟩⟩

mutual

/-- **The expressions of a block.** -/
structure ExpressionElement where
  /-- Casts. -/
  casts : OrderedMap RelativeLocation TypeElement
  /-- Creations of objects and arrays. -/
  news : OrderedMap RelativeLocation TypeElement
  /-- Type tests. -/
  instanceOfs : OrderedMap RelativeLocation TypeElement
  /-- References to methods. -/
  memberReferences : OrderedMap RelativeLocation TypeElement
  /-- Calls of methods. -/
  calls : OrderedMap RelativeLocation TypeElement
  /-- Lambdas. -/
  lambdas : List (RelativeLocation × MethodElement)

/-- **A block of code**: the body of a method or an initializer. -/
structure BlockElement where
  /-- The local variables. -/
  locals : OrderedMap LocalLocation VariableElement
  /-- The expressions. -/
  expressions : ExpressionElement

/-- **A method, a constructor or a lambda.** -/
structure MethodElement where
  /-- The annotations on the declaration. -/
  annotations : List AnnotationUse
  /-- The type of the receiver. -/
  receiver : TypeElement
  /-- The type of the result. -/
  returnType : TypeElement
  /-- The bounds of its type parameters. -/
  bounds : OrderedMap BoundLocation TypeElement
  /-- The parameters by number. -/
  parameters : OrderedMap UInt32 VariableElement
  /-- What goes into its syntax tree. -/
  insertions : AstInsertions
  /-- The code. -/
  body : BlockElement

end

instance : Inhabited ExpressionElement := ⟨⟨.empty, .empty, .empty, .empty, .empty, []⟩⟩

instance : Inhabited BlockElement := ⟨⟨.empty, default⟩⟩

instance : Inhabited MethodElement := ⟨⟨[], default, default, .empty, .empty, default, default⟩⟩

/-- **A class** and what is declared in it. -/
structure ClassElement where
  /-- The annotations on the declaration. -/
  annotations : List AnnotationUse
  /-- The bounds of its type parameters. -/
  bounds : OrderedMap BoundLocation TypeElement
  /-- The types that it extends and implements. -/
  supertypes : OrderedMap SupertypeLocation TypeElement
  /-- What goes into its syntax tree. -/
  insertions : AstInsertions
  /-- The fields by name. -/
  fields : OrderedMap String VariableElement
  /-- The methods by name and descriptor. -/
  methods : OrderedMap String MethodElement
  /-- The initializers of the class by number. -/
  staticInits : OrderedMap UInt32 BlockElement
  /-- The initializers of its objects by number. -/
  instanceInits : OrderedMap UInt32 BlockElement
  /-- The initial values of fields by the name of the field. -/
  fieldInits : OrderedMap String ExpressionElement

instance : Inhabited ClassElement :=
  ⟨⟨[], .empty, .empty, default, .empty, .empty, .empty, .empty, .empty⟩⟩

/-- **A package.** -/
structure PackageElement where
  /-- The annotations on the declaration. -/
  annotations : List AnnotationUse

instance : Inhabited PackageElement := ⟨⟨[]⟩⟩

/-- **A scene.** -/
structure Scene where
  /-- The annotation definitions. -/
  definitions : DefinitionTable
  /-- The packages by name. -/
  packages : OrderedMap String PackageElement
  /-- The classes by binary name. -/
  classes : OrderedMap String ClassElement

instance : Inhabited Scene := ⟨⟨.empty, .empty, .empty⟩⟩

namespace TypeElement

mutual

/-- **The positions of annotations within a type**, each with its whole path: those
within a position come before it. -/
def positions (start : TypePath) : TypeElement → List (TypePath × List AnnotationUse)
  | ⟨annotations, inner⟩ => positionsOf start inner ++ [(start, annotations)]

/-- The positions within each of several positions. -/
def positionsOf (start : TypePath) :
    List (TypePath × TypeElement) → List (TypePath × List AnnotationUse)
  | [] => []
  | (path, t) :: rest => positions (start.join path) t ++ positionsOf start rest

end

mutual

/-- Whether there is no annotation at or within a position. -/
def isEmpty : TypeElement → Bool
  | ⟨annotations, inner⟩ => annotations.isEmpty && areEmpty inner

/-- Whether there is no annotation at or within any of several positions. -/
def areEmpty : List (TypePath × TypeElement) → Bool
  | [] => true
  | (_, t) :: rest => t.isEmpty && areEmpty rest

end

end TypeElement

end AnnotationPlan
