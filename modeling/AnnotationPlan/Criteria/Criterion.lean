import AnnotationPlan.Location.AstPath
import AnnotationPlan.Location.LocalVariable
import AnnotationPlan.Location.Relative
import AnnotationPlan.Location.TypePath

/-!
# Criteria for places in a program

Where an insertion goes is described by **criteria**, each of which narrows the
place further: in this class, in that method, on its receiver, at this position of
its type. There are twenty-four kinds of them. Whoever writes the insertions into
source text reads the criteria in their written form.
-/

namespace AnnotationPlan

/-- **One criterion for a place in a program.** -/
inductive Criterion where
  /-- The declaration of a package. -/
  | packageDecl (package : String)
  /-- Inside a class; if `exact`, not in the classes nested in it. -/
  | inClass (className : String) (exact : Bool)
  /-- The declaration of a class. -/
  | isClass (className : String)
  /-- A bound of a type parameter of a class. -/
  | classBound (className : String) (bound : BoundLocation)
  /-- A position of a type; the empty path is the whole type. -/
  | atLocation (path : TypePath)
  /-- A type that a class extends or implements. -/
  | supertype (className : String) (index : SupertypeLocation)
  /-- A field, and whether its declaration is meant rather than its type. -/
  | field (name : String) (declaration : Bool)
  /-- Inside a method. -/
  | inMethod (method : String)
  /-- The receiver of a method. -/
  | receiver (method : String)
  /-- The result type of a method. -/
  | returnType (className method : String)
  /-- A bound of a type parameter of a method. -/
  | methodBound (method : String) (bound : BoundLocation)
  /-- A parameter of a method. -/
  | parameter (method : String) (index : UInt32)
  /-- A local variable. -/
  | localVariable (method : String) (location : LocalLocation)
  /-- A cast. -/
  | cast (method : String) (location : RelativeLocation)
  /-- The creation of an object or array. -/
  | new (method : String) (location : RelativeLocation)
  /-- A type test. -/
  | instanceOf (method : String) (location : RelativeLocation)
  /-- A reference to a method. -/
  | memberReference (method : String) (location : RelativeLocation)
  /-- A call of a method. -/
  | methodCall (method : String) (location : RelativeLocation)
  /-- A lambda. -/
  | lambda (method : String) (location : RelativeLocation)
  /-- A place in the syntax tree. -/
  | astPath (path : AstPath)
  /-- Inside an initializer of a class. -/
  | inStaticInit (block : UInt32)
  /-- Inside an initializer of objects. -/
  | inInstanceInit (block : UInt32)
  /-- Inside the initial value of a field. -/
  | inFieldInit (field : String)
  /-- One type of an intersection that is cast to. -/
  | intersectionType (location : RelativeLocation)
deriving DecidableEq

/-- **The kind of a criterion.** -/
inductive CriterionKind where
  /-- The declaration of a package. -/
  | packageDecl
  /-- Inside a class. -/
  | inClass
  /-- The declaration of a class. -/
  | isClass
  /-- A bound of a type parameter of a class. -/
  | classBound
  /-- A position of a type. -/
  | atLocation
  /-- A type that a class extends or implements. -/
  | supertype
  /-- A field. -/
  | field
  /-- Inside a method. -/
  | inMethod
  /-- The receiver of a method. -/
  | receiver
  /-- The result type of a method. -/
  | returnType
  /-- A bound of a type parameter of a method. -/
  | methodBound
  /-- A parameter of a method. -/
  | parameter
  /-- A local variable. -/
  | localVariable
  /-- A cast. -/
  | cast
  /-- The creation of an object or array. -/
  | new
  /-- A type test. -/
  | instanceOf
  /-- A reference to a method. -/
  | memberReference
  /-- A call of a method. -/
  | methodCall
  /-- A lambda. -/
  | lambda
  /-- A place in the syntax tree. -/
  | astPath
  /-- Inside an initializer of a class. -/
  | inStaticInit
  /-- Inside an initializer of objects. -/
  | inInstanceInit
  /-- Inside the initial value of a field. -/
  | inFieldInit
  /-- One type of an intersection that is cast to. -/
  | intersectionType
deriving DecidableEq

namespace Criterion

/-- The kind of a criterion. -/
def kind : Criterion → CriterionKind
  | packageDecl .. => .packageDecl
  | inClass .. => .inClass
  | isClass .. => .isClass
  | classBound .. => .classBound
  | atLocation .. => .atLocation
  | supertype .. => .supertype
  | field .. => .field
  | inMethod .. => .inMethod
  | receiver .. => .receiver
  | returnType .. => .returnType
  | methodBound .. => .methodBound
  | parameter .. => .parameter
  | localVariable .. => .localVariable
  | cast .. => .cast
  | new .. => .new
  | instanceOf .. => .instanceOf
  | memberReference .. => .memberReference
  | methodCall .. => .methodCall
  | lambda .. => .lambda
  | astPath .. => .astPath
  | inStaticInit .. => .inStaticInit
  | inInstanceInit .. => .inInstanceInit
  | inFieldInit .. => .inFieldInit
  | intersectionType .. => .intersectionType

/-- The whole type. -/
def outerType : Criterion := atLocation TypePath.root

/-- A word with arguments in parentheses. -/
def call (word : String) (arguments : List String) : String :=
  word ++ "(" ++ String.intercalate ", " arguments ++ ")"

/-- **The written form of a criterion.** -/
def text : Criterion → String
  | packageDecl package => call "packageDecl" [package]
  | inClass className true => call "inClass" [className, "exact"]
  | inClass className false => call "inClass" [className]
  | isClass className => call "is" ["CLASS", className]
  | classBound className bound => call "classBound" [className, bound.text]
  | atLocation path => call "atLocation" [path.text]
  | supertype className index => call "extImpls" [className, index.text]
  | field name true => call "field" [name, "declaration"]
  | field name false => call "field" [name]
  | inMethod method => call "inMethod" [method]
  | receiver method => call "receiver" [method]
  | returnType className method => call "returnType" [className, method]
  | methodBound method bound => call "methodBound" [method, bound.text]
  | parameter method index => call "param" [method, index.toNat.repr]
  | localVariable method location => call "local" [method, location.text]
  | cast method location => call "cast" [method, location.text]
  | new method location => call "new" [method, location.text]
  | instanceOf method location => call "instanceOf" [method, location.text]
  | memberReference method location => call "memberReference" [method, location.text]
  | methodCall method location => call "methodCall" [method, location.text]
  | lambda method location => call "lambda" [method, location.text]
  | astPath path => call "astPath" [path.text]
  | inStaticInit block => call "inStaticInit" [block.toNat.repr]
  | inInstanceInit block => call "inInstanceInit" [block.toNat.repr]
  | inFieldInit fieldName => call "inFieldInit" [fieldName]
  | intersectionType location => call "intersectionTypeLocation" [location.text]

/-- Several criteria in brackets. -/
def listText (cs : List Criterion) : String :=
  "[" ++ String.intercalate ", " (cs.map text) ++ "]"

end Criterion

end AnnotationPlan
