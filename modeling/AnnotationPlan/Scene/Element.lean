import AnnotationPlan.Scene.Basic

/-!
# Elements of a scene, and building scenes

Scenes are not only loaded; they are also built element by element. An `Element` is any
part of a scene that has parts or annotations of its own, and a `Segment` is one step
from an element to one of its members. A member that is not there yet is taken to be
empty, and is there once the element has been put back (`Element.modifyAt?`). So
going to a place creates everything on the way there.

An annotation use is added to an element only once; a package takes it every time.
-/

namespace AnnotationPlan

/-- **A part of a scene.** -/
inductive Element where
  /-- The scene itself. -/
  | scene (s : Scene)
  /-- A package. -/
  | package (p : PackageElement)
  /-- A class. -/
  | classDeclaration (c : ClassElement)
  /-- A method or a lambda. -/
  | method (m : MethodElement)
  /-- A field, a parameter or a local variable. -/
  | variableDeclaration (v : VariableElement)
  /-- A block of code. -/
  | block (b : BlockElement)
  /-- The expressions of a block. -/
  | expressions (e : ExpressionElement)
  /-- A type, or a position within one. -/
  | type (t : TypeElement)
  /-- A cast to be inserted. -/
  | cast (c : CastElement)

/-- **A step from an element to a member of it.** -/
inductive Segment where
  /-- A package of a scene. -/
  | package (name : String)
  /-- A class of a scene. -/
  | classDeclaration (name : String)
  /-- A bound of a type parameter of a class or method. -/
  | bound (location : BoundLocation)
  /-- A supertype of a class. -/
  | supertype (location : SupertypeLocation)
  /-- A field of a class. -/
  | field (name : String)
  /-- A method of a class. -/
  | method (name : String)
  /-- An initializer of a class. -/
  | staticInit (block : UInt32)
  /-- An initializer of objects. -/
  | instanceInit (block : UInt32)
  /-- The initial value of a field. -/
  | fieldInit (name : String)
  /-- The receiver of a method. -/
  | receiver
  /-- The result type of a method. -/
  | returnType
  /-- A parameter of a method. -/
  | parameter (index : UInt32)
  /-- The code of a method. -/
  | body
  /-- An annotated place in a syntax tree. -/
  | annotatedPlace (path : AstPath)
  /-- A place in a syntax tree where a cast is to be inserted; the type is used if there
  is no cast yet. -/
  | castPlace (path : AstPath) (type : JavaType)
  /-- The type of a variable. -/
  | variableType
  /-- A local variable of a block. -/
  | localVariable (location : LocalLocation)
  /-- The expressions of a block. -/
  | expressions
  /-- A cast. -/
  | cast (location : RelativeLocation)
  /-- The creation of an object or array. -/
  | new (location : RelativeLocation)
  /-- A type test. -/
  | instanceOf (location : RelativeLocation)
  /-- A reference to a method. -/
  | memberReference (location : RelativeLocation)
  /-- A call of a method. -/
  | call (location : RelativeLocation)
  /-- A lambda. -/
  | lambda (location : RelativeLocation)
  /-- A position within a type. -/
  | inner (path : TypePath)

namespace Element

/-- What the kind of an element is called. -/
def kindName : Element → String
  | scene _ => "scene"
  | package _ => "package"
  | classDeclaration _ => "class"
  | method _ => "method"
  | variableDeclaration _ => "field"
  | block _ => "block"
  | expressions _ => "expressions"
  | type _ => "type-use"
  | cast _ => "type-use-with-type"

/-- The annotations on an element itself. -/
def annotations : Element → List AnnotationUse
  | package p => p.annotations
  | classDeclaration c => c.annotations
  | method m => m.annotations
  | variableDeclaration v => v.annotations
  | type t => t.annotations
  | cast c => c.annotations
  | _ => []

/-- The type to cast to. -/
def castType? : Element → Option JavaType
  | cast c => some c.type
  | _ => none

/-- The positions within a type. -/
def inner? : Element → Option (List (TypePath × TypeElement))
  | type t => some t.inner
  | cast c => some c.inner
  | _ => none

/-- **Add an annotation use to an element.** -/
def annotate (u : AnnotationUse) : Element → Element
  | package p => package { p with annotations := p.annotations ++ [u] }
  | classDeclaration c =>
    classDeclaration { c with annotations := AnnotationUse.addTo c.annotations u }
  | method m => method { m with annotations := AnnotationUse.addTo m.annotations u }
  | variableDeclaration v =>
    variableDeclaration { v with annotations := AnnotationUse.addTo v.annotations u }
  | type t => type { t with annotations := AnnotationUse.addTo t.annotations u }
  | cast c => cast { c with annotations := AnnotationUse.addTo c.annotations u }
  | e => e

/-! ## Members -/

/-- A member, and how the element is put together again from it. -/
abbrev Member : Type := Element × (Element → Element)

/-- A type that is a member. -/
def typeMember (t : TypeElement) (put : TypeElement → Element) (whole : Element) : Member :=
  (.type t, fun e =>
    match e with
    | .type t => put t
    | _ => whole)

/-- A variable that is a member. -/
def variableMember (v : VariableElement) (put : VariableElement → Element) (whole : Element) :
    Member :=
  (.variableDeclaration v, fun e =>
    match e with
    | .variableDeclaration v => put v
    | _ => whole)

/-- A block that is a member. -/
def blockMember (b : BlockElement) (put : BlockElement → Element) (whole : Element) : Member :=
  (.block b, fun e =>
    match e with
    | .block b => put b
    | _ => whole)

/-- Expressions that are a member. -/
def expressionsMember (x : ExpressionElement) (put : ExpressionElement → Element)
    (whole : Element) : Member :=
  (.expressions x, fun e =>
    match e with
    | .expressions x => put x
    | _ => whole)

/-- A method that is a member. -/
def methodMember (m : MethodElement) (put : MethodElement → Element) (whole : Element) : Member :=
  (.method m, fun e =>
    match e with
    | .method m => put m
    | _ => whole)

/-- The members of what goes into a syntax tree. -/
def insertionMember? (i : AstInsertions) (put : AstInsertions → Element) (whole : Element) :
    Segment → Option Member
  | .annotatedPlace path =>
    some (typeMember ((i.annotations.find? path).getD default)
      (fun t => put { i with annotations := i.annotations.insert path t }) whole)
  | .castPlace path castType =>
    some (.cast ((i.casts.find? path).getD ⟨[], [], castType⟩), fun e =>
      match e with
      | .cast c => put { i with casts := i.casts.insert path c }
      | _ => whole)
  | _ => none

/-- The members of a scene. -/
def sceneMember? (s : Scene) : Segment → Option Member
  | .package name =>
    some (.package ((s.packages.find? name).getD default), fun e =>
      match e with
      | .package p => .scene { s with packages := s.packages.insert name p }
      | _ => .scene s)
  | .classDeclaration name =>
    some (.classDeclaration ((s.classes.find? name).getD default), fun e =>
      match e with
      | .classDeclaration c => .scene { s with classes := s.classes.insert name c }
      | _ => .scene s)
  | _ => none

/-- The members of a class. -/
def classMember? (c : ClassElement) : Segment → Option Member
  | .bound l =>
    some (typeMember ((c.bounds.find? l).getD default)
      (fun t => .classDeclaration { c with bounds := c.bounds.insert l t }) (.classDeclaration c))
  | .supertype l =>
    some (typeMember ((c.supertypes.find? l).getD default)
      (fun t => .classDeclaration { c with supertypes := c.supertypes.insert l t })
      (.classDeclaration c))
  | .field name =>
    some (variableMember ((c.fields.find? name).getD default)
      (fun v => .classDeclaration { c with fields := c.fields.insert name v })
      (.classDeclaration c))
  | .method name =>
    some (methodMember ((c.methods.find? name).getD default)
      (fun m => .classDeclaration { c with methods := c.methods.insert name m })
      (.classDeclaration c))
  | .staticInit n =>
    some (blockMember ((c.staticInits.find? n).getD default)
      (fun b => .classDeclaration { c with staticInits := c.staticInits.insert n b })
      (.classDeclaration c))
  | .instanceInit n =>
    some (blockMember ((c.instanceInits.find? n).getD default)
      (fun b => .classDeclaration { c with instanceInits := c.instanceInits.insert n b })
      (.classDeclaration c))
  | .fieldInit name =>
    some (expressionsMember ((c.fieldInits.find? name).getD default)
      (fun x => .classDeclaration { c with fieldInits := c.fieldInits.insert name x })
      (.classDeclaration c))
  | segment =>
    insertionMember? c.insertions (fun i => .classDeclaration { c with insertions := i })
      (.classDeclaration c) segment

/-- The members of a method. -/
def methodMember? (m : MethodElement) : Segment → Option Member
  | .receiver =>
    some (typeMember m.receiver (fun t => .method { m with receiver := t }) (.method m))
  | .returnType =>
    some (typeMember m.returnType (fun t => .method { m with returnType := t }) (.method m))
  | .bound l =>
    some (typeMember ((m.bounds.find? l).getD default)
      (fun t => .method { m with bounds := m.bounds.insert l t }) (.method m))
  | .parameter n =>
    some (variableMember ((m.parameters.find? n).getD default)
      (fun v => .method { m with parameters := m.parameters.insert n v }) (.method m))
  | .body => some (blockMember m.body (fun b => .method { m with body := b }) (.method m))
  | segment =>
    insertionMember? m.insertions (fun i => .method { m with insertions := i }) (.method m) segment

/-- The members of a variable. -/
def variableMember? (v : VariableElement) : Segment → Option Member
  | .variableType =>
    some (typeMember v.type (fun t => .variableDeclaration { v with type := t })
      (.variableDeclaration v))
  | segment =>
    insertionMember? v.insertions (fun i => .variableDeclaration { v with insertions := i })
      (.variableDeclaration v) segment

/-- The members of a block. -/
def blockMember? (b : BlockElement) : Segment → Option Member
  | .localVariable l =>
    some (variableMember ((b.locals.find? l).getD default)
      (fun v => .block { b with locals := b.locals.insert l v }) (.block b))
  | .expressions =>
    some (expressionsMember b.expressions (fun x => .block { b with expressions := x }) (.block b))
  | _ => none

/-- The members of expressions. -/
def expressionMember? (x : ExpressionElement) : Segment → Option Member
  | .cast l =>
    some (typeMember ((x.casts.find? l).getD default)
      (fun t => .expressions { x with casts := x.casts.insert l t }) (.expressions x))
  | .new l =>
    some (typeMember ((x.news.find? l).getD default)
      (fun t => .expressions { x with news := x.news.insert l t }) (.expressions x))
  | .instanceOf l =>
    some (typeMember ((x.instanceOfs.find? l).getD default)
      (fun t => .expressions { x with instanceOfs := x.instanceOfs.insert l t }) (.expressions x))
  | .memberReference l =>
    some (typeMember ((x.memberReferences.find? l).getD default)
      (fun t => .expressions { x with memberReferences := x.memberReferences.insert l t })
      (.expressions x))
  | .call l =>
    some (typeMember ((x.calls.find? l).getD default)
      (fun t => .expressions { x with calls := x.calls.insert l t }) (.expressions x))
  | .lambda l =>
    some (methodMember ((Entries.find? l x.lambdas).getD default)
      (fun m => .expressions { x with lambdas := Entries.insert l m x.lambdas }) (.expressions x))
  | _ => none

/-- **The member of an element that a segment leads to**, and how the element is put
together again; nothing if elements of its kind have no such members. -/
def member? : Element → Segment → Option Member
  | scene s, segment => sceneMember? s segment
  | classDeclaration c, segment => classMember? c segment
  | method m, segment => methodMember? m segment
  | variableDeclaration v, segment => variableMember? v segment
  | block b, segment => blockMember? b segment
  | expressions x, segment => expressionMember? x segment
  | type t, .inner path =>
    some (typeMember ((Entries.find? path t.inner).getD default)
      (fun i => .type { t with inner := Entries.insert path i t.inner }) (.type t))
  | cast c, .inner path =>
    some (typeMember ((Entries.find? path c.inner).getD default)
      (fun i => .cast { c with inner := Entries.insert path i c.inner }) (.cast c))
  | _, _ => none

/-- The element at the end of a way. -/
def at? : List Segment → Element → Option Element
  | [], e => some e
  | segment :: rest, e => (e.member? segment).bind (fun m => at? rest m.1)

/-- **Change the element at the end of a way**, creating what is missing on the way. -/
def modifyAt? (f : Element → Element) : List Segment → Element → Option Element
  | [], e => some (f e)
  | segment :: rest, e =>
    (e.member? segment).bind (fun m => (modifyAt? f rest m.1).map m.2)

end Element

/-- A scene with one more definition. -/
def Scene.define (s : Scene) (d : Definition) : Scene :=
  { s with definitions := s.definitions.register d }

/-- **Change the element at the end of a way in a scene.** -/
def Scene.modifyAt? (s : Scene) (way : List Segment) (f : Element → Element) : Option Scene :=
  match Element.modifyAt? f way (.scene s) with
  | some (.scene s) => some s
  | _ => none

end AnnotationPlan
