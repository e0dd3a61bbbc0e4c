import AnnotationPlan.AnnotationUse.Load
import AnnotationPlan.JavaType.Json
import AnnotationPlan.Scene.Basic

/-!
# Scenes in JSON

A scene is written as a structure of structures and maps. Every field of every
structure may be missing, except for the name of a definition, the name of the
definition of an annotation use, and the type of a cast. The keys of the maps are
names, numbers or locations in their written form.
-/

namespace AnnotationPlan

namespace Retention

/-- The retentions by name. -/
def names : List (String × Retention) :=
  [("source", .source), ("class", .compiled), ("runtime", .runtime)]

end Retention

namespace Target

/-- The targets by name. -/
def names : List (String × Target) := [
  ("TYPE", .type), ("FIELD", .field), ("METHOD", .method), ("PARAMETER", .parameter),
  ("CONSTRUCTOR", .constructor), ("LOCAL_VARIABLE", .localVariable),
  ("ANNOTATION_TYPE", .annotationType), ("PACKAGE", .package),
  ("TYPE_PARAMETER", .typeParameter), ("TYPE_USE", .typeUse), ("MODULE", .module),
  ("RECORD_COMPONENT", .recordComponent)]

end Target

/-- Load a field type. -/
def FieldType.load : Load.Loader FieldType := fun s => do
  match FieldType.parse (← Load.text s) with
  | .ok t => .ok t
  | .error e => .error (.fieldType e)

/-- Load a definition. -/
def Definition.load : Load.Loader Definition :=
  Load.record [
    Load.requiredField "name" Load.text (fun d name => { d with name }),
    Load.field "retention" (Load.choice Retention.names) (fun d retention => { d with retention }),
    Load.field "fields" (Load.map Load.textKey FieldType.load)
      (fun d fields => { d with fields }),
    Load.field "targets" (Load.nullable (Load.list (Load.choice Target.names)))
      (fun d targets => { d with targets })] { name := "" }

/-- Load a definition table, written as the list of its definitions. -/
def DefinitionTable.load : Load.Loader DefinitionTable := fun s =>
  (Load.list Definition.load s).map DefinitionTable.ofList

/-- A list of annotation uses. -/
def loadAnnotations : Load.Loader (List AnnotationUse) := Load.list AnnotationUse.load

/-- Load a type with at most the given number of positions around one another. -/
def TypeElement.loadWithin : Nat → Load.Loader TypeElement
  | 0 => fun _ => .error .malformed
  | n + 1 => Load.record [
      Load.field "annotations" loadAnnotations (fun t annotations => { t with annotations }),
      Load.field "inner_types" (Load.pairs (Load.locationKey TypePath.parse) (loadWithin n))
        (fun t inner => { t with inner := Entries.ofList inner })] default

/-- Load a type. -/
def TypeElement.load : Load.Loader TypeElement := loadWithin Source.depthLimit

/-- Load a place where a cast is to be inserted. -/
def CastElement.load : Load.Loader CastElement :=
  Load.record [
    Load.field "annotations" loadAnnotations (fun c annotations => { c with annotations }),
    Load.field "inner_types" (Load.pairs (Load.locationKey TypePath.parse) TypeElement.load)
      (fun c inner => { c with inner := Entries.ofList inner }),
    Load.requiredField "type" JavaType.load (fun c type => { c with type })] default

namespace AstInsertions

/-- Annotated places in a syntax tree. -/
def loadAnnotations : Load.Loader (OrderedMap AstPath TypeElement) :=
  Load.map (Load.locationKey AstPath.parse) TypeElement.load

/-- Places in a syntax tree where casts are to be inserted. -/
def loadCasts : Load.Loader (OrderedMap AstPath CastElement) :=
  Load.map (Load.locationKey AstPath.parse) CastElement.load

end AstInsertions

/-- Load a field, a parameter or a local variable. -/
def VariableElement.load : Load.Loader VariableElement :=
  Load.record [
    Load.field "annotations" loadAnnotations (fun v annotations => { v with annotations }),
    Load.field "type" TypeElement.load (fun v type => { v with type }),
    Load.field "insert_annotations" AstInsertions.loadAnnotations
      (fun v annotations => { v with insertions := { v.insertions with annotations } }),
    Load.field "insert_typecasts" AstInsertions.loadCasts
      (fun v casts => { v with insertions := { v.insertions with casts } })] default

/-- Types by the places of expressions. -/
def loadExpressionTypes : Load.Loader (OrderedMap RelativeLocation TypeElement) :=
  Load.map (Load.locationKey RelativeLocation.parse) TypeElement.load

/-- Load expressions, the lambdas among them being loaded as given. -/
def ExpressionElement.loadWith (lambda : Load.Loader MethodElement) :
    Load.Loader ExpressionElement :=
  Load.record [
    Load.field "typecasts" loadExpressionTypes (fun e casts => { e with casts }),
    Load.field "news" loadExpressionTypes (fun e news => { e with news }),
    Load.field "instanceofs" loadExpressionTypes (fun e instanceOfs => { e with instanceOfs }),
    Load.field "member_refs" loadExpressionTypes
      (fun e memberReferences => { e with memberReferences }),
    Load.field "calls" loadExpressionTypes (fun e calls => { e with calls }),
    Load.field "lambdas" (Load.pairs (Load.locationKey RelativeLocation.parse) lambda)
      (fun e lambdas => { e with lambdas := Entries.ofList lambdas })] default

/-- Load a block, the lambdas in it being loaded as given. -/
def BlockElement.loadWith (lambda : Load.Loader MethodElement) : Load.Loader BlockElement :=
  Load.record [
    Load.field "locals" (Load.map (Load.locationKey LocalLocation.parse) VariableElement.load)
      (fun b locals => { b with locals }),
    Load.field "expressions" (ExpressionElement.loadWith lambda)
      (fun b expressions => { b with expressions })] default

/-- Bounds of type parameters. -/
def loadBounds : Load.Loader (OrderedMap BoundLocation TypeElement) :=
  Load.map (Load.locationKey BoundLocation.parse) TypeElement.load

/-- Load a method with at most the given number of methods around one another. -/
def MethodElement.loadWithin : Nat → Load.Loader MethodElement
  | 0 => fun _ => .error .malformed
  | n + 1 => Load.record [
      Load.field "annotations" loadAnnotations (fun m annotations => { m with annotations }),
      Load.field "receiver" TypeElement.load (fun m receiver => { m with receiver }),
      Load.field "return_type" TypeElement.load (fun m returnType => { m with returnType }),
      Load.field "bounds" loadBounds (fun m bounds => { m with bounds }),
      Load.field "parameters" (Load.map Load.numberKey VariableElement.load)
        (fun m parameters => { m with parameters }),
      Load.field "insert_annotations" AstInsertions.loadAnnotations
        (fun m annotations => { m with insertions := { m.insertions with annotations } }),
      Load.field "insert_typecasts" AstInsertions.loadCasts
        (fun m casts => { m with insertions := { m.insertions with casts } }),
      Load.field "body" (BlockElement.loadWith (loadWithin n))
        (fun m body => { m with body })] default

/-- Load a method. -/
def MethodElement.load : Load.Loader MethodElement := loadWithin Source.depthLimit

/-- Load a class. -/
def ClassElement.load : Load.Loader ClassElement :=
  let blocks := Load.map Load.numberKey (BlockElement.loadWith MethodElement.load)
  Load.record [
    Load.field "annotations" loadAnnotations (fun c annotations => { c with annotations }),
    Load.field "bounds" loadBounds (fun c bounds => { c with bounds }),
    Load.field "extends_implements"
      (Load.map (Load.locationKey SupertypeLocation.parse) TypeElement.load)
      (fun c supertypes => { c with supertypes }),
    Load.field "insert_annotations" AstInsertions.loadAnnotations
      (fun c annotations => { c with insertions := { c.insertions with annotations } }),
    Load.field "insert_typecasts" AstInsertions.loadCasts
      (fun c casts => { c with insertions := { c.insertions with casts } }),
    Load.field "fields" (Load.map Load.textKey VariableElement.load)
      (fun c fields => { c with fields }),
    Load.field "methods" (Load.map Load.textKey MethodElement.load)
      (fun c methods => { c with methods }),
    Load.field "static_inits" blocks (fun c staticInits => { c with staticInits }),
    Load.field "instance_inits" blocks (fun c instanceInits => { c with instanceInits }),
    Load.field "field_inits"
      (Load.map Load.textKey (ExpressionElement.loadWith MethodElement.load))
      (fun c fieldInits => { c with fieldInits })] default

/-- Load a package. -/
def PackageElement.load : Load.Loader PackageElement :=
  Load.record [
    Load.field "annotations" loadAnnotations (fun p annotations => { p with annotations })] default

/-- **Load a scene.** -/
def Scene.load : Load.Loader Scene :=
  Load.record [
    Load.field "annotation_defs" DefinitionTable.load (fun s definitions => { s with definitions }),
    Load.field "packages" (Load.map Load.textKey PackageElement.load)
      (fun s packages => { s with packages }),
    Load.field "classes" (Load.map Load.textKey ClassElement.load)
      (fun s classes => { s with classes })] default

/-- **A scene from its text.** -/
def Scene.ofText (s : String) : Except LoadError Scene := Load.ofText Scene.load s

end AnnotationPlan
