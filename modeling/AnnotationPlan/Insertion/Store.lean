import AnnotationPlan.AnnotationUse.Basic
import AnnotationPlan.Criteria.Basic
import AnnotationPlan.Error
import AnnotationPlan.JavaType.Basic
import AnnotationPlan.Text.Names

/-!
# Insertions and the store of them

An **insertion** is a piece of source text and the place where it goes. Most are
single annotations. Some gather all annotations that go to one place: the opening
of a cast (with a parenthesis that closes it elsewhere), a receiver parameter, the
type of a created object, and a constructor that a class had without declaring it.

Insertions refer to one another – a constructor to its receiver and to the
annotations above it, a receiver to the annotations within its type – so they are
kept in a **store**, where each has a number. The store only grows, and the numbers
are given in order.

The text of an insertion includes the texts of those it refers to
(`Store.render`). Nothing keeps a store from having insertions that refer to one
another in a circle; these have no text.
-/

namespace AnnotationPlan

/-- The number of an insertion in its store. It is a natural number, though elsewhere numbers of
insertions are kept in 32 bits: a store is assumed to hold fewer than `2 ^ 32` insertions, so that
no two of them would get one number. -/
abbrev InsertionId : Type := Nat

/-- **A piece of source text to insert**, and where. -/
inductive Insertion where
  /-- A single annotation; on a line of its own if it belongs to a declaration. -/
  | single (text : String) (criteria : CriteriaList) (separateLine : Bool)
  /-- The opening of a cast, and whether it goes on a line of its own. -/
  | cast (criteria : CriteriaList) (type : JavaType) (separateLine : Bool)
  /-- The parenthesis that closes a cast, and whether it goes on a line of its own. -/
  | closeParenthesis (criteria : CriteriaList) (separateLine : Bool)
  /-- A receiver parameter, with the annotations within its type. -/
  | receiver (criteria : CriteriaList) (type : JavaType) (inner : List InsertionId)
  /-- The annotations on the type of a created object or array, and within it. -/
  | new (criteria : CriteriaList) (type : JavaType) (inner : List InsertionId)
  /-- A constructor without parameters, with its receiver and the annotations above
  it. -/
  | constructor (criteria : CriteriaList) (type : JavaType) (receiver : Option InsertionId)
      (declarations : List InsertionId)

namespace Insertion

/-- What an insertion is called. -/
def kindName : Insertion → String
  | single .. => "annotation"
  | cast .. => "cast"
  | closeParenthesis .. => "close_parenthesis"
  | receiver .. => "receiver"
  | new .. => "new"
  | constructor .. => "constructor"

/-- Where it goes. -/
def criteria : Insertion → CriteriaList
  | single _ criteria _ => criteria
  | cast criteria _ _ => criteria
  | closeParenthesis criteria _ => criteria
  | receiver criteria _ _ => criteria
  | new criteria _ _ => criteria
  | constructor criteria _ _ _ => criteria

/-- Whether it goes on a line of its own. -/
def separateLine : Insertion → Bool
  | single _ _ separateLine => separateLine
  | cast _ _ separateLine => separateLine
  | closeParenthesis _ separateLine => separateLine
  | receiver .. => false
  | new .. => false
  | constructor .. => true

/-- The type that it writes. -/
def type? : Insertion → Option JavaType
  | single .. => none
  | cast _ type _ => some type
  | closeParenthesis .. => none
  | receiver _ type _ => some type
  | new _ type _ => some type
  | constructor _ type _ _ => some type

/-- The same insertion with a changed type. -/
def mapType (f : JavaType → JavaType) : Insertion → Insertion
  | single text criteria separateLine => single text criteria separateLine
  | cast criteria type separateLine => cast criteria (f type) separateLine
  | closeParenthesis criteria separateLine => closeParenthesis criteria separateLine
  | receiver criteria type inner => receiver criteria (f type) inner
  | new criteria type inner => new criteria (f type) inner
  | constructor criteria type parameter above => constructor criteria (f type) parameter above

/-- The insertions within the type of a receiver or of a created object. -/
def inner : Insertion → List InsertionId
  | receiver _ _ inner => inner
  | new _ _ inner => inner
  | _ => []

/-- The receiver of a constructor. -/
def receiver? : Insertion → Option InsertionId
  | constructor _ _ parameter _ => parameter
  | _ => none

/-- The annotations above a constructor. -/
def declarations : Insertion → List InsertionId
  | constructor _ _ _ declarations => declarations
  | _ => []

end Insertion

/-- **The insertions made so far.** -/
structure Store where
  /-- The insertions in the order of their numbers. -/
  insertions : Array Insertion

namespace Store

/-- The store without insertions. -/
def empty : Store := ⟨#[]⟩

instance : Inhabited Store := ⟨empty⟩

/-- The number of insertions. -/
def size (s : Store) : Nat := s.insertions.size

/-- The insertion with a number. -/
def get? (s : Store) (id : InsertionId) : Option Insertion := s.insertions[id]?

/-- Add an insertion, which gets the next number. -/
def push (s : Store) (i : Insertion) : Store := ⟨s.insertions.push i⟩

/-- Change the insertion with a number. -/
def modify (s : Store) (id : InsertionId) (f : Insertion → Insertion) : Store :=
  ⟨s.insertions.modify id f⟩

/-- The numbers of the insertions, each with its insertion. -/
def toList (s : Store) : List (InsertionId × Insertion) :=
  s.insertions.toList.mapIdx (fun id i => (id, i))

/-- The error for a number that no insertion has. -/
def missing (id : InsertionId) : PlanError :=
  .invariant CriteriaList.empty.text ("no insertion with id " ++ id.repr)

/-- The insertion with a number, or else an error. -/
def lookup (s : Store) (id : InsertionId) : Except PlanError Insertion :=
  match s.get? id with
  | some i => .ok i
  | none => .error (missing id)

/-- **Add the text of an annotation to the type of an insertion.** -/
def addTypeAnnotation (s : Store) (id : InsertionId) (text : String) : Except PlanError Store := do
  let i ← s.lookup id
  match i.type? with
  | some _ => pure (s.modify id (Insertion.mapType (JavaType.annotate text)))
  | none =>
    .error (.invariant i.criteria.text
      ("cannot add a type annotation to a " ++ i.kindName ++ " insertion"))

/-! ## Texts -/

/-- The text of a receiver parameter of a class. -/
def receiverText (annotations className : String) : String :=
  if annotations = "" then Name.simple className ++ " this"
  else annotations ++ " " ++ Name.simple className ++ " this"

/-- The text of an insertion that refers to others over at most the given number of
steps. -/
def renderWithin (s : Store) : Nat → InsertionId → Except PlanError String
  | 0, id =>
    .error (.invariant CriteriaList.empty.text ("insertion " ++ id.repr ++ " contains itself"))
  | n + 1, id => do
    match ← s.lookup id with
    | .single text _ _ => pure text
    | .cast _ type _ => pure ("((" ++ type.text ++ ") ")
    | .closeParenthesis .. => pure ")"
    | .receiver criteria type _ =>
      match criteria.compose.className? with
      | some className => pure (receiverText type.text className)
      | none => .error (.invariant criteria.text "receiver outside of a class")
    | .new _ type _ => pure type.text
    | .constructor _ type receiver declarations =>
      let above ← declarations.mapM (s.renderWithin n)
      let parameter ← match receiver with
        | some r => s.renderWithin n r
        | none => pure ""
      pure (String.join (above.map (· ++ "\n"))
        ++ "public " ++ type.text ++ "(" ++ parameter ++ ") \x7b super(); \x7d")

/-- **The text of an insertion.** Insertions that refer to one another without a
circle do so over fewer steps than there are insertions. -/
def render (s : Store) (id : InsertionId) : Except PlanError String :=
  s.renderWithin (s.size + 1) id

end Store

/-- **Where insertions come from**: for each the annotation uses that went into it,
each once. -/
structure Sources where
  /-- The uses by insertion, in the order in which insertions first got one. -/
  byInsertion : OrderedMap InsertionId (List AnnotationUse)

namespace Sources

/-- No sources. -/
def empty : Sources := ⟨.empty⟩

instance : Inhabited Sources := ⟨empty⟩

/-- Record that an annotation use went into an insertion. -/
def put (s : Sources) (id : InsertionId) (u : AnnotationUse) : Sources :=
  ⟨s.byInsertion.alter id (fun uses => AnnotationUse.addTo (uses.getD []) u)⟩

/-- The annotation uses that went into an insertion. -/
def get (s : Sources) (id : InsertionId) : List AnnotationUse :=
  (s.byInsertion.find? id).getD []

end Sources

end AnnotationPlan
