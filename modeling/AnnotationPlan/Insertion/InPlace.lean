import AnnotationPlan.Insertion.Gather

/-!
# Working on a store in place

The operations on insertions share one store and work on it **in place**: they look insertions
up, and change them where they are. Each step sees what the steps before it have written, and
what has been written stays, also when a later step fails. That an operation which fails leaves
the store as it was is therefore no matter of course. It has to make sure of everything before
it writes anything.

An `Edit` is such a sequence of steps. It ends with an answer or an error, and either way with a
store (`Edit.on`). An `Operation` is one call with its arguments: any numbers may be given to it,
of insertions of any kind or of none.
-/

namespace AnnotationPlan

namespace Insertion

/-- A constructor with another receiver. -/
def withReceiver (id : InsertionId) : Insertion → Insertion
  | constructor criteria type _ declarations => constructor criteria type (some id) declarations
  | i => i

/-- A constructor with one more annotation above it. -/
def addDeclaration (id : InsertionId) : Insertion → Insertion
  | constructor criteria type parameter declarations =>
    constructor criteria type parameter (declarations ++ [id])
  | i => i

/-- The same insertion with an annotation on its type, unless it has it already. -/
def addText (text : String) (i : Insertion) : Insertion :=
  i.mapType (fun t => if text ∈ t.annotations then t else t.annotate text)

/-- A receiver with one more insertion within its type, unless it has it already. -/
def addInner (id : InsertionId) : Insertion → Insertion
  | receiver criteria type inner =>
    receiver criteria type (if id ∈ inner then inner else inner ++ [id])
  | i => i

end Insertion

/-- **Steps on a store in place.** What was written stays, whether or not a later step fails. -/
abbrev Edit (α : Type) : Type := ExceptT PlanError (StateM Store) α

namespace Edit

/-- **What comes of the steps on a store**: an answer or an error, and the store afterwards. -/
def on {α : Type} (m : Edit α) (s : Store) : Except PlanError α × Store := m.run s

/-- Look an insertion up. -/
def lookup (id : InsertionId) : Edit Insertion := do
  let s ← get
  s.lookup id

/-- Add an insertion and answer its number. -/
def push (i : Insertion) : Edit InsertionId := do
  let s ← get
  set (s.push i)
  pure s.size

/-- Change an insertion where it is. -/
def change (id : InsertionId) (f : Insertion → Insertion) : Edit Unit :=
  modify (fun s => s.modify id f)

/-- Look a constructor up. -/
def lookupConstructor (id : InsertionId) : Edit Insertion := do
  match ← lookup id with
  | .constructor criteria type receiver declarations =>
    pure (.constructor criteria type receiver declarations)
  | other =>
    throw (.invariant other.criteria.text ("insertion " ++ id.repr ++ " is not a constructor"))

/-- **Make a cast and its closing parenthesis.** The type is put together beside the store. -/
def pushCast (type : JavaType) (text : Option String) (inner : List InsertionId)
    (criteria : CriteriaList) : Edit (List InsertionId) := do
  let s ← get
  let decorated ← s.decorate criteria type inner (Store.annotated text type)
  let separateLine := false
  let opening ← push (.cast criteria decorated separateLine)
  let closing ← push (.closeParenthesis criteria separateLine)
  pure [opening, closing]

/-- **Make a constructor** for the class that the criteria name. -/
def pushConstructor (criteria : CriteriaList) : Edit InsertionId := do
  match criteria.compose.className? with
  | some className => push (.constructor criteria (.named (Name.simple className)) none [])
  | none => throw (.invariant criteria.text "constructor criteria name no class")

/-- **Add the text of an annotation to the type of an insertion.** -/
def annotate (id : InsertionId) (text : String) : Edit Unit := do
  let i ← lookup id
  match i.type? with
  | some _ => change id (Insertion.mapType (JavaType.annotate text))
  | none =>
    throw (.invariant i.criteria.text
      ("cannot add a type annotation to a " ++ i.kindName ++ " insertion"))

/-- Merge annotations and the insertions within a type into a receiver, one after another. -/
def mergeInto (kept : InsertionId) (type : JavaType) (inner : List InsertionId) : Edit Unit := do
  type.annotations.forM (fun text => change kept (Insertion.addText text))
  inner.forM (fun id => change kept (Insertion.addInner id))

/-- **Make a receiver the receiver of a constructor**, or merge it into the one that the
constructor has. Answers the receiver that the constructor has afterwards. -/
def attachReceiver (constructor receiver : InsertionId) : Edit InsertionId := do
  let found ← lookupConstructor constructor
  match found.receiver? with
  | none =>
    change constructor (Insertion.withReceiver receiver)
    pure receiver
  | some kept =>
    if kept = receiver then pure kept
    else
      match ← lookup receiver with
      | .receiver _ type inner =>
        match (← get).get? kept with
        | some (.receiver ..) =>
          mergeInto kept type inner
          pure kept
        | _ =>
          throw (.invariant CriteriaList.empty.text
            ("constructor receiver " ++ kept.repr ++ " is not a receiver"))
      | other =>
        throw (.invariant other.criteria.text
          ("insertion " ++ receiver.repr ++ " is not a receiver"))

/-- **Add an insertion to the annotations above a constructor.** -/
def attachDeclaration (constructor declaration : InsertionId) : Edit Unit := do
  let _ ← lookupConstructor constructor
  change constructor (Insertion.addDeclaration declaration)

end Edit

/-- **A call of an operation**, with its arguments. -/
inductive Operation where
  /-- Add a single annotation. -/
  | single (text : String) (criteria : CriteriaList) (separateLine : Bool)
  /-- Make a cast, with single annotations written into its type. -/
  | cast (type : JavaType) (text : Option String) (inner : List InsertionId)
      (criteria : CriteriaList)
  /-- Make a receiver. -/
  | receiver (text : Option String) (criteria : CriteriaList) (inner : List InsertionId)
  /-- Make the type of a created object. -/
  | new (text : Option String) (criteria : CriteriaList) (inner : List InsertionId)
  /-- Make a constructor. -/
  | constructor (criteria : CriteriaList)
  /-- Add an annotation to the type of an insertion. -/
  | annotate (id : InsertionId) (text : String)
  /-- Make a receiver that of a constructor. -/
  | attachReceiver (constructor receiver : InsertionId)
  /-- Add an insertion to those above a constructor. -/
  | attachDeclaration (constructor declaration : InsertionId)

namespace Operation

/-- **What an operation does.** It answers the numbers of the insertions that it made, and
attaching a receiver that of the receiver that is kept. -/
def perform : Operation → Edit (List InsertionId)
  | single text criteria separateLine => do
    pure [← Edit.push (.single text criteria separateLine)]
  | cast type text inner criteria => Edit.pushCast type text inner criteria
  | receiver text criteria inner => do
    pure [← Edit.push (.receiver criteria (Store.annotated text .unnamed) inner)]
  | new text criteria inner => do
    pure [← Edit.push (.new criteria (Store.annotated text .unnamed) inner)]
  | constructor criteria => do pure [← Edit.pushConstructor criteria]
  | annotate id text => do
    Edit.annotate id text
    pure []
  | attachReceiver c r => do pure [← Edit.attachReceiver c r]
  | attachDeclaration c id => do
    Edit.attachDeclaration c id
    pure []

/-- **The store after operations** one after another, whatever each of them answers. -/
def performAll (ops : List Operation) (s : Store) : Store :=
  ops.foldl (fun s op => (op.perform.on s).2) s

end Operation

end AnnotationPlan
