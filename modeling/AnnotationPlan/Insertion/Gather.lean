import AnnotationPlan.Insertion.Store

/-!
# Insertions that gather several annotations

A cast, a receiver, the type of a created object and a constructor each take up all
annotations that go to their place. Here they are made, and here a constructor gets
its receiver and the annotations above it.

Every operation either answers with the new store or fails; nothing is changed by
an operation that fails.

A constructor has one receiver parameter. A second receiver is therefore merged
into the first: its annotations and the insertions within its type are added to
those of the first, unless they are there already (`Store.attachReceiver`).
-/

namespace AnnotationPlan.Store

/-- Add to a list what is not in it yet, one after another. -/
def addMissing {α : Type} [DecidableEq α] (xs ys : List α) : List α :=
  ys.foldl (fun acc y => if y ∈ acc then acc else acc ++ [y]) xs

/-- A type with an annotation, if there is one. -/
def annotated (text : Option String) (t : JavaType) : JavaType :=
  match text with
  | some a => t.annotate a
  | none => t

/-- **Write single annotations into the type of a cast**, each at the position that
its criteria name. -/
def decorate (s : Store) (criteria : CriteriaList) (whole : JavaType) :
    List InsertionId → JavaType → Except PlanError JavaType
  | [], t => .ok t
  | id :: rest, t =>
    match s.get? id with
    | some (.single text place _) =>
      match place.compose.typePath? with
      | none => .error (.invariant place.text "nested annotation without a type path")
      | some path =>
        match t.annotateAt? path text with
        | none => .error (.typePathMismatch path.text whole.text criteria.text)
        | some t => decorate s criteria whole rest t
    | _ =>
      .error (.invariant criteria.text ("nested insertion " ++ id.repr ++ " is not an annotation"))

/-- **Make a cast and its closing parenthesis.** The annotation goes on the whole
type; the insertions within go to their positions. Neither piece goes on a line of its own. -/
def pushCast (s : Store) (type : JavaType) (text : Option String) (inner : List InsertionId)
    (criteria : CriteriaList) : Except PlanError Store := do
  let decorated ← s.decorate criteria type inner (annotated text type)
  let separateLine := false
  pure ((s.push (.cast criteria decorated separateLine)).push
    (.closeParenthesis criteria separateLine))

/-- Make a receiver, possibly with its first annotation. -/
def pushReceiver (s : Store) (text : Option String) (criteria : CriteriaList)
    (inner : List InsertionId) : Store :=
  s.push (.receiver criteria (annotated text .unnamed) inner)

/-- Make the type of a created object, possibly with its first annotation. -/
def pushNew (s : Store) (text : Option String) (criteria : CriteriaList)
    (inner : List InsertionId) : Store :=
  s.push (.new criteria (annotated text .unnamed) inner)

/-- **Make a constructor** for the class that the criteria name. -/
def pushConstructor (s : Store) (criteria : CriteriaList) : Except PlanError Store :=
  match criteria.compose.className? with
  | some className => .ok (s.push (.constructor criteria (.named (Name.simple className)) none []))
  | none => .error (.invariant criteria.text "constructor criteria name no class")

/-- **Make a receiver the receiver of a constructor.** The second answer is the
receiver that the constructor has afterwards. -/
def attachReceiver (s : Store) (constructor receiver : InsertionId) :
    Except PlanError (Store × InsertionId) := do
  match ← s.lookup constructor with
  | .constructor criteria type none declarations =>
    pure (s.modify constructor (fun _ => .constructor criteria type (some receiver) declarations),
      receiver)
  | .constructor _ _ (some kept) _ =>
    if kept = receiver then pure (s, kept)
    else
      match ← s.lookup receiver with
      | .receiver _ type inner =>
        match s.get? kept with
        | some (.receiver keptCriteria keptType keptInner) =>
          pure (s.modify kept (fun _ => .receiver keptCriteria
            (keptType.withAnnotations (addMissing keptType.annotations type.annotations))
            (addMissing keptInner inner)), kept)
        | _ =>
          .error (.invariant CriteriaList.empty.text
            ("constructor receiver " ++ kept.repr ++ " is not a receiver"))
      | other =>
        .error (.invariant other.criteria.text
          ("insertion " ++ receiver.repr ++ " is not a receiver"))
  | other =>
    .error (.invariant other.criteria.text
      ("insertion " ++ constructor.repr ++ " is not a constructor"))

/-- **Add an insertion to the annotations above a constructor.** -/
def attachDeclaration (s : Store) (constructor declaration : InsertionId) :
    Except PlanError Store := do
  match ← s.lookup constructor with
  | .constructor criteria type receiver declarations =>
    pure (s.modify constructor
      (fun _ => .constructor criteria type receiver (declarations ++ [declaration])))
  | other =>
    .error (.invariant other.criteria.text
      ("insertion " ++ constructor.repr ++ " is not a constructor"))

end AnnotationPlan.Store
