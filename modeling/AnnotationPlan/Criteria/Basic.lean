import AnnotationPlan.Criteria.Criterion
import AnnotationPlan.OrderedMap

/-!
# Lists of criteria, and what they mean together

On the way down a scene every level adds one criterion, so the place of an
insertion is a **criteria list**, from the widest criterion to the narrowest. Where
two of them are of one kind the later one counts: a class inside another class, a
position inside another position. Composing a list keeps for every kind its last
criterion, at the place of the first (`CriteriaList.compose`).

The composed `Criteria` answer the questions that decide what is inserted: whether
the place lies within a type, on a receiver, on a created object, or in the
constructor that a class has without declaring it. Each question reads one or two
kinds only.
-/

namespace AnnotationPlan

/-- **The criteria for a place.** A place is narrowed again and again, each time in
several ways, and all the narrower places share the criteria of the wider one. So the
criteria are held the narrowest first, and are counted as they are added. -/
structure CriteriaList where
  /-- The criteria, from the narrowest to the widest. -/
  narrowestFirst : List Criterion
  /-- The number of criteria. -/
  length : Nat
  /-- Every criterion is counted. -/
  counted : length = narrowestFirst.length

namespace CriteriaList

/-- The list that does not narrow the place. -/
def empty : CriteriaList := ⟨[], 0, rfl⟩

instance : Inhabited CriteriaList := ⟨empty⟩

/-- **Narrow the place** by one more criterion. -/
def add (l : CriteriaList) (c : Criterion) : CriteriaList :=
  ⟨c :: l.narrowestFirst, l.length + 1, congrArg (· + 1) l.counted⟩

/-- The list of criteria that are added one after another. -/
def ofList (cs : List Criterion) : CriteriaList := cs.foldl add empty

/-- **The criteria in the order in which they were added**, from the widest to the
narrowest. -/
def toList (l : CriteriaList) : List Criterion := l.narrowestFirst.reverse

/-- Whether there are no criteria. -/
def isEmpty (l : CriteriaList) : Bool := l.length == 0

@[simp] theorem toList_empty : empty.toList = [] := rfl

/-- A criterion is added at the end. -/
@[simp] theorem toList_add (l : CriteriaList) (c : Criterion) :
    (l.add c).toList = l.toList ++ [c] := List.reverse_cons

/-- **Two lists are one** if they are of one length and have the same criteria. -/
theorem eq_iff {l m : CriteriaList} : l = m ↔ l.length = m.length ∧ l.toList = m.toList := by
  obtain ⟨cs, n, hn⟩ := l
  obtain ⟨ds, k, hk⟩ := m
  simp [toList, and_comm]

instance : DecidableEq CriteriaList := fun l m =>
  decidable_of_iff (l.length = m.length ∧ l.toList = m.toList) eq_iff.symm

/-- The written form. -/
def text (l : CriteriaList) : String := Criterion.listText l.toList

end CriteriaList

/-- **What criteria mean together**: for every kind at most one criterion. -/
structure Criteria where
  /-- The criteria by kind, in the order in which the kinds first occurred. -/
  byKind : OrderedMap CriterionKind Criterion
deriving DecidableEq

/-- The method that is the constructor without parameters. -/
def implicitConstructor : String := "<init>()V"

namespace Criteria

/-- No criteria. -/
def empty : Criteria := ⟨.empty⟩

/-- Add a criterion. One of the same kind is replaced in its place. -/
def add (cs : Criteria) (c : Criterion) : Criteria := ⟨cs.byKind.insert c.kind c⟩

/-- The criterion of a kind. -/
def get? (cs : Criteria) (k : CriterionKind) : Option Criterion := cs.byKind.find? k

/-- The criteria in order. -/
def toList (cs : Criteria) : List Criterion := cs.byKind.values

/-- The number of criteria. -/
def length (cs : Criteria) : Nat := cs.byKind.size

/-- Whether there are no criteria. -/
def isEmpty (cs : Criteria) : Bool := cs.byKind.isEmpty

/-- The written form. -/
def text (cs : Criteria) : String := Criterion.listText cs.toList

/-! ## Questions -/

/-- **The class** that the place is in, or else that it is. -/
def className? (cs : Criteria) : Option String :=
  match cs.get? .inClass with
  | some (.inClass className _) => some className
  | _ =>
    match cs.get? .isClass with
    | some (.isClass className) => some className
    | _ => none

/-- Whether the place is in a class or is one. -/
def isInClass (cs : Criteria) : Bool := cs.className?.isSome

/-- The method that the place is in. -/
def method? (cs : Criteria) : Option String :=
  match cs.get? .inMethod with
  | some (.inMethod method) => some method
  | _ => none

/-- The package that the place is the declaration of. -/
def package? (cs : Criteria) : Option String :=
  match cs.get? .packageDecl with
  | some (.packageDecl package) => some package
  | _ => none

/-- The path in the syntax tree. -/
def astPath? (cs : Criteria) : Option AstPath :=
  match cs.get? .astPath with
  | some (.astPath path) => some path
  | _ => none

/-- The path into a type. -/
def typePath? (cs : Criteria) : Option TypePath :=
  match cs.get? .atLocation with
  | some (.atLocation path) => some path
  | _ => none

/-- The place of a cast. -/
def cast? (cs : Criteria) : Option RelativeLocation :=
  match cs.get? .cast with
  | some (.cast _ location) => some location
  | _ => none

/-- Whether the place is on a receiver. -/
def isOnReceiver (cs : Criteria) : Bool := (cs.get? .receiver).isSome

/-- Whether the place is on the creation of an object or array. -/
def isOnNew (cs : Criteria) : Bool := (cs.get? .new).isSome

/-- Whether the place is on the result type of a method. -/
def isOnReturnType (cs : Criteria) : Bool := (cs.get? .returnType).isSome

/-- **Whether the place is within a type** and not the whole of it. -/
def hasTypePath (cs : Criteria) : Bool :=
  match cs.typePath? with
  | some p => !p.isEmpty
  | none => false

/-- **Whether the place is a receiver parameter.** A path in the syntax tree decides
alone: it must end at a parameter with a negative number or none. -/
def targetsReceiver (cs : Criteria) : Bool :=
  match cs.astPath? with
  | none => cs.isOnReceiver
  | some path =>
    match path.last? with
    | none => false
    | some e =>
      e.selector == AstEntry.parameter
        && (match e.argument with
          | none => true
          | some n => decide (n < 0))

/-- **Whether the place is the type of a created object or array.** A path in the
syntax tree decides alone, if it has an entry. -/
def targetsNew (cs : Criteria) : Bool :=
  match cs.astPath?.bind AstPath.last? with
  | none => cs.isOnNew
  | some e =>
    (e.kind == TreeKind.newArray && e.selector == AstEntry.type && e.argument == some 0)
      || (e.kind == TreeKind.newClass && e.selector == AstEntry.identifier)

/-- **Whether the place is in the constructor without parameters.** -/
def targetsImplicitConstructor (cs : Criteria) : Bool :=
  cs.method? == some implicitConstructor

end Criteria

/-- **Compose a list**: for every kind its last criterion, in the place of its
first. -/
def CriteriaList.compose (l : CriteriaList) : Criteria :=
  l.toList.foldl Criteria.add Criteria.empty

end AnnotationPlan
