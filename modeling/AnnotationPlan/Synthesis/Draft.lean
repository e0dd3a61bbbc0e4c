import AnnotationPlan.AnnotationUse.Format
import AnnotationPlan.Insertion.Gather
import AnnotationPlan.Synthesis.Constructors
import AnnotationPlan.Synthesis.Site

/-!
# Turning sites into insertions

The sites of a scene are worked off one after another, and a `Draft` holds what has
come of them so far. What becomes of the annotations on a position depends on where
it is (`Form.classify`):

* on a receiver, and on the type of a created object or array, they are gathered in
  one insertion, provided that they are not within the type;
* where a cast is to be inserted they go into the type of the cast;
* everywhere else each of them is an insertion of its own.

The annotations within a type come first. They are insertions of their own, too –
except within a cast, where they are written into the cast and nowhere else. Whether
a type becomes a cast is known only when the type itself is worked off, so at places
in a syntax tree they are **withheld** until then.

Annotations on the constructor that a class has without declaring it need a
constructor to stand on. The first of them makes one, and it takes up
(`Draft.absorb`) the receiver, the annotations on its result, and those that belong
to its declaration; annotations on types remain where they are.
-/

namespace AnnotationPlan

/-- **An annotation as it will be written**, with what is known about it. -/
structure Note where
  /-- The source text. -/
  text : String
  /-- The names that have to be imported for it. -/
  imports : List String
  /-- Whether it stands on types only. -/
  typeOnly : Bool
  /-- The annotation use that it was made from. -/
  use : AnnotationUse

namespace Formatter

/-- Write an annotation use behind others, unless it is among them already. -/
def addNote (f : Formatter) (notes : List Note) (u : AnnotationUse) :
    Except PlanError (List Note) := do
  let written ← f.format u
  let d ← f.definition u
  if notes.any (fun n => n.text == written.text && n.use.same u) then pure notes
  else pure (notes ++ [⟨written.text, written.imports, d.isTypeOnly, u⟩])

/-- **Write the annotations on a position**, each once. -/
def notes (f : Formatter) (place : CriteriaList) (uses : List AnnotationUse) :
    Except PlanError (List Note) :=
  (uses.foldlM f.addNote []).mapError (PlanError.locate place.text)

end Formatter

/-- **What the annotations on a position become.** -/
inductive Form where
  /-- One receiver parameter. -/
  | receiver
  /-- The annotations on one created object. -/
  | new
  /-- One cast to a type. -/
  | cast (type : JavaType)
  /-- An insertion each. -/
  | single

/-- **The form of a position**, from its criteria and the type to cast to. -/
def Form.classify (criteria : Criteria) (cast : Option JavaType) : Form :=
  if !criteria.hasTypePath && criteria.targetsReceiver then .receiver
  else if !criteria.hasTypePath && criteria.targetsNew then .new
  else
    match cast with
    | some type => .cast type
    | none => .single

/-- Whether annotations within the type are written into it. -/
def Form.isCast : Form → Bool
  | .cast _ => true
  | _ => false

/-- **A warning**: nothing is known about the constructors of a class. -/
structure Warning where
  /-- The class. -/
  className : String
  /-- Why nothing is known. -/
  message : String
deriving DecidableEq

/-- The code of all warnings. -/
def Warning.code : String := "bytecode-unavailable"

/-- What does not change while a class is worked off. -/
structure Context where
  /-- What annotations are written with. -/
  formatter : Formatter
  /-- Whether a constructor is written for annotations on the one that the class did
  not declare. -/
  writesConstructor : Bool

/-- **What has come of the sites so far.** -/
structure Draft where
  /-- All insertions. -/
  store : Store
  /-- The insertions in the output, the latest first. -/
  placed : List InsertionId
  /-- Where the insertions come from. -/
  sources : Sources
  /-- The names to import, each once and in the order of first use. -/
  imports : List String
  /-- The warnings in order. -/
  warnings : List Warning
  /-- The constructor written for the class that is being worked off. -/
  constructor : Option InsertionId

namespace Draft

/-- Nothing so far. -/
def empty : Draft := ⟨.empty, [], .empty, [], [], none⟩

instance : Inhabited Draft := ⟨empty⟩

/-- Put insertions into the output, at its end. -/
def place (d : Draft) (ids : List InsertionId) : Draft :=
  { d with placed := ids.reverse ++ d.placed }

/-- Take insertions out of the output again, those that are in it. -/
def unplace (d : Draft) (ids : List InsertionId) : Draft :=
  { d with placed := ids.foldl List.erase d.placed }

/-- Record that a note went into an insertion. -/
def record (d : Draft) (id : InsertionId) (n : Note) : Draft :=
  { d with
    sources := d.sources.put id n.use
    imports := Formatter.mergeImports d.imports n.imports }

/-! ## The constructor of a class -/

/-- **The constructor written for the class**, made now if there is none yet. -/
def ensureConstructor (d : Draft) (place : CriteriaList) :
    Except PlanError (Draft × InsertionId) :=
  match d.constructor with
  | some id => .ok (d, id)
  | none => do
    let id := d.store.size
    let store ← d.store.pushConstructor place
    pure ({ d with store, constructor := some id }.place [id], id)

/-- Make a receiver that of the constructor. If it is merged into another one, that
one gets its sources. -/
def absorbReceiver (d : Draft) (constructor id : InsertionId) : Except PlanError Draft := do
  let (store, kept) ← d.store.attachReceiver constructor id
  if kept = id then pure { d with store }
  else pure { d with store, sources := (d.sources.get id).foldl (Sources.put · kept) d.sources }

/-- **Move insertions into the constructor**: a receiver becomes its receiver, an
annotation on the result is written on its name, and others that belong to the
declaration go above it. The second answer says whether anything was moved; what was
is no longer in the output. -/
def absorbInto (d : Draft) (constructor : InsertionId) (criteria : Criteria) (n : Note)
    (made : List InsertionId) : Except PlanError (Draft × Bool) :=
  match made with
  | [] => .ok (d, false)
  | id :: _ => do
    match d.store.get? id with
    | some (.receiver ..) =>
      let d ← d.absorbReceiver constructor id
      pure (d.unplace made, true)
    | _ =>
      if criteria.isOnReturnType then
        let store ← d.store.addTypeAnnotation constructor n.text
        pure ({ d with store }.unplace made, true)
      else if n.typeOnly then pure (d, false)
      else
        let store ← made.foldlM (·.attachDeclaration constructor ·) d.store
        pure ({ d with store }.unplace made, true)

/-- **Move what was made for a note into the constructor**, if it belongs there. -/
def absorb (ctx : Context) (place : CriteriaList) (criteria : Criteria) (d : Draft) (n : Note)
    (made : List InsertionId) : Except PlanError (Draft × Bool) :=
  if !criteria.hasTypePath && ctx.writesConstructor && criteria.targetsImplicitConstructor then do
    let (d, constructor) ← d.ensureConstructor place
    d.absorbInto constructor criteria n made
  else .ok (d, false)

/-! ## Positions -/

/-- The criteria of a single annotation: on a further type of an intersection that is
cast to, that type is named at the end. -/
def singleCriteria (place : CriteriaList) (criteria : Criteria) : CriteriaList :=
  match criteria.cast? with
  | some location =>
    if location.typeIndex = 0 then place else place.add (.intersectionType location)
  | none => place

/-- **Make an insertion of its own** for a note. The second answer is its number. -/
def addSingle (ctx : Context) (place : CriteriaList) (criteria : Criteria) (withhold : Bool)
    (d : Draft) (n : Note) : Except PlanError (Draft × InsertionId) := do
  let id := d.store.size
  let insertion := Insertion.single n.text (singleCriteria place criteria) (!n.typeOnly)
  let made := if withhold then [] else [id]
  let d := ({ d with store := d.store.push insertion }.place made).record id n
  let (d, _) ← absorb ctx place criteria d n made
  pure (d, id)

/-- Make insertions of their own for several notes. The second answer are their
numbers. -/
def addSingles (ctx : Context) (place : CriteriaList) (criteria : Criteria) (withhold : Bool) :
    Draft → List Note → Except PlanError (Draft × List InsertionId)
  | d, [] => .ok (d, [])
  | d, n :: rest => do
    let (d, id) ← addSingle ctx place criteria withhold d n
    let (d, ids) ← addSingles ctx place criteria withhold d rest
    pure (d, id :: ids)

/-- **Make the insertion that gathers** all annotations on a position, with the first
of them. The second answer are the numbers of what was made: one, or two for a
cast. -/
def create (form : Form) (place : CriteriaList) (inner : List InsertionId) (text : Option String)
    (d : Draft) : Except PlanError (Draft × List InsertionId) := do
  let id := d.store.size
  match form with
  | .receiver => pure ({ d with store := d.store.pushReceiver text place inner }, [id])
  | .new => pure ({ d with store := d.store.pushNew text place inner }, [id])
  | .cast type =>
    let store ← d.store.pushCast type text inner place
    pure ({ d with store }, [id, id + 1])
  | .single => pure (d, [])

/-- Add a further note to a gathering insertion. -/
def addNote (id : InsertionId) (d : Draft) (n : Note) : Except PlanError Draft := do
  let store ← d.store.addTypeAnnotation id n.text
  pure ({ d with store }.record id n)

/-- **Gather all annotations on a position** in one insertion. Without annotations
there is one only for a cast, and for annotations within the type. -/
def gather (ctx : Context) (form : Form) (place : CriteriaList) (criteria : Criteria)
    (inner : List InsertionId) (d : Draft) : List Note → Except PlanError Draft
  | [] =>
    if form.isCast || !inner.isEmpty then do
      let (d, made) ← create form place inner none d
      pure (d.place made)
    else .ok d
  | n :: rest => do
    let id := d.store.size
    let (d, made) ← create form place inner (some n.text) d
    let (d, absorbed) ← absorb ctx place criteria (d.record id n) n made
    let d ← rest.foldlM (addNote id) d
    pure (if absorbed then d else d.place made)

/-- **Work off a position within a type.** The second answer are the insertions of
their own that were made; withheld ones are not put into the output. -/
def visitNested (ctx : Context) (withhold : Bool) (d : Draft) (p : Position) :
    Except PlanError (Draft × List InsertionId) := do
  let criteria := p.criteria.compose
  let notes ← ctx.formatter.notes p.criteria p.annotations
  match Form.classify criteria none with
  | .single => addSingles ctx p.criteria criteria withhold d notes
  | form => do
    let d ← gather ctx form p.criteria criteria [] d notes
    pure (d, [])

/-- Work off the positions within a type. The second answer are the insertions of
their own that were made. -/
def visitAllNested (ctx : Context) (withhold : Bool) :
    Draft → List Position → Except PlanError (Draft × List InsertionId)
  | d, [] => .ok (d, [])
  | d, p :: rest => do
    let (d, ids) ← visitNested ctx withhold d p
    let (d, more) ← visitAllNested ctx withhold d rest
    pure (d, ids ++ more)

/-- **Work off a site**: first the positions within its type, then the site
itself. -/
def visit (ctx : Context) (d : Draft) (s : Site) : Except PlanError Draft := do
  let (d, inner) ← visitAllNested ctx s.withholds d s.nested
  let criteria := s.criteria.compose
  let form := Form.classify criteria s.cast
  let notes ← ctx.formatter.notes s.criteria s.annotations
  let d := if s.withholds && !form.isCast then d.place inner else d
  match form with
  | .single => do
    let (d, _) ← addSingles ctx s.criteria criteria false d notes
    pure d
  | form => gather ctx form s.criteria criteria inner d notes

end Draft

end AnnotationPlan
