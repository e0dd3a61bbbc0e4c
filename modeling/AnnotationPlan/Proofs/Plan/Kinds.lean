import AnnotationPlan.Proofs.Plan.Making
import AnnotationPlan.Proofs.Scene.Spots

/-!
# Every insertion is of the kind that its criteria call for

What becomes of annotations is decided by the criteria of their spot, but what is stored
with an insertion is not always these criteria: a single annotation on a further type of an
intersection names that type at the end. The criterion is of a kind that no question about
the place reads, so whoever reads the stored criteria comes to the same answers
(`Insertion.FitsKind`), and it is the only one that an insertion has beyond those of its
spot (`Insertion.furtherType`). Since all that is known of an insertion is known from its
making, neither depends on what it was merged with or what else was added to it
(`Plan.ofSceneWith_kinds`).
-/

namespace AnnotationPlan

@[simp] theorem Position.targetsReceiver_insertion (p : Position) (n : Note) :
    (p.insertion n).criteria.compose.targetsReceiver = p.criteria.compose.targetsReceiver := by
  simp [Criteria.targetsReceiver, Criteria.astPath?, Criteria.isOnReceiver, get?_insertion]

@[simp] theorem Position.targetsNew_insertion (p : Position) (n : Note) :
    (p.insertion n).criteria.compose.targetsNew = p.criteria.compose.targetsNew := by
  simp [Criteria.targetsNew, Criteria.astPath?, Criteria.isOnNew, get?_insertion]

@[simp] theorem Position.cast?_insertion (p : Position) (n : Note) :
    (p.insertion n).criteria.compose.cast? = p.criteria.compose.cast? := by
  simp [Criteria.cast?, get?_insertion]

/-- **The further type of an intersection** that is cast to: any but the first one. -/
def Criteria.furtherType (criteria : Criteria) : List Criterion :=
  match criteria.cast? with
  | some location => if 0 < location.typeIndex then [.intersectionType location] else []
  | none => []

/-- **A single annotation names the further type** that it is on, at the end. -/
theorem Draft.toList_singleCriteria (place : CriteriaList) (criteria : Criteria) :
    (singleCriteria place criteria).toList = place.toList ++ criteria.furtherType := by
  unfold singleCriteria Criteria.furtherType
  cases criteria.cast? with
  | none => exact (List.append_nil _).symm
  | some location =>
    by_cases hzero : location.typeIndex = 0
    · simp [hzero]
    · simp [hzero, UInt32.pos_iff_ne_zero]

namespace Insertion

/-- **The criteria of an insertion call for its kind**: a single annotation is within a
type, or on neither a receiver nor a created object; a receiver and the type of a created
object are on one, and not within its type; a cast and its parenthesis are the whole of a
type at a place in a syntax tree, and on neither; and a constructor is in the constructor
without parameters. -/
def FitsKind (i : Insertion) : Prop :=
  match i with
  | .single .. => i.criteria.compose.hasTypePath = true
      ∨ i.criteria.compose.targetsReceiver = false ∧ i.criteria.compose.targetsNew = false
  | .receiver .. => i.criteria.compose.hasTypePath = false
      ∧ i.criteria.compose.targetsReceiver = true
  | .new .. => i.criteria.compose.hasTypePath = false
      ∧ i.criteria.compose.targetsReceiver = false ∧ i.criteria.compose.targetsNew = true
  | .cast .. | .closeParenthesis .. => i.criteria.compose.astPath?.isSome = true
      ∧ i.criteria.compose.hasTypePath = false
      ∧ i.criteria.compose.targetsReceiver = false ∧ i.criteria.compose.targetsNew = false
  | .constructor .. => i.criteria.compose.hasTypePath = false
      ∧ i.criteria.compose.targetsImplicitConstructor = true

/-- **The further type of an intersection** that an insertion is on: a single annotation
on a type that is cast to, unless that is the first one. -/
def furtherType (i : Insertion) : List Criterion :=
  match i with
  | .single .. => i.criteria.compose.furtherType
  | _ => []

namespace MadeAt

variable {ctx : Context} {p : Spot} {i : Insertion}

/-- What is not gathered by a receiver or a created object is within a type, or on neither. -/
theorem other_of_form {form : Form} (h : p.form = form) (hreceiver : form ≠ .receiver)
    (hnew : form ≠ .new) : p.criteria.compose.hasTypePath = true
      ∨ p.criteria.compose.targetsReceiver = false ∧ p.criteria.compose.targetsNew = false :=
  Form.of_classify_other (fun hform => hreceiver (h.symm.trans hform))
    (fun hform => hnew (h.symm.trans hform))

/-- A cast goes to a place for one, on neither a receiver nor a created object. -/
theorem fitsKind_of_cast {type : JavaType} (form : p.form = .cast type)
    (hcast : p.cast.isSome = true → p.criteria.IsCastPlace) :
    p.criteria.compose.astPath?.isSome = true ∧ p.criteria.compose.hasTypePath = false
      ∧ p.criteria.compose.targetsReceiver = false ∧ p.criteria.compose.targetsNew = false := by
  have hisCast : p.form.isCast = true := by
    rw [form]
    rfl
  have hplace := hcast (Form.isSome_of_isCast hisCast)
  have hpath : p.criteria.compose.hasTypePath = false := by
    rw [Criteria.hasTypePath, hplace.typePath?_eq]
  have hother := other_of_form form (by simp) (by simp)
  exact ⟨hplace.astPath?_isSome, hpath, hother.resolve_left (by simp [hpath])⟩

/-- **An insertion that was made at a spot is of the kind that its criteria call for.** -/
theorem fitsKind (h : i.MadeAt ctx p)
    (hcast : p.cast.isSome = true → p.criteria.IsCastPlace) : i.FitsKind := by
  cases h with
  | single n note form =>
    have hother := other_of_form form (by simp) (by simp)
    show (p.insertion n).criteria.compose.hasTypePath = true ∨ _
    simpa using hother
  | receiver form => exact Form.of_classify_receiver form
  | new form => exact Form.of_classify_new form
  | cast form => exact fitsKind_of_cast form hcast
  | closeParenthesis form => exact fitsKind_of_cast form hcast
  | constructor n note on className named =>
    obtain ⟨hpath, -, himplicit⟩ := Context.onConstructor_iff.mp on
    exact ⟨hpath, himplicit⟩

/-- **An insertion has the criteria of its spot**, and beyond them at most the further type
that it is on. -/
theorem toList_criteria (h : i.MadeAt ctx p) :
    i.criteria.toList = p.criteria.toList ++ i.furtherType := by
  cases h with
  | single n note form =>
    have hfurther : (p.insertion n).criteria.compose.furtherType
        = p.criteria.compose.furtherType := by
      simp [Criteria.furtherType]
    exact (Draft.toList_singleCriteria _ _).trans (congrArg _ hfurther.symm)
  | _ => exact (List.append_nil _).symm

end MadeAt

end Insertion

namespace Plan

/-- **Every insertion is of the kind that its criteria call for.** And it was made at a spot
of a visited site, whose criteria name no further type of an intersection and are those of
the insertion, but for one: a single annotation on a further type that is cast to names this
type at the end. -/
theorem ofSceneWith_kinds {policy : NamePolicy} {scene : Scene} {lookup : ConstructorLookup}
    {settings : Settings} {plan : Plan}
    (h : ofSceneWith policy scene lookup settings = .ok plan) {id : InsertionId} {i : Insertion}
    (hi : plan.store.get? id = some i) :
    i.FitsKind
    ∧ ∃ v ∈ visits policy scene lookup settings, v.Makes id ∧ ∃ p ∈ v.site.spots,
        p.criteria.NamesNoFurtherType
        ∧ i.criteria.toList = p.criteria.toList ++ i.furtherType := by
  obtain ⟨v, hv, hmakes, p, hp, hmade⟩ := Plan.madeAt h hi
  obtain ⟨part, -, -, hsite⟩ := Plan.exists_part h hv
  exact ⟨hmade.fitsKind (part.isCastPlace v.site hsite p hp), v, hv, hmakes, p, hp,
    part.namesNoFurtherType v.site hsite p hp, hmade.toList_criteria⟩

/-- The cast of the sample is of the kind that its criteria call for. -/
theorem sample_kinds :
    ∃ plan criteria type, ofSceneWith ⟨[]⟩ Scene.sample .implicit {} = .ok plan
      ∧ plan.store.get? 4 = some (.cast criteria type false)
      ∧ (Insertion.cast criteria type false).FitsKind
      ∧ ∃ v ∈ visits ⟨[]⟩ Scene.sample .implicit {}, v.Makes 4 ∧ ∃ p ∈ v.site.spots,
          p.criteria.NamesNoFurtherType
          ∧ criteria.toList
            = p.criteria.toList ++ (Insertion.cast criteria type false).furtherType := by
  obtain ⟨plan, hplan, criteria, type, hi⟩ :
      ∃ plan, ofSceneWith ⟨[]⟩ Scene.sample .implicit {} = .ok plan
        ∧ ∃ criteria type, plan.store.get? 4 = some (.cast criteria type false) :=
    ⟨_, rfl, _, _, rfl⟩
  exact ⟨plan, criteria, type, hplan, hi, ofSceneWith_kinds hplan hi⟩

end Plan

end AnnotationPlan
