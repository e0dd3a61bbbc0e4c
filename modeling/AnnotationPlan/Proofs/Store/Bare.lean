import AnnotationPlan.Proofs.JavaType.Bare
import AnnotationPlan.Proofs.Store.Operations
import Mathlib.Data.Option.Basic

/-!
# Insertions without the texts of annotations

The texts of annotations are written into insertions and never looked at again: what an
operation does to a store, and whether it fails, is decided by what the insertions are,
where they are, what types they write and to which others they refer. So two stores whose
insertions differ in nothing but the texts of annotations (`Store.Alike`) are taken by every
operation to two such stores again, whatever texts it writes into the one and the other.

Receivers are merged by comparing the texts on them; what is compared there are texts of one
store, and where they go is the same in any case.
-/

namespace AnnotationPlan

namespace Insertion

/-- **An insertion without the texts of annotations.** -/
def bare : Insertion → Insertion
  | single _ criteria separateLine => single "" criteria separateLine
  | cast criteria type separateLine => cast criteria type.bare separateLine
  | closeParenthesis criteria separateLine => closeParenthesis criteria separateLine
  | receiver criteria type inner => receiver criteria type.bare inner
  | new criteria type inner => new criteria type.bare inner
  | constructor criteria type parameter above => constructor criteria type.bare parameter above

/-- **Two insertions alike** but for the texts of annotations. -/
inductive Alike : Insertion → Insertion → Prop where
  | single (text text' : String) (criteria : CriteriaList) (separateLine : Bool) :
    Alike (single text criteria separateLine) (single text' criteria separateLine)
  | cast (criteria : CriteriaList) {type type' : JavaType} (separateLine : Bool)
    (h : type.bare = type'.bare) :
    Alike (cast criteria type separateLine) (cast criteria type' separateLine)
  | closeParenthesis (criteria : CriteriaList) (separateLine : Bool) :
    Alike (closeParenthesis criteria separateLine) (closeParenthesis criteria separateLine)
  | receiver (criteria : CriteriaList) {type type' : JavaType} (inner : List InsertionId)
    (h : type.bare = type'.bare) :
    Alike (receiver criteria type inner) (receiver criteria type' inner)
  | new (criteria : CriteriaList) {type type' : JavaType} (inner : List InsertionId)
    (h : type.bare = type'.bare) : Alike (new criteria type inner) (new criteria type' inner)
  | constructor (criteria : CriteriaList) {type type' : JavaType} (parameter : Option InsertionId)
    (above : List InsertionId) (h : type.bare = type'.bare) :
    Alike (constructor criteria type parameter above) (constructor criteria type' parameter above)

namespace Alike

variable {i i' : Insertion}

theorem criteria_eq (h : i.Alike i') : i.criteria = i'.criteria := by cases h <;> rfl

theorem bare_eq (h : i.Alike i') : i.bare = i'.bare := by
  cases h <;> first | rfl | simp [bare, *]

/-- Annotations may be written on the types of both. -/
theorem annotate (h : i.Alike i') (text text' : String) :
    (i.mapType (JavaType.annotate text)).Alike (i'.mapType (JavaType.annotate text')) := by
  cases h <;> first
    | exact .single _ _ _ _
    | exact .cast _ _ (by simpa)
    | exact .closeParenthesis _ _
    | exact .receiver _ _ (by simpa)
    | exact .new _ _ (by simpa)
    | exact .constructor _ _ _ (by simpa)

end Alike

end Insertion

namespace Store

variable {s s' : Store} {i i' : Insertion}

/-- **A store without the texts of annotations.** -/
def bare (s : Store) : Store := ⟨s.insertions.map Insertion.bare⟩

/-- **Two stores alike** but for the texts of annotations. -/
structure Alike (s s' : Store) : Prop where
  size_eq : s.size = s'.size
  get? : ∀ id, Option.Rel Insertion.Alike (s.get? id) (s'.get? id)

namespace Alike

theorem empty : Alike Store.empty Store.empty := ⟨rfl, fun _ => .none⟩

/-- A number has an insertion in both stores or in none. -/
theorem get?_cases (h : s.Alike s') (id : InsertionId) :
    (∃ i i', s.get? id = some i ∧ s'.get? id = some i' ∧ i.Alike i')
      ∨ s.get? id = none ∧ s'.get? id = none := by
  have hget := h.get? id
  generalize s.get? id = o at hget
  generalize s'.get? id = o' at hget
  cases hget with
  | some hi => exact .inl ⟨_, _, rfl, rfl, hi⟩
  | none => exact .inr ⟨rfl, rfl⟩

/-- Stores that are alike are the same without the texts of annotations. -/
theorem bare_eq (h : s.Alike s') : s.bare = s'.bare := by
  refine ext_get? (fun id => ?_)
  unfold bare Store.get?
  rw [Array.getElem?_map, Array.getElem?_map]
  show (s.get? id).map _ = (s'.get? id).map _
  obtain ⟨i, i', hi, hi', hlike⟩ | ⟨hnone, hnone'⟩ := h.get?_cases id
  · rw [hi, hi']
    exact congrArg some hlike.bare_eq
  · rw [hnone, hnone']

theorem push (h : s.Alike s') (hi : i.Alike i') : (s.push i).Alike (s'.push i') := by
  refine ⟨by rw [size_push, size_push, h.size_eq], fun id => ?_⟩
  rw [get?_push, get?_push, h.size_eq]
  split
  · exact .some hi
  · exact h.get? id

/-- An insertion is exchanged for another one in both stores. -/
theorem modify (h : s.Alike s') (id : InsertionId) {f f' : Insertion → Insertion}
    (hf : ∀ j j' : Insertion, j.Alike j' → (f j).Alike (f' j')) :
    (s.modify id f).Alike (s'.modify id f') := by
  refine ⟨by rw [size_modify, size_modify, h.size_eq], fun j => ?_⟩
  rw [get?_modify, get?_modify]
  split
  · obtain ⟨i, i', hi, hi', hlike⟩ | ⟨hnone, hnone'⟩ := h.get?_cases j
    · rw [hi, hi']
      exact .some (hf i i' hlike)
    · rw [hnone, hnone']
      exact .none
  · exact h.get? j

theorem lookup (h : s.Alike s') (id : InsertionId) :
    Agree Insertion.Alike (s.lookup id) (s'.lookup id) := by
  unfold Store.lookup
  obtain ⟨i, i', hi, hi', hlike⟩ | ⟨hnone, hnone'⟩ := h.get?_cases id
  · rw [hi, hi']
    exact hlike
  · rw [hnone, hnone']
    exact rfl

theorem addTypeAnnotation (h : s.Alike s') (id : InsertionId) (text text' : String) :
    Agree Alike (s.addTypeAnnotation id text) (s'.addTypeAnnotation id text') := by
  refine (h.lookup id).bind (fun i i' hi => ?_)
  have hmodify := h.modify id (fun j j' (hj : j.Alike j') => hj.annotate text text')
  cases hi <;> first
    | exact hmodify
    | exact rfl

/-- Annotations written within the type of a cast. -/
theorem decorate (h : s.Alike s') (criteria : CriteriaList) (whole : JavaType) :
    ∀ (ids : List InsertionId) {t t' : JavaType}, t.bare = t'.bare →
      Agree (fun u u' => u.bare = u'.bare) (s.decorate criteria whole ids t)
        (s'.decorate criteria whole ids t')
  | [], _, _, ht => ht
  | id :: rest, t, t', ht => by
    rw [Store.decorate, Store.decorate]
    obtain ⟨i, i', hi, hi', hlike⟩ | ⟨hnone, hnone'⟩ := h.get?_cases id
    case inr =>
      rw [hnone, hnone']
      exact rfl
    rw [hi, hi']
    cases hlike with
    | single text text' place separateLine =>
      dsimp only
      cases place.compose.typePath? with
      | none => exact rfl
      | some path =>
        have hannotate := JavaType.bare_annotateAt? ht path text text'
        dsimp only
        cases hu : t.annotateAt? path text <;> cases hu' : t'.annotateAt? path text' <;>
          rw [hu, hu'] at hannotate
        case none.none => exact rfl
        case some.some u u' => exact decorate h criteria whole rest (Option.some.inj hannotate)
        all_goals cases hannotate
    | _ => exact rfl

/-- The first annotation of a type, if there is one for both. -/
theorem bare_annotated {text text' : Option String} (h : text.isSome = text'.isSome)
    (t : JavaType) : (annotated text t).bare = (annotated text' t).bare := by
  cases text <;> cases text' <;> simp_all [annotated]

section Gathering

variable {text text' : Option String} (htext : text.isSome = text'.isSome)
include htext

theorem pushCast (h : s.Alike s') (type : JavaType) (inner : List InsertionId)
    (criteria : CriteriaList) :
    Agree Alike (s.pushCast type text inner criteria) (s'.pushCast type text' inner criteria) := by
  refine (h.decorate criteria type inner (bare_annotated htext type)).bind (fun u u' hu => ?_)
  exact Agree.pure ((h.push (.cast criteria false hu)).push (.closeParenthesis criteria false))

theorem pushReceiver (h : s.Alike s') (criteria : CriteriaList) (inner : List InsertionId) :
    (s.pushReceiver text criteria inner).Alike (s'.pushReceiver text' criteria inner) :=
  h.push (.receiver criteria inner (bare_annotated htext .unnamed))

theorem pushNew (h : s.Alike s') (criteria : CriteriaList) (inner : List InsertionId) :
    (s.pushNew text criteria inner).Alike (s'.pushNew text' criteria inner) :=
  h.push (.new criteria inner (bare_annotated htext .unnamed))

end Gathering

theorem pushConstructor (h : s.Alike s') (criteria : CriteriaList) :
    Agree Alike (s.pushConstructor criteria) (s'.pushConstructor criteria) := by
  unfold Store.pushConstructor
  cases criteria.compose.className? with
  | some name => exact h.push (.constructor criteria none [] rfl)
  | none => exact rfl

/-- **A constructor gets its receiver**, or the receiver that it has gets the annotations of
another one: in both stores it is the same receiver. -/
theorem attachReceiver (h : s.Alike s') (c id : InsertionId) :
    Agree (fun r r' => r.1.Alike r'.1 ∧ r.2 = r'.2) (s.attachReceiver c id)
      (s'.attachReceiver c id) := by
  refine (h.lookup c).bind (fun i i' hi => ?_)
  cases hi with
  | constructor criteria parameter above htype =>
    cases parameter with
    | none =>
      exact Agree.pure
        ⟨h.modify c (fun _ _ _ => .constructor criteria (some id) above htype), rfl⟩
    | some kept =>
      dsimp only
      split
      · exact Agree.pure ⟨h, rfl⟩
      refine (h.lookup id).bind (fun j j' hj => ?_)
      cases hj with
      | @receiver _ type type' inner _ =>
        dsimp only
        obtain ⟨k, k', hk, hk', hlike⟩ | ⟨hnone, hnone'⟩ := h.get?_cases kept
        case inr =>
          rw [hnone, hnone']
          exact rfl
        rw [hk, hk']
        cases hlike with
        | receiver place innerKept hbare =>
          refine Agree.pure ⟨h.modify kept (fun _ _ _ => .receiver place _ ?_), rfl⟩
          rw [JavaType.bare_withAnnotations, JavaType.bare_withAnnotations, hbare]
        | _ => exact rfl
      | _ => exact rfl
  | _ => exact rfl

theorem attachDeclaration (h : s.Alike s') (c id : InsertionId) :
    Agree Alike (s.attachDeclaration c id) (s'.attachDeclaration c id) := by
  refine (h.lookup c).bind (fun i i' hi => ?_)
  cases hi with
  | constructor criteria parameter above htype =>
    exact Agree.pure
      (h.modify c (fun _ _ _ => .constructor criteria parameter (above ++ [id]) htype))
  | _ => exact rfl

end Alike

end Store

end AnnotationPlan
