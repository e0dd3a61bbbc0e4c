import AnnotationPlan.Proofs.JavaType.Growth
import AnnotationPlan.Proofs.Store.Operations

/-!
# A store only grows

No operation takes anything out of a store. Insertions stay where they are and remain
of their kind and at their place; single annotations never change at all, types only
gain annotations, and an insertion that refers to others goes on referring to them.
`Store.Grows` collects this in one relation, and every operation is shown to be part
of it, so that what was once established about an insertion need not be established
again after each step.
-/

namespace AnnotationPlan

namespace Insertion

/-- **One insertion has grown into another.** -/
inductive Grows : Insertion → Insertion → Prop
  /-- A single annotation never changes. -/
  | single (text : String) (criteria : CriteriaList) (separateLine : Bool) :
    Grows (.single text criteria separateLine) (.single text criteria separateLine)
  /-- A closing parenthesis never changes. -/
  | closeParenthesis (criteria : CriteriaList) (separateLine : Bool) :
    Grows (.closeParenthesis criteria separateLine) (.closeParenthesis criteria separateLine)
  /-- The type of a cast grows. -/
  | cast {criteria : CriteriaList} {t t' : JavaType} {separateLine : Bool}
    (type : t.Grows t') : Grows (.cast criteria t separateLine) (.cast criteria t' separateLine)
  /-- The type of a receiver grows, and so does what it refers to. -/
  | receiver {criteria : CriteriaList} {t t' : JavaType} {inner inner' : List InsertionId}
    (type : t.Grows t') (refers : inner ⊆ inner') :
    Grows (.receiver criteria t inner) (.receiver criteria t' inner')
  /-- The type of a created object grows, and so does what it refers to. -/
  | new {criteria : CriteriaList} {t t' : JavaType} {inner inner' : List InsertionId}
    (type : t.Grows t') (refers : inner ⊆ inner') :
    Grows (.new criteria t inner) (.new criteria t' inner')
  /-- The type of a constructor grows, it keeps its receiver, and the annotations above it
  become more. -/
  | constructor {criteria : CriteriaList} {t t' : JavaType}
    {receiver receiver' : Option InsertionId} {declarations declarations' : List InsertionId}
    (type : t.Grows t') (keeps : ∀ r, receiver = some r → receiver' = some r)
    (refers : declarations ⊆ declarations') :
    Grows (.constructor criteria t receiver declarations)
      (.constructor criteria t' receiver' declarations')

namespace Grows

theorem refl (i : Insertion) : Grows i i := by
  cases i with
  | single text criteria separateLine => exact .single text criteria separateLine
  | closeParenthesis criteria separateLine => exact .closeParenthesis criteria separateLine
  | cast criteria t separateLine => exact .cast (.refl t)
  | receiver criteria t inner => exact .receiver (.refl t) (List.Subset.refl inner)
  | new criteria t inner => exact .new (.refl t) (List.Subset.refl inner)
  | constructor criteria t receiver declarations =>
    exact .constructor (.refl t) (fun _ h => h) (List.Subset.refl declarations)

theorem trans {i j k : Insertion} (h : Grows i j) (h' : Grows j k) : Grows i k := by
  cases h with
  | single text criteria separateLine => exact h'
  | closeParenthesis criteria separateLine => exact h'
  | cast type =>
    cases h' with
    | cast type' => exact .cast (type.trans type')
  | receiver type refers =>
    cases h' with
    | receiver type' refers' =>
      exact .receiver (type.trans type') (List.Subset.trans refers refers')
  | new type refers =>
    cases h' with
    | new type' refers' => exact .new (type.trans type') (List.Subset.trans refers refers')
  | constructor type keeps refers =>
    cases h' with
    | constructor type' keeps' refers' =>
      exact .constructor (type.trans type') (fun r hr => keeps' r (keeps r hr))
        (List.Subset.trans refers refers')

/-- **An insertion stays at its place.** -/
theorem criteria_eq {i j : Insertion} (h : Grows i j) : j.criteria = i.criteria := by
  cases h <;> rfl

end Grows

/-- An annotation on the type of an insertion makes it grow. -/
theorem grows_annotate (i : Insertion) (text : String) :
    i.Grows (i.mapType (JavaType.annotate text)) := by
  cases i with
  | single text criteria separateLine => exact .single text criteria separateLine
  | closeParenthesis criteria separateLine => exact .closeParenthesis criteria separateLine
  | cast criteria t separateLine => exact .cast (t.grows_annotate text)
  | receiver criteria t inner =>
    exact .receiver (t.grows_annotate text) (List.Subset.refl inner)
  | new criteria t inner => exact .new (t.grows_annotate text) (List.Subset.refl inner)
  | constructor criteria t receiver declarations =>
    exact .constructor (t.grows_annotate text) (fun _ h => h) (List.Subset.refl declarations)

end Insertion

namespace Store

variable {s s' s'' : Store} {id : InsertionId} {i : Insertion}

/-- **One store has grown into another**: all its insertions are still there, and have
grown. -/
def Grows (s s' : Store) : Prop :=
  ∀ id i, s.get? id = some i → ∃ i', s'.get? id = some i' ∧ i.Grows i'

namespace Grows

theorem refl (s : Store) : s.Grows s := fun _ i hi => ⟨i, hi, .refl i⟩

theorem trans (h : s.Grows s') (h' : s'.Grows s'') : s.Grows s'' := by
  intro id i hi
  obtain ⟨i', hi', hgrows⟩ := h id i hi
  obtain ⟨i'', hi'', hgrows'⟩ := h' id i' hi'
  exact ⟨i'', hi'', hgrows.trans hgrows'⟩

/-- A store that has grown has no fewer insertions. -/
theorem size_le (h : s.Grows s') : s.size ≤ s'.size := by
  refine Nat.le_of_not_lt (fun hlt => ?_)
  obtain ⟨i, hi⟩ := exists_get? hlt
  obtain ⟨i', hi', -⟩ := h s'.size i hi
  exact absurd (lt_size hi') (Nat.lt_irrefl _)

/-- Single annotations are found again unchanged. -/
theorem get?_single {text : String} {criteria : CriteriaList} {separateLine : Bool}
    (h : s.Grows s') (hi : s.get? id = some (.single text criteria separateLine)) :
    s'.get? id = some (.single text criteria separateLine) := by
  obtain ⟨i', hi', hgrows⟩ := h id _ hi
  cases hgrows
  exact hi'

/-- Casts are found again with a type that has grown. -/
theorem get?_cast {criteria : CriteriaList} {t : JavaType} {separateLine : Bool}
    (h : s.Grows s') (hi : s.get? id = some (.cast criteria t separateLine)) :
    ∃ t', s'.get? id = some (.cast criteria t' separateLine) ∧ t.Grows t' := by
  obtain ⟨i', hi', hgrows⟩ := h id _ hi
  cases hgrows with
  | cast type => exact ⟨_, hi', type⟩

/-- Constructors are found again with what they had. -/
theorem get?_constructor {criteria : CriteriaList} {t : JavaType}
    {receiver : Option InsertionId} {declarations : List InsertionId} (h : s.Grows s')
    (hi : s.get? id = some (.constructor criteria t receiver declarations)) :
    ∃ t' receiver' declarations',
      s'.get? id = some (.constructor criteria t' receiver' declarations') ∧ t.Grows t'
      ∧ (∀ r, receiver = some r → receiver' = some r) ∧ declarations ⊆ declarations' := by
  obtain ⟨i', hi', hgrows⟩ := h id _ hi
  cases hgrows with
  | constructor type keeps refers => exact ⟨_, _, _, hi', type, keeps, refers⟩

end Grows

/-! ## The operations -/

theorem grows_push (s : Store) (i : Insertion) : s.Grows (s.push i) :=
  fun _ j hj => ⟨j, by rwa [get?_push_of_lt (lt_size hj)], .refl j⟩

/-- A change makes the store grow if it makes the insertion grow. -/
theorem grows_modify {f : Insertion → Insertion}
    (h : ∀ i, s.get? id = some i → i.Grows (f i)) : s.Grows (s.modify id f) := by
  intro j i hi
  by_cases hj : id = j
  · subst hj
    exact ⟨f i, get?_modify_self hi, h i hi⟩
  · exact ⟨i, by rwa [get?_modify_of_ne hj], .refl i⟩

/-- An insertion that is replaced by one that it grows into makes the store grow. -/
theorem grows_replace {i j : Insertion} (hi : s.get? id = some i) (hij : i.Grows j) :
    s.Grows (s.modify id (fun _ => j)) := by
  refine grows_modify (fun k hk => ?_)
  obtain rfl := Option.some.inj (hi.symm.trans hk)
  exact hij

theorem grows_addTypeAnnotation {text : String} (h : s.addTypeAnnotation id text = .ok s') :
    s.Grows s' := by
  obtain ⟨i, -, -, rfl⟩ := addTypeAnnotation_eq_ok.mp h
  exact grows_modify (fun j _ => j.grows_annotate text)

/-- More declarations make a constructor grow. -/
theorem grows_declarations {c : InsertionId} {criteria : CriteriaList} {type : JavaType}
    {receiver : Option InsertionId} {declarations : List InsertionId}
    (hc : s.get? c = some (.constructor criteria type receiver declarations))
    (ids : List InsertionId) :
    s.Grows (s.modify c (fun _ => .constructor criteria type receiver (declarations ++ ids))) :=
  grows_replace hc (.constructor (.refl type) (fun _ h => h) (List.subset_append_left _ _))

/-- A receiver that another one is merged into grows. -/
theorem grows_merge (criteria : CriteriaList) (type added : JavaType)
    (inner more : List InsertionId) :
    (Insertion.receiver criteria type inner).Grows
      (.receiver criteria (type.withAnnotations (addMissing type.annotations added.annotations))
        (addMissing inner more)) :=
  .receiver (type.grows_withAnnotations (fun _ ha => mem_addMissing.mpr (Or.inl ha)))
    (fun _ ha => mem_addMissing.mpr (Or.inl ha))

theorem grows_attachReceiver {c kept : InsertionId}
    (h : s.attachReceiver c id = .ok (s', kept)) : s.Grows s' := by
  obtain ⟨criteria, type, receiver, declarations, hc, hcases⟩ := attachReceiver_cases h
  obtain ⟨rfl, -, rfl⟩ | ⟨-, -, rfl⟩ | ⟨keptCriteria, keptType, keptInner, place, added, inner,
    -, -, hkept, -, rfl⟩ := hcases
  · refine grows_replace hc (.constructor (.refl type) (fun _ h => ?_) (List.Subset.refl _))
    cases h
  · exact .refl s'
  · exact grows_replace hkept (grows_merge keptCriteria keptType added keptInner inner)

theorem grows_pushConstructor {criteria : CriteriaList}
    (h : s.pushConstructor criteria = .ok s') : s.Grows s' := by
  obtain ⟨className, -, rfl⟩ := pushConstructor_eq_ok.mp h
  exact grows_push s _

theorem grows_pushCast {type : JavaType} {text : Option String} {inner : List InsertionId}
    {criteria : CriteriaList} (h : s.pushCast type text inner criteria = .ok s') :
    s.Grows s' := by
  obtain ⟨decorated, -, rfl⟩ := pushCast_eq_ok.mp h
  exact (grows_push s _).trans (grows_push _ _)

end Store

end AnnotationPlan
