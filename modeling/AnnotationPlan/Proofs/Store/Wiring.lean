import AnnotationPlan.Proofs.Store.Growth
import AnnotationPlan.Proofs.Store.References

/-!
# Stores whose references make sense

The stores that a run builds are **wired** (`Store.Wired`): a receiver is inside a
class, what a receiver or a created object refers to are single annotations, and a
constructor has a receiver that is one, and above it nothing but insertions that gather
no others of its own kind – all of them in its own class. References then lead from
constructors to receivers to annotations and never back, so nothing is missing and
there is no circle (`Store.Wired.closed`, `Store.Wired.acyclic`).

Each operation keeps a store wired, provided that what it attaches is of the right
kind; that is all that has to be known about an insertion when it is attached.
-/

namespace AnnotationPlan

namespace Insertion

/-- The class that an insertion is in. -/
def className? (i : Insertion) : Option String := i.criteria.compose.className?

/-- A single annotation. -/
def IsSingle : Insertion → Prop
  | .single .. => True
  | _ => False

/-- A receiver parameter. -/
def IsReceiver : Insertion → Prop
  | .receiver .. => True
  | _ => False

/-- An insertion that may stand above a constructor. -/
def IsDeclarable : Insertion → Prop
  | .receiver .. => False
  | .constructor .. => False
  | _ => True

/-- A constructor. -/
def IsConstructor : Insertion → Prop
  | .constructor .. => True
  | _ => False

/-- A single annotation on a position within a type. -/
def IsWithin (i : Insertion) : Prop :=
  i.IsSingle ∧ ∃ path, i.criteria.compose.typePath? = some path

/-- How far references may lead from an insertion. -/
def rank : Insertion → Nat
  | .receiver .. => 1
  | .new .. => 1
  | .constructor .. => 2
  | _ => 0

namespace Grows

variable {i j : Insertion}

theorem className?_eq (h : i.Grows j) : j.className? = i.className? :=
  congrArg (fun criteria => criteria.compose.className?) h.criteria_eq

theorem isSingle (h : i.Grows j) (hi : i.IsSingle) : j.IsSingle := by
  cases h <;> exact hi

theorem isReceiver (h : i.Grows j) (hi : i.IsReceiver) : j.IsReceiver := by
  cases h <;> exact hi

theorem isConstructor (h : i.Grows j) (hi : i.IsConstructor) : j.IsConstructor := by
  cases h <;> exact hi

theorem isWithin (h : i.Grows j) (hi : i.IsWithin) : j.IsWithin :=
  ⟨h.isSingle hi.1, h.criteria_eq ▸ hi.2⟩

theorem isDeclarable (h : i.Grows j) (hi : i.IsDeclarable) : j.IsDeclarable := by
  cases h <;> exact hi

end Grows

end Insertion

namespace Store

variable {s s' : Store} {id c : InsertionId} {i : Insertion}

/-- **The insertion with a number has a property.** -/
def Has (s : Store) (P : Insertion → Prop) (id : InsertionId) : Prop :=
  ∃ i, s.get? id = some i ∧ P i

theorem Has.lt_size {P : Insertion → Prop} (h : s.Has P id) : id < s.size := by
  obtain ⟨i, hi, -⟩ := h
  exact Store.lt_size hi

/-- A property that growing keeps is kept when the store grows. -/
theorem Has.grows {P : Insertion → Prop} (h : s.Has P id) (hgrows : s.Grows s')
    (hP : ∀ i j, i.Grows j → P i → P j) : s'.Has P id := by
  obtain ⟨i, hi, hPi⟩ := h
  obtain ⟨i', hi', hii'⟩ := hgrows id i hi
  exact ⟨i', hi', hP i i' hii' hPi⟩

/-- **What an insertion refers to is of the right kind.** -/
def WiredAt (s : Store) : Insertion → Prop
  | .receiver criteria _ inner =>
    criteria.compose.isInClass = true ∧ ∀ j ∈ inner, s.Has Insertion.IsSingle j
  | .new _ _ inner => ∀ j ∈ inner, s.Has Insertion.IsSingle j
  | .constructor criteria _ receiver declarations =>
    criteria.compose.isInClass = true
    ∧ (∀ r, receiver = some r →
        s.Has (fun i => i.IsReceiver ∧ i.className? = criteria.compose.className?) r)
    ∧ ∀ j ∈ declarations,
        s.Has (fun i => i.IsDeclarable ∧ i.className? = criteria.compose.className?) j
  | _ => True

/-- **A wired store.** -/
def Wired (s : Store) : Prop := ∀ id i, s.get? id = some i → s.WiredAt i

/-- What is wired stays so while the store grows. -/
theorem WiredAt.grows (h : s.WiredAt i) (hgrows : s.Grows s') : s'.WiredAt i := by
  have hsingle : ∀ {j : InsertionId}, s.Has Insertion.IsSingle j → s'.Has Insertion.IsSingle j :=
    fun hj => hj.grows hgrows (fun _ _ h => h.isSingle)
  cases i with
  | receiver criteria type inner => exact ⟨h.1, fun j hj => hsingle (h.2 j hj)⟩
  | new criteria type inner => exact fun j hj => hsingle (h j hj)
  | constructor criteria type receiver declarations =>
    refine ⟨h.1, fun r hr => ?_, fun j hj => ?_⟩
    · exact (h.2.1 r hr).grows hgrows
        (fun _ _ hg hi => ⟨hg.isReceiver hi.1, hg.className?_eq.trans hi.2⟩)
    · exact (h.2.2 j hj).grows hgrows
        (fun _ _ hg hi => ⟨hg.isDeclarable hi.1, hg.className?_eq.trans hi.2⟩)
  | _ => trivial

/-! ## Nothing is missing and there is no circle -/

/-- **A reference leads to a lower rank.** -/
theorem Wired.rank_lt (h : s.Wired) {a b : InsertionId} (hab : s.Refers a b) :
    ∃ i j, s.get? a = some i ∧ s.get? b = some j ∧ j.rank < i.rank := by
  obtain ⟨i, hi, hb⟩ := hab
  have hwired := h a i hi
  have hsingle : ∀ {j : Insertion}, j.IsSingle → j.rank < 1 := fun {j} hj => by
    cases j <;> first | exact Nat.zero_lt_one | exact hj.elim
  cases i with
  | receiver criteria type inner =>
    obtain ⟨j, hj, hkind⟩ := hwired.2 b (by
      simpa [Insertion.references, Insertion.inner, Insertion.receiver?,
        Insertion.declarations] using hb)
    exact ⟨_, j, hi, hj, hsingle hkind⟩
  | new criteria type inner =>
    obtain ⟨j, hj, hkind⟩ := hwired b (by
      simpa [Insertion.references, Insertion.inner, Insertion.receiver?,
        Insertion.declarations] using hb)
    exact ⟨_, j, hi, hj, hsingle hkind⟩
  | constructor criteria type receiver declarations =>
    have hb : receiver = some b ∨ b ∈ declarations := by
      simpa [Insertion.references, Insertion.inner, Insertion.receiver?,
        Insertion.declarations] using hb
    -- a receiver is of rank one, and declarations are of no higher rank
    rcases hb with hb | hb
    · obtain ⟨j, hj, hkind, -⟩ := hwired.2.1 b hb
      refine ⟨_, j, hi, hj, ?_⟩
      cases j <;> first | exact Nat.lt_succ_self 1 | exact hkind.elim
    · obtain ⟨j, hj, hkind, -⟩ := hwired.2.2 b hb
      refine ⟨_, j, hi, hj, ?_⟩
      cases j <;> first | exact Nat.zero_lt_two | exact Nat.lt_succ_self 1 | exact hkind.elim
  | _ => simp [Insertion.references, Insertion.inner, Insertion.receiver?,
      Insertion.declarations] at hb

theorem Wired.closed (h : s.Wired) : s.Closed := by
  intro a b hab
  obtain ⟨-, j, -, hj, -⟩ := h.rank_lt hab
  exact lt_size hj

theorem Wired.acyclic (h : s.Wired) : s.Acyclic := by
  have hlt : ∀ {a b : InsertionId}, Relation.TransGen s.Refers a b →
      ∃ i j, s.get? a = some i ∧ s.get? b = some j ∧ j.rank < i.rank := by
    intro a b hab
    induction hab with
    | single hab => exact h.rank_lt hab
    | tail _ hbc ih =>
      obtain ⟨i, j, hi, hj, hij⟩ := ih
      obtain ⟨j', k, hj', hk, hjk⟩ := h.rank_lt hbc
      obtain rfl := Option.some.inj (hj.symm.trans hj')
      exact ⟨i, k, hi, hk, Nat.lt_trans hjk hij⟩
  intro a ha
  obtain ⟨i, j, hi, hj, hij⟩ := hlt ha
  obtain rfl := Option.some.inj (hi.symm.trans hj)
  exact Nat.lt_irrefl _ hij

theorem Wired.receiversInClass (h : s.Wired) : s.ReceiversInClass :=
  fun id _ _ _ hi => (h id _ hi).1

/-! ## In a wired store the gathering operations succeed -/

theorem exists_addTypeAnnotation (h : s.Has (fun i => i.type?.isSome) id) (text : String) :
    ∃ s', s.addTypeAnnotation id text = .ok s' := by
  obtain ⟨i, hi, htype⟩ := h
  exact ⟨_, addTypeAnnotation_eq_ok.mpr ⟨i, hi, htype, rfl⟩⟩

/-- A number that a constructor has leads to its contents. -/
theorem Has.get?_constructor (h : s.Has Insertion.IsConstructor c) :
    ∃ criteria type receiver declarations,
      s.get? c = some (.constructor criteria type receiver declarations) := by
  obtain ⟨i, hi, hkind⟩ := h
  cases i with
  | constructor criteria type receiver declarations =>
    exact ⟨criteria, type, receiver, declarations, hi⟩
  | _ => exact hkind.elim

/-- The receiver that a constructor already has is one, so another can be merged
into it. -/
theorem Wired.exists_attachReceiver (h : s.Wired) (hc : s.Has Insertion.IsConstructor c)
    (hid : s.Has Insertion.IsReceiver id) :
    ∃ s' kept, s.attachReceiver c id = .ok (s', kept) := by
  obtain ⟨criteria, type, receiver, declarations, hi⟩ := hc.get?_constructor
  obtain ⟨j, hj, hreceiver⟩ := hid
  cases receiver with
  | none => exact ⟨_, _, attachReceiver_first hi⟩
  | some kept =>
    by_cases hne : kept = id
    · subst hne
      exact ⟨s, kept, attachReceiver_self hi⟩
    · obtain ⟨k, hk, hkept, -⟩ := (h c _ hi).2.1 kept rfl
      cases j with
      | receiver place added inner =>
        cases k with
        | receiver keptCriteria keptType keptInner =>
          exact ⟨_, _, attachReceiver_merge hi hne hj hk⟩
        | _ => exact hkept.elim
      | _ => exact hreceiver.elim

/-! ## The operations keep a store wired -/

theorem wired_empty : Store.empty.Wired := fun id i hi => by simp [get?, empty] at hi

/-- A new insertion has to be wired. -/
theorem Wired.push (h : s.Wired) (hi : s.WiredAt i) : (s.push i).Wired := by
  intro j k hk
  rw [get?_push] at hk
  split at hk
  · obtain rfl := Option.some.inj hk
    exact hi.grows (grows_push s i)
  · exact (h j k hk).grows (grows_push s i)

/-- A changed insertion has to be wired. -/
theorem Wired.modify {f : Insertion → Insertion} (h : s.Wired)
    (hgrows : ∀ i, s.get? id = some i → i.Grows (f i))
    (hf : ∀ i, s.get? id = some i → s.WiredAt i → s.WiredAt (f i)) :
    (s.modify id f).Wired := by
  intro j k hk
  have hstore := grows_modify hgrows
  by_cases hj : id = j
  · subst hj
    rw [get?_modify, if_pos rfl] at hk
    obtain ⟨i, hi, rfl⟩ := Option.map_eq_some_iff.mp hk
    exact (hf i hi (h id i hi)).grows hstore
  · rw [get?_modify_of_ne hj] at hk
    exact (h j k hk).grows hstore

/-- An insertion may be replaced by one that it grows into, if that is wired. -/
theorem Wired.replace {i j : Insertion} (h : s.Wired) (hi : s.get? id = some i)
    (hij : i.Grows j) (hj : s.WiredAt i → s.WiredAt j) : (s.modify id (fun _ => j)).Wired := by
  refine h.modify (fun k hk => ?_) (fun k hk hwired => hj ?_)
  · obtain rfl := Option.some.inj (hi.symm.trans hk)
    exact hij
  · obtain rfl := Option.some.inj (hi.symm.trans hk)
    exact hwired

theorem Wired.addTypeAnnotation {text : String} (h : s.Wired)
    (hs : s.addTypeAnnotation id text = .ok s') : s'.Wired := by
  obtain ⟨i, -, -, rfl⟩ := addTypeAnnotation_eq_ok.mp hs
  refine h.modify (fun j _ => j.grows_annotate text) (fun j _ hj => ?_)
  cases j <;> exact hj

theorem Wired.declarations {criteria : CriteriaList} {type : JavaType}
    {receiver : Option InsertionId} {declarations ids : List InsertionId} (h : s.Wired)
    (hc : s.get? c = some (.constructor criteria type receiver declarations))
    (hids : ∀ j ∈ ids, s.Has (fun i => i.IsDeclarable
      ∧ i.className? = criteria.compose.className?) j) :
    (s.modify c (fun _ => .constructor criteria type receiver (declarations ++ ids))).Wired := by
  refine h.replace hc (.constructor (.refl type) (fun _ h => h) (List.subset_append_left _ _))
    (fun hwired => ⟨hwired.1, hwired.2.1, fun k hk => ?_⟩)
  rcases List.mem_append.mp hk with hk | hk
  · exact hwired.2.2 k hk
  · exact hids k hk

theorem Wired.attachReceiver {kept : InsertionId} (h : s.Wired)
    (hs : s.attachReceiver c id = .ok (s', kept))
    (hid : ∀ i, s.get? c = some i →
      s.Has (fun j => j.IsReceiver ∧ j.className? = i.className?) id) : s'.Wired := by
  obtain ⟨criteria, type, receiver, declarations, hc, hcases⟩ := attachReceiver_cases hs
  obtain ⟨rfl, -, rfl⟩ | ⟨-, -, rfl⟩ | ⟨keptCriteria, keptType, keptInner, place, added, inner,
    -, -, hkept, hadded, rfl⟩ := hcases
  · refine h.replace hc (.constructor (.refl type) (fun _ h => by cases h) (List.Subset.refl _))
      (fun hwired => ⟨hwired.1, fun r hr => ?_, hwired.2.2⟩)
    obtain rfl := Option.some.inj hr
    exact hid _ hc
  · exact h
  · refine h.replace hkept (grows_merge keptCriteria keptType added keptInner inner)
      (fun hwired => ⟨hwired.1, fun k hk => ?_⟩)
    -- what is within the type was within one of the two types
    rcases mem_addMissing.mp hk with hk | hk
    · exact hwired.2 k hk
    · exact (h id _ hadded).2 k hk

theorem Wired.pushConstructor {criteria : CriteriaList} (h : s.Wired)
    (hs : s.pushConstructor criteria = .ok s') : s'.Wired := by
  obtain ⟨className, hclass, rfl⟩ := pushConstructor_eq_ok.mp hs
  have hin : criteria.compose.isInClass = true := by
    rw [Criteria.isInClass, hclass]
    rfl
  refine h.push (i := .constructor criteria _ none []) ⟨hin, ?_, ?_⟩
  · intro r hr
    cases hr
  · intro j hj
    exact absurd hj List.not_mem_nil

theorem Wired.pushCast {type : JavaType} {text : Option String} {inner : List InsertionId}
    {criteria : CriteriaList} (h : s.Wired) (hs : s.pushCast type text inner criteria = .ok s') :
    s'.Wired := by
  obtain ⟨decorated, -, rfl⟩ := pushCast_eq_ok.mp hs
  exact Wired.push (i := .closeParenthesis criteria false)
    (Wired.push (i := .cast criteria decorated false) h trivial) trivial

end Store

end AnnotationPlan
