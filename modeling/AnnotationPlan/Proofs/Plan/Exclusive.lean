import AnnotationPlan.Proofs.Plan.Visits
import Mathlib.Data.List.Nodup

/-!
# Nothing is written twice

An insertion that is in the output is written there, one that is attached to a
constructor (`Store.attached`) is written with it, and one that was written into a cast
is written with that. No insertion is in two of these places, and in none of them twice.

To see this one counts: `Work.uses` is how often an insertion is in the output, in hand,
attached, or written into a cast. Insertions are made into the hand, or into the output,
and every step from there takes from one place what it gives to another, so that the
count never exceeds one (`Step.exclusive`). What the program does along the way – putting
an annotation into the output, and taking it out again when the constructor absorbs
it – never shows between steps.
-/

namespace AnnotationPlan

/-- **What is attached to an insertion**: the receiver of a constructor and the
annotations above it. -/
def Insertion.attached (i : Insertion) : List InsertionId :=
  i.receiver?.toList ++ i.declarations

@[simp] theorem Insertion.attached_mapType (f : JavaType → JavaType) (i : Insertion) :
    (i.mapType f).attached = i.attached := by
  cases i <;> rfl

namespace Store

variable {s s' : Store} {id c : InsertionId} {i : Insertion} {f : Insertion → Insertion}

/-- **All that is attached to insertions**, as often as it is. -/
def attached (s : Store) : List InsertionId :=
  s.insertions.toList.flatMap Insertion.attached

@[simp] theorem attached_push (s : Store) (i : Insertion) :
    (s.push i).attached = s.attached ++ i.attached := by
  simp [attached, push]

/-- Changing one member of a list changes the count by what it changes for the member. -/
theorem count_flatMap_modify (j : InsertionId) :
    ∀ {l : List Insertion} {c : Nat} {i : Insertion}, l[c]? = some i →
      ((l.modify c f).flatMap Insertion.attached).count j + i.attached.count j
        = (l.flatMap Insertion.attached).count j + (f i).attached.count j
  | k :: rest, 0, i, h => by
    obtain rfl : k = i := by simpa using h
    simp only [List.modify_zero_cons, List.flatMap_cons, List.count_append]
    omega
  | k :: rest, c + 1, i, h => by
    have ih := count_flatMap_modify j (l := rest) (c := c) (by simpa using h)
    simp only [List.modify_succ_cons, List.flatMap_cons, List.count_append]
    omega

/-- **Changing an insertion** changes what is attached by what is attached to it. -/
theorem count_attached_modify (h : s.get? c = some i) (j : InsertionId) :
    (s.modify c f).attached.count j + i.attached.count j
      = s.attached.count j + (f i).attached.count j := by
  unfold attached modify
  rw [Array.toList_modify]
  exact count_flatMap_modify j (by rwa [Array.getElem?_toList])

/-- A type annotation attaches nothing. -/
theorem count_attached_addTypeAnnotation {text : String}
    (h : s.addTypeAnnotation id text = .ok s') (j : InsertionId) :
    s'.attached.count j = s.attached.count j := by
  obtain ⟨i, hi, -, rfl⟩ := addTypeAnnotation_eq_ok.mp h
  have hcount := count_attached_modify (f := Insertion.mapType (JavaType.annotate text)) hi j
  rw [Insertion.attached_mapType] at hcount
  exact Nat.add_right_cancel hcount

/-- **Attaching a receiver** attaches it at most. -/
theorem count_attached_attachReceiver {kept : InsertionId}
    (h : s.attachReceiver c id = .ok (s', kept)) (j : InsertionId) :
    s'.attached.count j ≤ s.attached.count j + [id].count j := by
  obtain ⟨criteria, type, receiver, declarations, hc, hcases⟩ := attachReceiver_cases h
  obtain ⟨rfl, -, rfl⟩ | ⟨-, -, rfl⟩ | ⟨keptCriteria, keptType, keptInner, place, added, inner,
    -, -, hkept, -, rfl⟩ := hcases
  · have hcount := count_attached_modify (j := j)
      (f := fun _ => .constructor criteria type (some id) declarations) hc
    simp only [Insertion.attached, Insertion.receiver?, Insertion.declarations,
      Option.toList_none, Option.toList_some, List.nil_append, List.count_append] at hcount
    omega
  · exact Nat.le_add_right _ _
  · have hcount := count_attached_modify (j := j)
      (f := fun _ => .receiver keptCriteria
        (keptType.withAnnotations (addMissing keptType.annotations added.annotations))
        (addMissing keptInner inner)) hkept
    exact Nat.le_trans (Nat.le_of_eq (Nat.add_right_cancel hcount)) (Nat.le_add_right _ _)

end Store

/-- **How often an insertion is somewhere**: in the output, in hand, attached to a
constructor, or written into a cast. -/
def Work.uses (w : Work) (id : InsertionId) : Nat :=
  w.draft.placed.count id + w.hand.count id + w.draft.store.attached.count id
    + (w.written.map Prod.fst).count id

/-- **Nothing is in two places**: every insertion is somewhere at most once, and numbers
that no insertion has are nowhere. -/
def Work.Exclusive (w : Work) : Prop :=
  ∀ id, w.uses id ≤ 1 ∧ (w.draft.store.size ≤ id → w.uses id = 0)

/-- A step that makes nothing and uses nothing more often keeps things apart. -/
theorem Work.Exclusive.of_le {w w' : Work} (h : w.Exclusive)
    (hsize : w'.draft.store.size = w.draft.store.size) (huses : ∀ id, w'.uses id ≤ w.uses id) :
    w'.Exclusive := by
  intro id
  refine ⟨Nat.le_trans (huses id) (h id).1, fun hid => ?_⟩
  exact Nat.le_zero.mp (Nat.le_trans (huses id) (Nat.le_of_eq ((h id).2 (hsize ▸ hid))))

/-- **A step that makes insertions** keeps things apart if it uses them once and nothing
else more often. -/
theorem Work.Exclusive.of_new {w w' : Work} (h : w.Exclusive) (made : List InsertionId)
    (hmade : made.Nodup)
    (hnew : ∀ id ∈ made, w.draft.store.size ≤ id ∧ id < w'.draft.store.size)
    (hsize : w.draft.store.size ≤ w'.draft.store.size)
    (huses : ∀ id, w'.uses id = w.uses id + made.count id) : w'.Exclusive := by
  intro id
  rw [huses id]
  by_cases hid : id ∈ made
  · have hzero := (h id).2 (hnew id hid).1
    have hone := List.nodup_iff_count_le_one.mp hmade id
    exact ⟨by omega, fun hle => absurd (hnew id hid).2 (Nat.not_lt.mpr hle)⟩
  · rw [List.count_eq_zero.mpr hid]
    exact ⟨(h id).1, fun hle => (h id).2 (Nat.le_trans hsize hle)⟩

/-- An insertion that is made is used once: it is taken in hand. -/
theorem Work.Exclusive.push {d d' : Draft} {hand : List InsertionId}
    {written : List (InsertionId × InsertionId)} {i : Insertion}
    (h : Work.Exclusive ⟨d, hand, written⟩) (hi : i.attached = [])
    (hstore : d'.store = d.store.push i) (hplaced : d'.placed = d.placed) :
    Work.Exclusive ⟨d', hand ++ [d.store.size], written⟩ := by
  have hsize : d'.store.size = d.store.size + 1 := by rw [hstore, Store.size_push]
  refine h.of_new [d.store.size] (List.nodup_singleton _) ?_ ?_ (fun id => ?_)
  · exact List.forall_mem_singleton.mpr ⟨Nat.le_refl _, hsize ▸ Nat.lt_succ_self _⟩
  · exact hsize ▸ Nat.le_succ _
  · simp only [Work.uses, hstore, hplaced, Store.attached_push, hi, List.append_nil,
      List.count_append]
    omega

namespace Step

variable {ctx : Context} {p : Spot} {base : Nat} {className : Option String} {w w' : Work}

/-- **No step uses anything twice.** -/
theorem exclusive (h : Step ctx p base w w') (hd : w.draft.Sound className)
    (hw : w.Exclusive) : w'.Exclusive := by
  cases h with
  | single n form note => exact hw.push rfl rfl rfl
  | receiver text inner form within => exact hw.push rfl rfl rfl
  | new text inner form within => exact hw.push rfl rfl rfl
  | @cast d hand inner written store type text form within made =>
    obtain ⟨decorated, -, rfl⟩ := Store.pushCast_eq_ok.mp made
    refine hw.of_new [d.store.size, d.store.size + 1] (by simp) ?_ ?_ (fun id => ?_)
    · simp only [Store.size_push]
      refine List.forall_mem_cons.mpr ⟨⟨Nat.le_refl _, Nat.lt_add_of_pos_right Nat.zero_lt_two⟩, ?_⟩
      exact List.forall_mem_singleton.mpr ⟨Nat.le_succ _, Nat.lt_succ_self _⟩
    · simp only [Store.size_push]
      exact Nat.le_add_right _ 2
    · have hfst : (inner.map (fun j => (j, d.store.size))).map Prod.fst = inner := by
        rw [List.map_map]
        exact List.map_id inner
      simp only [Work.uses, Store.attached_push, Insertion.attached, Insertion.receiver?,
        Insertion.declarations, Option.toList_none, List.append_nil, List.map_append, hfst,
        List.count_append]
      omega
  | record id n known => exact hw
  | @construct d hand written store n note on none made =>
    obtain ⟨name, -, rfl⟩ := Store.pushConstructor_eq_ok.mp made
    refine hw.of_new [d.store.size] (List.nodup_singleton _) ?_ ?_ (fun id => ?_)
    · exact List.forall_mem_singleton.mpr ⟨Nat.le_refl _, by simp [Draft.place]⟩
    · simp [Draft.place]
    · simp only [Work.uses, Draft.place, List.reverse_singleton, Store.attached_push,
        Insertion.attached, Insertion.receiver?, Insertion.declarations, Option.toList_none,
        List.append_nil, List.count_append]
      omega
  | place ids paired =>
    refine hw.of_le rfl (fun id => ?_)
    simp only [Work.uses, Draft.place, List.count_append, List.count_reverse]
    omega
  | fold n note on result single constructor made =>
    refine hw.of_le (Store.size_addTypeAnnotation made) (fun id => ?_)
    simp only [Work.uses, List.count_append, Store.count_attached_addTypeAnnotation made]
    omega
  | declare n ids note on declaration kind paired constructor made =>
    obtain ⟨criteria, type, receiver, declarations, hc, -, rfl⟩ := hd.declare_spec constructor made
    refine hw.of_le (Store.size_modify _ _ _) (fun id => ?_)
    -- what leaves the hand is attached instead
    have hcount := Store.count_attached_modify (j := id)
      (f := fun _ => .constructor criteria type receiver (declarations ++ ids)) hc
    simp only [Insertion.attached, Insertion.receiver?, Insertion.declarations,
      List.count_append] at hcount
    simp only [Work.uses, List.count_append]
    omega
  | receive on form kind constructor made =>
    obtain ⟨⟨kept, hattach⟩, hplaced, -⟩ := Draft.absorbReceiver_spec made
    refine hw.of_le (Store.size_attachReceiver hattach) (fun id => ?_)
    have hcount := Store.count_attached_attachReceiver hattach id
    simp only [Work.uses, List.count_append, hplaced]
    omega
  | annotate n note new kind made =>
    obtain ⟨hstore, hplaced, -⟩ := Draft.addNote_spec made
    refine hw.of_le (Store.size_addTypeAnnotation hstore) (fun id => ?_)
    simp only [Work.uses, hplaced, Store.count_attached_addTypeAnnotation hstore]
    omega

end Step

/-- **Nothing is ever in two places** in a run. -/
theorem Work.exclusive_invariant : Invariant Work.Exclusive where
  empty := fun _ => ⟨Nat.zero_le _, fun _ => rfl⟩
  start := fun _ h => h
  step := fun _ hd h hw => h.exclusive hd hw

/-- **What is attached to an insertion is in the class of the insertion.** -/
theorem Store.Wired.className?_attached {s : Store} (h : s.Wired) {c j : InsertionId}
    {i : Insertion} (hi : s.get? c = some i) (hj : j ∈ i.attached) :
    s.Has (fun k => k.className? = i.className?) j := by
  have hwired := h c i hi
  cases i with
  | constructor criteria type receiver declarations =>
    rcases List.mem_append.mp hj with hj | hj
    · exact (hwired.2.1 j (Option.mem_toList.mp hj)).imp (fun _ h => ⟨h.1, h.2.2⟩)
    · exact (hwired.2.2 j hj).imp (fun _ h => ⟨h.1, h.2.2⟩)
  | _ => exact absurd hj List.not_mem_nil

/-- **Nothing is written twice.** At the end of a run no insertion is in the output twice,
none in the output is attached to a constructor, no insertion is attached twice, what is
attached is in the class of what it is attached to, and no annotation that was written
into a cast is in the output. -/
theorem Plan.ofSceneWith_exclusive {policy : NamePolicy} {scene : Scene}
    {lookup : ConstructorLookup} {settings : Settings} {plan : Plan}
    (h : Plan.ofSceneWith policy scene lookup settings = .ok plan) :
    plan.order.Nodup
    ∧ (∀ id ∈ plan.order, id ∉ plan.store.attached)
    ∧ plan.store.attached.Nodup
    ∧ (∀ c i, plan.store.get? c = some i → ∀ j ∈ i.attached,
        plan.store.Has (fun k => k.className? = i.className?) j)
    ∧ ∀ v ∈ Plan.visits policy scene lookup settings, v.castId?.isSome = true →
        ∀ id ∈ v.within, id ∉ plan.order := by
  obtain ⟨d, className, hstore, horder, hd, -, hw⟩ :=
    (Plan.visits_yields Work.exclusive_invariant policy scene lookup settings).of_ok h
  rw [hstore, horder]
  have huses : ∀ id, d.placed.count id + d.store.attached.count id
      + (((Plan.visits policy scene lookup settings).flatMap Visit.written).map
          Prod.fst).count id ≤ 1 := by
    intro id
    have hone := (hw id).1
    simpa [Work.uses] using hone
  refine ⟨?_, fun id hid hattached => ?_, ?_, fun c i hi j hj => hd.wired.className?_attached hi hj,
    fun v hv hcast id hid hplaced => ?_⟩
  · refine List.nodup_reverse.mpr (List.nodup_iff_count_le_one.mpr (fun id => ?_))
    have hone := huses id
    omega
  · have hone := huses id
    have hplaced := List.count_pos_iff.mpr (List.mem_reverse.mp hid)
    have hattached := List.count_pos_iff.mpr hattached
    omega
  · refine List.nodup_iff_count_le_one.mpr (fun id => ?_)
    have hone := huses id
    omega
  · obtain ⟨c, hc⟩ := Option.isSome_iff_exists.mp hcast
    have hmem : (id, c) ∈ (Plan.visits policy scene lookup settings).flatMap Visit.written :=
      List.mem_flatMap.mpr ⟨v, hv, Visit.mem_written.mpr ⟨hc, hid⟩⟩
    have hone := huses id
    have hplaced := List.count_pos_iff.mpr (List.mem_reverse.mp hplaced)
    have hwritten := List.count_pos_iff.mpr (List.mem_map_of_mem (f := Prod.fst) hmem)
    dsimp only at hwritten
    omega

/-- In the sample nothing is written twice. -/
theorem Plan.sample_exclusive :
    ∃ plan, Plan.ofSceneWith ⟨[]⟩ Scene.sample .implicit {} = .ok plan
      ∧ plan.order.Nodup
      ∧ (∀ id ∈ plan.order, id ∉ plan.store.attached)
      ∧ plan.store.attached.Nodup
      ∧ (∀ c i, plan.store.get? c = some i → ∀ j ∈ i.attached,
          plan.store.Has (fun k => k.className? = i.className?) j)
      ∧ ∀ v ∈ Plan.visits ⟨[]⟩ Scene.sample .implicit {}, v.castId?.isSome = true →
          ∀ id ∈ v.within, id ∉ plan.order :=
  ⟨_, rfl, Plan.ofSceneWith_exclusive rfl⟩

end AnnotationPlan
