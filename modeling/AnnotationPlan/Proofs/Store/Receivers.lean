import AnnotationPlan.Proofs.Store.InPlace
import AnnotationPlan.Proofs.Store.Wiring

/-!
# The receiver of a constructor

A constructor has one receiver, whose annotations are those on its receiver parameter
(`Store.receiverTexts?`). All receivers that are attached to it after the first are merged into
that one. The merging reads one insertion and writes another, and the two may be the same: among
the receivers that are attached the first one may come up again, and others may come up more than
once. None of this matters, since what is read of the others never changes, and what is there
already is not written again (`Edit.on_mapM_attachReceiver`).

So for any receivers, attached in any order and however often, the constructor ends up with the
first of them, and that one with its own annotations followed by those that the others bring,
each once (`Edit.attachReceivers_merge`).
-/

namespace AnnotationPlan

namespace Store

/-- The receiver of a constructor. -/
def receiverOf (s : Store) (c : InsertionId) : Option InsertionId :=
  (s.get? c).bind Insertion.receiver?

/-- The annotations on the type of an insertion. -/
def textsAt (s : Store) (id : InsertionId) : Option (List String) :=
  ((s.get? id).bind Insertion.type?).map JavaType.annotations

/-- **The texts on the receiver of a constructor.** -/
def receiverTexts? (s : Store) (c : InsertionId) : Option (List String) :=
  (s.receiverOf c).bind s.textsAt

/-- The annotations of an insertion that is known. -/
theorem textsAt_of_get? {s : Store} {id : InsertionId} {i : Insertion}
    (h : s.get? id = some i) : s.textsAt id = i.type?.map JavaType.annotations := by
  unfold textsAt
  rw [h]
  rfl

/-- A text that is added to the type of an insertion is behind those that are there. -/
theorem textsAt_annotate (s : Store) (id : InsertionId) (text : String) :
    (s.modify id (Insertion.mapType (JavaType.annotate text))).textsAt id
      = (s.textsAt id).map (fun texts => texts ++ [text]) := by
  unfold textsAt
  rw [get?_modify, if_pos rfl]
  cases s.get? id with
  | none => rfl
  | some i =>
    show Option.map _ (i.mapType _).type? = Option.map _ (Option.map _ i.type?)
    rw [type?_mapType, Option.map_map, Option.map_map]
    refine congrArg (fun g => Option.map g _) (funext fun t => ?_)
    exact JavaType.annotations_annotate t text

/-- In a wired store a receiver is one. -/
theorem Wired.get?_receiverOf {s : Store} (h : s.Wired) {c r : InsertionId}
    (hr : s.receiverOf c = some r) :
    ∃ criteria type inner, s.get? r = some (.receiver criteria type inner) := by
  obtain ⟨i, hi, hr⟩ := Option.bind_eq_some_iff.mp hr
  cases i with
  | constructor criteria type receiver declarations =>
    obtain ⟨j, hj, hkind, -⟩ := (h c _ hi).2.1 r hr
    cases j with
    | receiver criteria type inner => exact ⟨criteria, type, inner, hj⟩
    | _ => exact hkind.elim
  | _ => cases hr

/-! ## What others bring -/

/-- The annotations on the type of an insertion, none if there is no type. -/
def textsOf (s : Store) (id : InsertionId) : List String := (s.textsAt id).getD []

/-- The insertions within the type of an insertion. -/
def innerOf (s : Store) (id : InsertionId) : List InsertionId :=
  ((s.get? id).map Insertion.inner).getD []

/-- **What is new to a list in another one**: each once, in order of first occurrence. -/
def newTo {α : Type} [DecidableEq α] (own more : List α) : List α :=
  (more.filter (fun a => a ∉ own)).eraseDups

end Store

namespace Edit

open Store

variable {s s₀ : Store} {c kept : InsertionId} {criteria place : CriteriaList} {type : JavaType}
  {declarations : List InsertionId}

/-- The first receiver. -/
theorem on_attachReceiver_first {id : InsertionId}
    (hc : s.get? c = some (.constructor criteria type none declarations)) :
    (attachReceiver c id).on s
      = (.ok id, s.modify c (fun _ => .constructor criteria type (some id) declarations)) := by
  rw [on_attachReceiver, Store.attachReceiver_first hc]
  rfl

/-- The receiver that is there already. -/
theorem on_attachReceiver_self
    (hc : s.get? c = some (.constructor criteria type (some kept) declarations)) :
    (attachReceiver c kept).on s = (.ok kept, s) := by
  rw [on_attachReceiver, attachReceiver_self hc]
  rfl

/-- A further receiver. -/
theorem on_attachReceiver_merge {id : InsertionId} {place' : CriteriaList} {own added : JavaType}
    {inner more : List InsertionId}
    (hc : s.get? c = some (.constructor criteria type (some kept) declarations))
    (hne : kept ≠ id) (hid : s.get? id = some (.receiver place' added more))
    (hkept : s.get? kept = some (.receiver place own inner)) :
    (attachReceiver c id).on s
      = (.ok kept, s.modify kept (fun _ => .receiver place
          (own.withAnnotations (addMissing own.annotations added.annotations))
          (addMissing inner more))) := by
  rw [on_attachReceiver, attachReceiver_merge hc hne hid hkept]
  rfl

/-- One call before others. -/
theorem on_mapM_cons {α β : Type} {f : α → Edit β} {x : α} {xs : List α} {b : β} {bs : List β}
    {s s' s'' : Store} (hx : (f x).on s = (.ok b, s'))
    (hxs : (xs.mapM f).on s' = (.ok bs, s'')) :
    ((x :: xs).mapM f).on s = (.ok (b :: bs), s'') := by
  rw [List.mapM_cons, on_bind_of_ok hx, on_bind_of_ok hxs]
  rfl

/-- **Receivers merged into the one that the constructor has**, one after another. The calls must
have left alone what they read of the others. -/
theorem on_mapM_attachReceiver :
    ∀ (ids : List InsertionId) {s : Store} {own : JavaType} {inner : List InsertionId},
      s.get? c = some (.constructor criteria type (some kept) declarations) →
      s.get? kept = some (.receiver place own inner) →
      (∀ id ∈ ids, id ≠ kept → s.get? id = s₀.get? id ∧ s₀.Has Insertion.IsReceiver id) →
      (ids.mapM (attachReceiver c)).on s
        = (.ok (ids.map (fun _ => kept)), s.modify kept (fun _ => .receiver place
            (own.withAnnotations (addMissing own.annotations
              ((ids.filter (· ≠ kept)).flatMap s₀.textsOf)))
            (addMissing inner ((ids.filter (· ≠ kept)).flatMap s₀.innerOf))))
  | [], s, own, inner, _, hkept, _ => by
    rw [List.filter_nil, List.flatMap_nil, List.flatMap_nil, addMissing_nil, addMissing_nil,
      JavaType.withAnnotations_annotations, modify_const_self hkept]
    rfl
  | id :: rest, s, own, inner, hc, hkept, hids => by
    obtain ⟨hid, hrest⟩ := List.forall_mem_cons.mp hids
    by_cases hsame : id = kept
    · rw [List.filter_cons_of_neg (by simpa using hsame), hsame]
      exact on_mapM_cons (on_attachReceiver_self hc) (on_mapM_attachReceiver rest hc hkept hrest)
    obtain ⟨hget, i, hi, hreceiver⟩ := hid hsame
    cases i with
    | receiver place' added more =>
      have htexts : s₀.textsOf id = added.annotations := by
        rw [textsOf, textsAt_of_get? hi]
        rfl
      have hinner : s₀.innerOf id = more := by
        rw [innerOf, hi]
        rfl
      have hck : kept ≠ c := by
        rintro rfl
        cases hc.symm.trans hkept
      have hfirst := on_attachReceiver_merge hc (Ne.symm hsame) (hget.trans hi) hkept
      have hkept' := @get?_modify_self s kept _ (fun _ => .receiver place
        (own.withAnnotations (addMissing own.annotations added.annotations))
        (addMissing inner more)) hkept
      -- the receiver has become more, and what is still to be read is as it was
      have hmore := on_mapM_attachReceiver rest ((get?_modify_of_ne hck).trans hc) hkept'
        (fun j hj hne => ⟨(get?_modify_of_ne (Ne.symm hne)).trans (hrest j hj hne).1,
          (hrest j hj hne).2⟩)
      rw [on_mapM_cons hfirst hmore, List.filter_cons_of_pos (by simpa using hsame),
        List.flatMap_cons, List.flatMap_cons, htexts, hinner, addMissing_append,
        addMissing_append, modify_modify_const, JavaType.withAnnotations_withAnnotations,
        JavaType.annotations_withAnnotations]
      rfl
    | _ => exact hreceiver.elim

/-- **Receivers with nothing new** leave everything as it is. -/
theorem on_mapM_attachReceiver_of_subset {ids : List InsertionId} {own : JavaType}
    {inner : List InsertionId}
    (hc : s.get? c = some (.constructor criteria type (some kept) declarations))
    (hkept : s.get? kept = some (.receiver place own inner))
    (hids : ∀ id ∈ ids, id ≠ kept → s.get? id = s₀.get? id ∧ s₀.Has Insertion.IsReceiver id)
    (htexts : ∀ text ∈ (ids.filter (· ≠ kept)).flatMap s₀.textsOf, text ∈ own.annotations)
    (hinner : ∀ id ∈ (ids.filter (· ≠ kept)).flatMap s₀.innerOf, id ∈ inner) :
    (ids.mapM (attachReceiver c)).on s = (.ok (ids.map (fun _ => kept)), s) := by
  rw [on_mapM_attachReceiver ids hc hkept hids, addMissing_of_subset htexts,
    addMissing_of_subset hinner, JavaType.withAnnotations_annotations, modify_const_self hkept]

/-- **The first receiver and those merged into it**, with what has become of the store. -/
theorem on_mapM_attachReceiver_first {first : InsertionId} {rest : List InsertionId}
    {own : JavaType} {inner : List InsertionId}
    (hc : s.get? c = some (.constructor criteria type none declarations))
    (hfirst : s.get? first = some (.receiver place own inner)) (hne : ∀ id ∈ first :: rest, c ≠ id)
    (hreceivers : ∀ id ∈ first :: rest, s.Has Insertion.IsReceiver id) :
    ∃ s', ((first :: rest).mapM (attachReceiver c)).on s
        = (.ok ((first :: rest).map (fun _ => first)), s')
      ∧ s'.get? c = some (.constructor criteria type (some first) declarations)
      ∧ s'.get? first = some (.receiver place
          (own.withAnnotations (addMissing own.annotations
            ((rest.filter (· ≠ first)).flatMap s.textsOf)))
          (addMissing inner ((rest.filter (· ≠ first)).flatMap s.innerOf)))
      ∧ ∀ id, id ≠ c → id ≠ first → s'.get? id = s.get? id := by
  have hcf : c ≠ first := hne first List.mem_cons_self
  have hc' := @get?_modify_self s c _
    (fun _ => .constructor criteria type (some first) declarations) hc
  have hfirst' := @get?_modify_of_ne s c first
    (fun _ => .constructor criteria type (some first) declarations) hcf
  have hrun := on_mapM_cons (on_attachReceiver_first hc)
    (on_mapM_attachReceiver rest hc' (hfirst'.trans hfirst) (fun id hid _ =>
      ⟨get?_modify_of_ne (hne id (List.mem_cons_of_mem first hid)),
        hreceivers id (List.mem_cons_of_mem first hid)⟩))
  refine ⟨_, hrun, ?_, get?_modify_self (hfirst'.trans hfirst), fun id hidc hidf => ?_⟩
  · exact (get?_modify_of_ne hcf.symm).trans hc'
  · exact (get?_modify_of_ne hidf.symm).trans (get?_modify_of_ne hidc.symm)

/-- **Merging receivers.** To a constructor without a receiver any receivers are attached, one
after another and some perhaps more than once. Every call succeeds and answers the first of them.
Then the constructor has the first one as its receiver, with its own annotations followed by those
of the others that are new to it, and likewise for the insertions within its type; nothing else has
changed. Attaching them all again changes nothing. -/
theorem attachReceivers_merge {first : InsertionId} {rest : List InsertionId}
    (hc : s.get? c = some (.constructor criteria type none declarations))
    (hreceivers : ∀ id ∈ first :: rest, s.Has Insertion.IsReceiver id) :
    ∃ s' place own inner,
      s.get? first = some (.receiver place own inner)
      ∧ ((first :: rest).mapM (attachReceiver c)).on s
        = (.ok ((first :: rest).map (fun _ => first)), s')
      ∧ s'.get? c = some (.constructor criteria type (some first) declarations)
      ∧ s'.get? first = some (.receiver place
          (own.withAnnotations (own.annotations
            ++ newTo own.annotations ((rest.filter (· ≠ first)).flatMap s.textsOf)))
          (inner ++ newTo inner ((rest.filter (· ≠ first)).flatMap s.innerOf)))
      ∧ (∀ id, id ≠ c → id ≠ first → s'.get? id = s.get? id)
      ∧ ((first :: rest).mapM (attachReceiver c)).on s'
        = (.ok ((first :: rest).map (fun _ => first)), s') := by
  have hne : ∀ id ∈ first :: rest, c ≠ id := by
    rintro id hid rfl
    obtain ⟨j, hj, hreceiver⟩ := hreceivers c hid
    cases hc.symm.trans hj
    exact hreceiver
  obtain ⟨i, hi, hreceiver⟩ := hreceivers first List.mem_cons_self
  cases i with
  | receiver place own inner =>
    obtain ⟨s', hrun, hc', hfirst, hframe⟩ := on_mapM_attachReceiver_first hc hi hne hreceivers
    refine ⟨s', place, own, inner, hi, hrun, hc', ?_, hframe, ?_⟩
    · rw [hfirst, addMissing_eq_append, addMissing_eq_append]
      rfl
    · -- the first receiver has everything already, and the others are as they were
      have hids : ∀ id ∈ first :: rest, id ≠ first →
          s'.get? id = s.get? id ∧ s.Has Insertion.IsReceiver id :=
        fun id hid hidf => ⟨hframe id (hne id hid).symm hidf, hreceivers id hid⟩
      have hrest : (first :: rest).filter (· ≠ first) = rest.filter (· ≠ first) :=
        List.filter_cons_of_neg (by simp)
      refine on_mapM_attachReceiver_of_subset hc' hfirst hids (fun text h => ?_) (fun id h => ?_)
      · rw [JavaType.annotations_withAnnotations]
        exact mem_addMissing.mpr (Or.inr (hrest ▸ h))
      · exact mem_addMissing.mpr (Or.inr (hrest ▸ h))
  | _ => exact hreceiver.elim

/-- A constructor and three receivers that share annotations and what is within their types. -/
def sharing : Store :=
  Operation.performAll [.single "@X" .empty false, .single "@Y" .empty false,
    .constructor (.ofList [.inClass "a.C" true]), .receiver (some "@A") .empty [0],
    .receiver (some "@B") .empty [1, 0], .receiver (some "@A") .empty [1], .annotate 5 "@C"] .empty

/-- The first receiver comes up again, and so does another one. -/
theorem sharing_merge :
    sharing.receiverOf 2 = none ∧ (∀ id ∈ [3, 4, 3, 5, 4], sharing.Has Insertion.IsReceiver id)
    ∧ ∃ s', ([3, 4, 3, 5, 4].mapM (attachReceiver 2)).on sharing = (.ok [3, 3, 3, 3, 3], s')
      ∧ s'.receiverOf 2 = some 3 ∧ s'.textsAt 3 = some ["@A", "@B", "@C"]
      ∧ s'.innerOf 3 = [0, 1] ∧ (∀ id, id ≠ 2 → id ≠ 3 → s'.get? id = sharing.get? id)
      ∧ ([3, 4, 3, 5, 4].mapM (attachReceiver 2)).on s' = (.ok [3, 3, 3, 3, 3], s') := by
  have hreceivers : ∀ id ∈ [3, 4, 3, 5, 4], sharing.Has Insertion.IsReceiver id := by
    intro id hid
    simp only [List.mem_cons, List.not_mem_nil, or_false] at hid
    rcases hid with rfl | rfl | rfl | rfl | rfl <;> exact ⟨_, rfl, trivial⟩
  obtain ⟨s', place, own, inner, hfirst, hrun, hc, hkept, hframe, hagain⟩ :=
    @attachReceivers_merge sharing 2 _ _ _ 3 [4, 3, 5, 4] rfl hreceivers
  cases hfirst
  refine ⟨rfl, hreceivers, s', hrun, ?_, ?_, ?_, hframe, hagain⟩
  · rw [receiverOf, hc]
    rfl
  · rw [textsAt_of_get? hkept]
    rfl
  · rw [innerOf, hkept]
    rfl

end Edit

end AnnotationPlan
