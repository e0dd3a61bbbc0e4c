import AnnotationPlan.Insertion.InPlace
import AnnotationPlan.Proofs.JavaType.Growth
import AnnotationPlan.Proofs.Store.Operations

/-!
# Operations in place are all or nothing

Steps on a store in place keep what they have written when a later one fails
(`Edit.on_bind_of_ok`, `Edit.on_bind_of_error`), so what an operation leaves behind depends on
the order of its steps. Every operation first looks up all that it needs to know, and a cast puts
its type together beside the store; from the first thing that is written on nothing can fail any
more. So an operation that fails leaves the store exactly as it was
(`Operation.unchanged_of_error`).

What the operations come to is known for whole stores: there an operation answers a new store or
an error. In place it does the same, with the old store beside the error
(`Operation.on_perform`). All that has to be looked into for this is the merging of one receiver
into another, which writes many times; each time the receiver is still there, with what was
written before (`Store.foldl_addText`, `Store.foldl_addInner`).
-/

namespace AnnotationPlan

/-! ## Merging, one by one -/

namespace Store

variable {id : InsertionId} {criteria : CriteriaList}

/-- **Annotations added to a receiver one by one** are those that it did not have. -/
theorem foldl_addText {inner : List InsertionId} :
    ∀ (texts : List String) {s : Store} {type : JavaType},
      s.get? id = some (.receiver criteria type inner) →
      texts.foldl (fun s text => s.modify id (Insertion.addText text)) s
        = s.modify id (fun _ => .receiver criteria
            (type.withAnnotations (addMissing type.annotations texts)) inner)
  | [], s, type, h => by
    rw [addMissing_nil, JavaType.withAnnotations_annotations, modify_const_self h]
    rfl
  | text :: rest, s, type, h => by
    have hadd : Insertion.addText text (.receiver criteria type inner)
        = .receiver criteria (type.withAnnotations (addMissing type.annotations [text])) inner := by
      show Insertion.receiver criteria (if text ∈ type.annotations then type else _) inner = _
      rw [addMissing_cons, addMissing_nil]
      split
      · rw [JavaType.withAnnotations_annotations]
      · rfl
    rw [List.foldl_cons, modify_eq_const h, hadd, foldl_addText rest (get?_modify_self h),
      modify_modify_const, JavaType.withAnnotations_withAnnotations,
      JavaType.annotations_withAnnotations]
    rfl

/-- **Insertions added within a receiver one by one** are those that it did not have. -/
theorem foldl_addInner {type : JavaType} :
    ∀ (ids : List InsertionId) {s : Store} {inner : List InsertionId},
      s.get? id = some (.receiver criteria type inner) →
      ids.foldl (fun s j => s.modify id (Insertion.addInner j)) s
        = s.modify id (fun _ => .receiver criteria type (addMissing inner ids))
  | [], s, inner, h => by
    rw [addMissing_nil, modify_const_self h]
    rfl
  | j :: rest, s, inner, h => by
    rw [List.foldl_cons, modify_eq_const h, Insertion.addInner,
      foldl_addInner rest (get?_modify_self h), modify_modify_const]
    rfl

end Store

/-! ## Steps -/

namespace Edit

variable {α β : Type} {s s' : Store}

@[simp] theorem on_lift (r : Except PlanError α) (s : Store) :
    (liftM r : Edit α).on s = (r, s) := rfl

@[simp] theorem on_get (f : Store → Edit β) (s : Store) : (get >>= f).on s = (f s).on s := rfl

@[simp] theorem on_lookup (id : InsertionId) (s : Store) :
    (lookup id).on s = (s.lookup id, s) := rfl

@[simp] theorem on_push (i : Insertion) (s : Store) :
    (push i).on s = (.ok s.size, s.push i) := rfl

@[simp] theorem on_change (id : InsertionId) (f : Insertion → Insertion) (s : Store) :
    (change id f).on s = (.ok (), s.modify id f) := rfl

theorem on_bind (m : Edit α) (f : α → Edit β) (s : Store) :
    (m >>= f).on s = match m.on s with
      | (.ok a, s') => (f a).on s'
      | (.error e, s') => (.error e, s') := by
  show (ExceptT.bindCont f (m.on s).1).run (m.on s).2 = _
  rcases m.on s with ⟨_ | _, s'⟩ <;> rfl

/-- **What comes next** sees the store that was left behind. -/
theorem on_bind_of_ok {m : Edit α} {a : α} (h : m.on s = (.ok a, s')) (f : α → Edit β) :
    (m >>= f).on s = (f a).on s' := by
  rw [on_bind, h]

/-- **Nothing comes after a step that fails**, and nothing is taken back. -/
theorem on_bind_of_error {m : Edit α} {e : PlanError} (h : m.on s = (.error e, s'))
    (f : α → Edit β) : (m >>= f).on s = (.error e, s') := by
  rw [on_bind, h]

/-- A number that leads nowhere. -/
theorem on_lookup_of_error {id : InsertionId} {e : PlanError} (h : s.lookup id = .error e) :
    (lookup id).on s = (.error e, s) := by
  rw [on_lookup, h]

/-- Changes one after another. -/
theorem on_forM_change {ι : Type} (id : InsertionId) (f : ι → Insertion → Insertion) :
    ∀ (xs : List ι) (s : Store), (xs.forM (fun x => change id (f x))).on s
      = (.ok (), xs.foldl (fun s x => s.modify id (f x)) s)
  | [], _ => rfl
  | x :: rest, s => on_forM_change id f rest (s.modify id (f x))

/-- **What a computation on whole stores comes to in place**: its new store, or else the old
one. -/
def settle (s : Store) : Except PlanError (α × Store) → Except PlanError α × Store
  | .ok (a, s') => (.ok a, s')
  | .error e => (.error e, s)

/-- Where whole stores are computed, an error leaves the old one. -/
theorem eq_of_settle_error {r : Except PlanError (α × Store)} {e : PlanError}
    (h : settle s r = (.error e, s')) : s' = s := by
  cases r with
  | ok a => cases h
  | error e' => exact (congrArg Prod.snd h).symm

/-! ## Operations -/

theorem on_pushCast (type : JavaType) (text : Option String) (inner : List InsertionId)
    (criteria : CriteriaList) (s : Store) :
    (pushCast type text inner criteria).on s
      = settle s ((s.pushCast type text inner criteria).map
          (fun s' => ([s.size, s.size + 1], s'))) := by
  unfold pushCast Store.pushCast
  rw [on_get]
  cases s.decorate criteria type inner (Store.annotated text type) with
  | ok decorated =>
    rw [on_bind_of_ok (on_lift _ s), on_bind_of_ok (on_push _ s), on_bind_of_ok (on_push _ _),
      Store.size_push]
    rfl
  | error e => rfl

theorem on_pushConstructor (criteria : CriteriaList) (s : Store) :
    (pushConstructor criteria).on s
      = settle s ((s.pushConstructor criteria).map (fun s' => (s.size, s'))) := by
  unfold pushConstructor Store.pushConstructor
  cases criteria.compose.className? <;> rfl

theorem on_annotate (id : InsertionId) (text : String) (s : Store) :
    (annotate id text).on s
      = settle s ((s.addTypeAnnotation id text).map (fun s' => ((), s'))) := by
  cases hi : s.lookup id with
  | error e =>
    unfold annotate Store.addTypeAnnotation
    rw [on_bind_of_error (on_lookup_of_error hi), hi]
    rfl
  | ok i =>
    unfold annotate Store.addTypeAnnotation
    rw [on_bind, on_lookup, hi]
    dsimp only [bind, Except.bind]
    cases i.type? <;> rfl

/-- A number that a constructor has leads to it. -/
theorem on_lookupConstructor {c : InsertionId} {criteria : CriteriaList} {type : JavaType}
    {receiver : Option InsertionId} {declarations : List InsertionId}
    (hc : s.get? c = some (.constructor criteria type receiver declarations)) :
    (lookupConstructor c).on s = (.ok (.constructor criteria type receiver declarations), s) := by
  unfold lookupConstructor
  rw [on_bind, on_lookup, Store.lookup_eq_ok.mpr hc]
  rfl

theorem on_attachDeclaration (c id : InsertionId) (s : Store) :
    (attachDeclaration c id).on s
      = settle s ((s.attachDeclaration c id).map (fun s' => ((), s'))) := by
  unfold attachDeclaration
  cases hi : s.lookup c with
  | error e =>
    unfold lookupConstructor Store.attachDeclaration
    rw [on_bind_of_error (on_bind_of_error (on_lookup_of_error hi) _), hi]
    rfl
  | ok i =>
    cases i with
    | constructor criteria type receiver declarations =>
      have hc := Store.lookup_eq_ok.mp hi
      rw [on_bind_of_ok (on_lookupConstructor hc), on_change, Store.modify_eq_const hc,
        Store.attachDeclaration_eq_ok.mpr ⟨criteria, type, receiver, declarations, hc, rfl⟩]
      rfl
    | _ =>
      unfold lookupConstructor Store.attachDeclaration
      rw [on_bind, on_bind, on_lookup, hi]
      rfl

/-- **Merging into a receiver** adds what it did not have. -/
theorem on_mergeInto {kept : InsertionId} {criteria : CriteriaList} {type : JavaType}
    {inner : List InsertionId} (hkept : s.get? kept = some (.receiver criteria type inner))
    (added : JavaType) (more : List InsertionId) :
    (mergeInto kept added more).on s
      = (.ok (), s.modify kept (fun _ => .receiver criteria
          (type.withAnnotations (Store.addMissing type.annotations added.annotations))
          (Store.addMissing inner more))) := by
  unfold mergeInto
  -- the annotations come first, so the insertions find a receiver that has them
  rw [on_bind_of_ok (on_forM_change _ _ _ s), on_forM_change, Store.foldl_addText _ hkept,
    Store.foldl_addInner _ (Store.get?_modify_self hkept), Store.modify_modify_const]

/-- **A constructor that has a receiver** keeps it, and the other one has to be a receiver that
can be merged into it. -/
theorem on_attachReceiver_of_kept {c r kept : InsertionId} {criteria : CriteriaList}
    {type : JavaType} {declarations : List InsertionId}
    (hc : s.get? c = some (.constructor criteria type (some kept) declarations)) :
    (attachReceiver c r).on s = settle s ((s.attachReceiver c r).map Prod.swap) := by
  unfold attachReceiver Store.attachReceiver
  rw [on_bind_of_ok (on_lookupConstructor hc), Store.lookup_eq_ok.mpr hc]
  show Edit.on (if kept = r then _ else _) s = settle s (Except.map _ (if kept = r then _ else _))
  by_cases hsame : kept = r
  · rw [if_pos hsame, if_pos hsame]
    rfl
  rw [if_neg hsame, if_neg hsame, on_bind, on_lookup]
  -- the other receiver and then the one that is kept are looked up, and nothing fails behind that
  cases s.lookup r with
  | error e => rfl
  | ok j =>
    cases j with
    | receiver place added inner =>
      show Edit.on (get >>= _) s = _
      rw [on_get]
      cases hkept : s.get? kept with
      | none => rfl
      | some k =>
        cases k with
        | receiver keptCriteria keptType keptInner =>
          show Edit.on (mergeInto kept added inner >>= _) s = _
          rw [on_bind_of_ok (on_mergeInto hkept added inner)]
          rfl
        | _ => rfl
    | _ => rfl

theorem on_attachReceiver (c r : InsertionId) (s : Store) :
    (attachReceiver c r).on s = settle s ((s.attachReceiver c r).map Prod.swap) := by
  cases hi : s.lookup c with
  | error e =>
    unfold attachReceiver lookupConstructor Store.attachReceiver
    rw [on_bind_of_error (on_bind_of_error (on_lookup_of_error hi) _), hi]
    rfl
  | ok i =>
    cases i with
    | constructor criteria type receiver declarations =>
      have hc := Store.lookup_eq_ok.mp hi
      cases receiver with
      | none =>
        unfold attachReceiver
        rw [on_bind_of_ok (on_lookupConstructor hc), Store.attachReceiver_first hc]
        show Edit.on (change c _ >>= _) s = _
        rw [on_bind_of_ok (on_change c _ s), Store.modify_eq_const hc]
        rfl
      | some kept => exact on_attachReceiver_of_kept hc
    | _ =>
      unfold attachReceiver lookupConstructor Store.attachReceiver
      rw [on_bind, on_bind, on_lookup, hi]
      rfl

/-- A last step that only puts the answer into another form. -/
theorem on_bind_pure {m : Edit α} {r : Except PlanError (α × Store)} (h : m.on s = settle s r)
    (f : α → β) : (m >>= fun a => pure (f a)).on s = settle s (r.map (Prod.map f id)) := by
  rw [on_bind, h]
  cases r <;> rfl

end Edit

namespace Operation

open Edit (settle)

/-- **What an operation comes to on whole stores**: its answer and a new store, or an error. -/
def apply (s : Store) : Operation → Except PlanError (List InsertionId × Store)
  | single text criteria separateLine => .ok ([s.size], s.push (.single text criteria separateLine))
  | cast type text inner criteria =>
    (s.pushCast type text inner criteria).map (fun s' => ([s.size, s.size + 1], s'))
  | receiver text criteria inner => .ok ([s.size], s.pushReceiver text criteria inner)
  | new text criteria inner => .ok ([s.size], s.pushNew text criteria inner)
  | constructor criteria => (s.pushConstructor criteria).map (fun s' => ([s.size], s'))
  | annotate id text => (s.addTypeAnnotation id text).map (fun s' => ([], s'))
  | attachReceiver c r => (s.attachReceiver c r).map (fun e => ([e.2], e.1))
  | attachDeclaration c id => (s.attachDeclaration c id).map (fun s' => ([], s'))

/-- **In place an operation does what it does on whole stores**, and leaves the old store where
it fails. -/
theorem on_perform (op : Operation) (s : Store) : op.perform.on s = settle s (op.apply s) := by
  cases op with
  | single text criteria separateLine => rfl
  | cast type text inner criteria => exact Edit.on_pushCast type text inner criteria s
  | receiver text criteria inner => rfl
  | new text criteria inner => rfl
  | constructor criteria =>
    refine (Edit.on_bind_pure (Edit.on_pushConstructor criteria s) (fun id => [id])).trans ?_
    show _ = settle s ((s.pushConstructor criteria).map _)
    cases s.pushConstructor criteria <;> rfl
  | annotate id text =>
    refine (Edit.on_bind_pure (Edit.on_annotate id text s) (fun _ => [])).trans ?_
    show _ = settle s ((s.addTypeAnnotation id text).map _)
    cases s.addTypeAnnotation id text <;> rfl
  | attachReceiver c r =>
    refine (Edit.on_bind_pure (Edit.on_attachReceiver c r s) (fun id => [id])).trans ?_
    show _ = settle s ((s.attachReceiver c r).map _)
    cases s.attachReceiver c r <;> rfl
  | attachDeclaration c id =>
    refine (Edit.on_bind_pure (Edit.on_attachDeclaration c id s) (fun _ => [])).trans ?_
    show _ = settle s ((s.attachDeclaration c id).map _)
    cases s.attachDeclaration c id <;> rfl

/-- **Operations are all or nothing.** Whatever store an operation is performed on and whatever it
is given – numbers of insertions of the wrong kind or of none, paths that lead out of a type,
criteria that name no class –, if it answers an error then the store is what it was before. -/
theorem unchanged_of_error {op : Operation} {s s' : Store} {e : PlanError}
    (h : op.perform.on s = (.error e, s')) : s' = s := by
  rw [on_perform] at h
  exact Edit.eq_of_settle_error h

/-- A constructor with an annotation in the place of its receiver, and a receiver besides. -/
def misled : Store :=
  performAll [.constructor (.ofList [.inClass "a.C" true]), .single "@A" .empty false,
    .single "@B" (.ofList [.atLocation ⟨[.array]⟩]) false, .attachReceiver 0 1,
    .receiver (some "@R") .empty []] .empty

/-- A receiver that cannot be merged into an annotation, and a cast with an annotation that it has
no position for. -/
theorem misled_unchanged :
    (∃ s', (attachReceiver 0 3).perform.on misled
        = (.error (.invariant CriteriaList.empty.text
            ("constructor receiver " ++ Nat.repr 1 ++ " is not a receiver")), s')
      ∧ s' = misled)
    ∧ ∃ s', (cast (.named "T") (some "@A") [2] .empty).perform.on misled
        = (.error (.typePathMismatch (TypePath.text ⟨[.array]⟩) (JavaType.text (.named "T"))
            CriteriaList.empty.text), s')
      ∧ s' = misled :=
  ⟨⟨_, rfl, @unchanged_of_error (attachReceiver 0 3) misled _ _ rfl⟩,
    _, rfl, @unchanged_of_error (cast (.named "T") (some "@A") [2] .empty) misled _ _ rfl⟩

end Operation

end AnnotationPlan
