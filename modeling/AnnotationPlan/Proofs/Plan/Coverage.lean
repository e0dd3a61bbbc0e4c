import AnnotationPlan.Proofs.Plan.Visits

/-!
# Nothing is lost

What becomes of an insertion depends on many things: whether it is withheld, on what it
stands, whether a constructor takes it up, and what its type becomes. But at every moment
it is somewhere. It is in the output or in hand; or it has left the hand for good, and
then it stands above the constructor of its class (`Store.DeclaredAt`), is written on the
name of that constructor (`Store.OnConstructorName`), or is written into a cast
(`Store.WrittenIn`). Only receivers may vanish, when they are merged into another one.

This is an invariant of the steps (`Step.complete`). At the end of a run nothing is in
hand, and a cast can itself be only in the output or above a constructor
(`Plan.ofSceneWith_complete`).
-/

namespace AnnotationPlan

open Insertion

namespace Store

variable {s s' : Store} {id : InsertionId}

/-- **An insertion stands above the constructor of its class.** -/
def DeclaredAt (s : Store) (id : InsertionId) : Prop :=
  ∃ i c criteria type receiver declarations,
    s.get? id = some i
    ∧ s.get? c = some (.constructor criteria type receiver declarations)
    ∧ criteria.compose.className? = i.className? ∧ id ∈ declarations

/-- **An annotation on the result of the constructor without parameters is written on the
name of the constructor of its class.** -/
def OnConstructorName (s : Store) (id : InsertionId) : Prop :=
  ∃ text place separateLine c criteria type receiver declarations,
    s.get? id = some (.single text place separateLine)
    ∧ place.compose.isOnReturnType = true
    ∧ place.compose.targetsImplicitConstructor = true
    ∧ place.compose.hasTypePath = false
    ∧ s.get? c = some (.constructor criteria type receiver declarations)
    ∧ criteria.compose.className? = place.compose.className? ∧ text ∈ type.annotations

theorem DeclaredAt.grows (h : s.DeclaredAt id) (hgrows : s.Grows s') : s'.DeclaredAt id := by
  obtain ⟨i, c, criteria, type, receiver, declarations, hi, hc, hname, hid⟩ := h
  obtain ⟨i', hi', hgrown⟩ := hgrows id i hi
  obtain ⟨type', receiver', declarations', hc', -, -, hsub⟩ := hgrows.get?_constructor hc
  exact ⟨i', c, criteria, type', receiver', declarations', hi', hc',
    hname.trans hgrown.className?_eq.symm, hsub hid⟩

theorem OnConstructorName.grows (h : s.OnConstructorName id) (hgrows : s.Grows s') :
    s'.OnConstructorName id := by
  obtain ⟨text, place, separateLine, c, criteria, type, receiver, declarations, hid, hresult,
    himplicit, hpath, hc, hname, htext⟩ := h
  obtain ⟨type', receiver', declarations', hc', htype, -, -⟩ := hgrows.get?_constructor hc
  exact ⟨text, place, separateLine, c, criteria, type', receiver', declarations',
    hgrows.get?_single hid, hresult, himplicit, hpath, hc', hname, htype.annotations htext⟩

end Store

/-- **Where an insertion can be.** -/
inductive Work.Holds (w : Work) (id : InsertionId) : Prop
  /-- In the output. -/
  | placed (h : id ∈ w.draft.placed)
  /-- In hand. -/
  | hand (h : id ∈ w.hand)
  /-- Above the constructor of its class. -/
  | declared (h : w.draft.store.DeclaredAt id)
  /-- On the name of the constructor of its class. -/
  | onName (h : w.draft.store.OnConstructorName id)
  /-- In the type of a cast. -/
  | written (c : InsertionId) (h : (id, c) ∈ w.written) (hc : w.draft.store.WrittenIn id c)

/-- **Nothing is lost**: every insertion that is no receiver is somewhere. -/
def Work.Complete (w : Work) : Prop :=
  ∀ id i, w.draft.store.get? id = some i → ¬ i.IsReceiver → w.Holds id

/-- **Nothing is lost from one moment to the next** if this is so of what was in hand and
of what is new. -/
theorem Work.Complete.mono {w w' : Work} (h : w.Complete)
    (hgrows : w.draft.store.Grows w'.draft.store)
    (hplaced : w.draft.placed ⊆ w'.draft.placed) (hwritten : w.written ⊆ w'.written)
    (hhand : ∀ id i, id ∈ w.hand → w'.draft.store.get? id = some i → ¬ i.IsReceiver →
      w'.Holds id)
    (hnew : ∀ id, w.draft.store.size ≤ id → id < w'.draft.store.size → w'.Holds id) :
    w'.Complete := by
  intro id i' hi' hkind
  by_cases hlt : id < w.draft.store.size
  case neg => exact hnew id (Nat.le_of_not_lt hlt) (Store.lt_size hi')
  obtain ⟨i, hi⟩ := Store.exists_get? hlt
  obtain ⟨j, hj, hgrown⟩ := hgrows id i hi
  obtain rfl := Option.some.inj (hj.symm.trans hi')
  cases h id i hi (fun hreceiver => hkind (hgrown.isReceiver hreceiver)) with
  | placed h => exact .placed (hplaced h)
  | hand h => exact hhand id j h hi' hkind
  | declared h => exact .declared (h.grows hgrows)
  | onName h => exact .onName (h.grows hgrows)
  | written c h hc => exact .written c (hwritten h) (hc.grows hgrows)

/-- Nothing is lost when an insertion is made and taken in hand. -/
theorem Work.Complete.push {d d' : Draft} {hand : List InsertionId}
    {written : List (InsertionId × InsertionId)} {i : Insertion}
    (h : Work.Complete ⟨d, hand, written⟩) (hstore : d'.store = d.store.push i)
    (hplaced : d'.placed = d.placed) :
    Work.Complete ⟨d', hand ++ [d.store.size], written⟩ := by
  refine h.mono (hstore ▸ Store.grows_push _ _) (hplaced ▸ List.Subset.refl _)
    (List.Subset.refl _) (fun id i hid _ _ => .hand (List.mem_append_left _ hid)) ?_
  intro id hle hlt
  rw [hstore, Store.size_push] at hlt
  have hid : id = d.store.size := Nat.le_antisymm (Nat.le_of_lt_succ hlt) hle
  exact .hand (List.mem_append_right _ (List.mem_singleton.mpr hid))

/-- Nothing is lost when nothing is made, and only what is in hand goes elsewhere. -/
theorem Work.Complete.settle {w w' : Work} (h : w.Complete)
    (hgrows : w.draft.store.Grows w'.draft.store)
    (hsize : w'.draft.store.size = w.draft.store.size)
    (hplaced : w'.draft.placed = w.draft.placed) (hwritten : w'.written = w.written)
    (hhand : ∀ id i, id ∈ w.hand → w'.draft.store.get? id = some i → ¬ i.IsReceiver →
      w'.Holds id) : w'.Complete :=
  h.mono hgrows (hplaced ▸ List.Subset.refl _) (hwritten ▸ List.Subset.refl _) hhand
    (fun _ hle hlt => absurd (hsize ▸ hlt) (Nat.not_lt.mpr hle))

namespace Step

variable {ctx : Context} {p : Spot} {base : Nat} {className : Option String} {w w' : Work}

/-- **What is written on the name of the constructor** can be read there. -/
theorem onConstructorName_of_fold {d : Draft} {store : Store} {c id : InsertionId} {n : Note}
    (hp : p.Fits className) (hd : d.Sound className) (on : ctx.OnConstructor p.toPosition)
    (result : p.criteria.compose.isOnReturnType = true)
    (single : d.store.get? id = some (p.insertion n)) (constructor : d.constructor = some c)
    (made : d.store.addTypeAnnotation c n.text = .ok store) : store.OnConstructorName id := by
  obtain ⟨criteria, type, receiver, declarations, hc, hname⟩ := hd.get?_constructor constructor
  obtain ⟨hpath, -, himplicit⟩ := Context.onConstructor_iff.mp on
  have hsingle : store.get? id = some (p.insertion n) :=
    (Store.grows_addTypeAnnotation made).get?_single single
  obtain ⟨i, -, -, rfl⟩ := Store.addTypeAnnotation_eq_ok.mp made
  refine ⟨n.text, _, _, c, criteria, type.annotate n.text, receiver, declarations, hsingle,
    (p.isOnReturnType_insertion n).trans result,
    (p.targetsImplicitConstructor_insertion n).trans himplicit,
    (p.hasTypePath_insertion n).trans hpath, Store.get?_modify_self hc, ?_, ?_⟩
  · rw [hname (hp.className_ne_none on), ← hp.className?_eq]
    exact (p.className?_insertion n).symm
  · rw [JavaType.annotations_annotate]
    exact List.mem_append_right _ (List.mem_singleton_self _)

/-- **What is declared above the constructor** stands there. -/
theorem declaredAt_of_declare {d : Draft} {store : Store} {c id : InsertionId}
    {ids : List InsertionId} (hp : p.Fits className) (hd : d.Sound className)
    (on : ctx.OnConstructor p.toPosition) (hgrows : d.store.Grows store) (hid : id ∈ ids)
    (kind : d.store.Has
      (fun i => i.IsDeclarable ∧ i.className? = p.criteria.compose.className?) id)
    (constructor : d.constructor = some c)
    (made : ids.foldlM (fun s j => s.attachDeclaration c j) d.store = .ok store) :
    store.DeclaredAt id := by
  obtain ⟨criteria, type, receiver, declarations, hc, hname, rfl⟩ :=
    hd.declare_spec constructor made
  obtain ⟨j, hj, -, hclass⟩ := kind
  obtain ⟨i, hi, hgrown⟩ := hgrows id j hj
  refine ⟨i, _, criteria, type, receiver, declarations ++ ids, hi, Store.get?_modify_self hc,
    ?_, List.mem_append_right _ hid⟩
  rw [hname (hp.className_ne_none on), hgrown.className?_eq, hclass, hp.className?_eq]

/-- **No step loses anything.** -/
theorem complete (h : Step ctx p base w w') (hp : p.Fits className)
    (hd : w.draft.Sound className) (hw : w.Complete) : w'.Complete := by
  have hgrows := h.grows hd
  cases h with
  | single n form note => exact hw.push rfl rfl
  | receiver text inner form within => exact hw.push rfl rfl
  | new text inner form within => exact hw.push rfl rfl
  | @cast d hand inner written store type text form within made =>
    obtain ⟨hsize, -, -, hwritten⟩ := Store.pushCast_spec made
    refine hw.mono hgrows (List.Subset.refl _) (List.subset_append_left _ _) ?_ ?_
    -- what was in hand within the type is written; the two new insertions are in hand
    · intro id i hid _ _
      rcases List.mem_append.mp hid with hid | hid
      · exact .hand (List.mem_append_left _ hid)
      · refine .written _ (List.mem_append_right _ ?_) (hwritten id hid)
        exact List.mem_map.mpr ⟨id, hid, rfl⟩
    · intro id hle hlt
      have hid : id = d.store.size ∨ id = d.store.size + 1 := by
        have hlt' : id < d.store.size + 2 := hsize ▸ hlt
        rcases Nat.lt_succ_iff_lt_or_eq.mp hlt' with hlt' | heq
        · exact Or.inl (Nat.le_antisymm (Nat.le_of_lt_succ hlt') hle)
        · exact Or.inr heq
      refine .hand (List.mem_append_right _ ?_)
      simpa using hid
  | record id n known => exact hw.settle hgrows rfl rfl rfl (fun _ _ hid _ _ => .hand hid)
  | construct n note on none made =>
    obtain ⟨name, -, rfl⟩ := Store.pushConstructor_eq_ok.mp made
    refine hw.mono hgrows (List.subset_cons_self _ _) (List.Subset.refl _)
      (fun _ _ hid _ _ => .hand hid) (fun id hle hlt => .placed ?_)
    have hlt' := hlt
    rw [Draft.place, Store.size_push] at hlt'
    exact List.mem_cons.mpr (Or.inl (Nat.le_antisymm (Nat.le_of_lt_succ hlt') hle))
  | place ids paired =>
    refine hw.mono hgrows (List.subset_append_right _ _) (List.Subset.refl _) ?_
      (fun _ hle hlt => absurd hlt (Nat.not_lt.mpr hle))
    intro id i hid _ _
    rcases List.mem_append.mp hid with hid | hid
    · exact .hand hid
    · exact .placed (List.mem_append_left _ (List.mem_reverse.mpr hid))
  | fold n note on result single constructor made =>
    refine hw.settle hgrows (Store.size_addTypeAnnotation made) rfl rfl ?_
    intro id i hid _ _
    rcases List.mem_append.mp hid with hid | hid
    · exact .hand hid
    obtain rfl := List.mem_singleton.mp hid
    exact .onName (onConstructorName_of_fold hp hd on result single constructor made)
  | @declare d hand written store c n ids note on declaration kind paired constructor made =>
    have hsize : store.size = d.store.size := by
      obtain ⟨_, _, _, _, -, -, rfl⟩ := hd.declare_spec constructor made
      exact Store.size_modify _ _ _
    refine hw.settle hgrows hsize rfl rfl ?_
    intro id i hid _ _
    rcases List.mem_append.mp hid with hid | hid
    · exact .hand hid
    · exact .declared (declaredAt_of_declare hp hd on hgrows hid (kind id hid) constructor made)
  | receive on form kind constructor made =>
    obtain ⟨⟨kept, hattach⟩, hplaced, -⟩ := Draft.absorbReceiver_spec made
    refine hw.settle hgrows (Store.size_attachReceiver hattach) hplaced rfl ?_
    intro id i hid hi hkind
    rcases List.mem_append.mp hid with hid | hid
    · exact .hand hid
    obtain rfl := List.mem_singleton.mp hid
    obtain ⟨j, hj, hreceiver, -⟩ := kind
    obtain ⟨i', hi', hgrown⟩ := hgrows _ j hj
    obtain rfl := Option.some.inj (hi.symm.trans hi')
    exact absurd (hgrown.isReceiver hreceiver) hkind
  | annotate n note new kind made =>
    obtain ⟨hstore, hplaced, -⟩ := Draft.addNote_spec made
    exact hw.settle hgrows (Store.size_addTypeAnnotation hstore) hplaced rfl
      (fun _ _ hid _ _ => .hand hid)

end Step

/-- **Nothing is ever lost** in a run. -/
theorem Work.complete_invariant : Invariant Work.Complete where
  empty := fun id i hi _ => by simp [Draft.empty, Store.empty, Store.get?] at hi
  start := fun _ h id i hi hkind => by
    cases h id i hi hkind with
    | placed h => exact .placed h
    | hand h => exact .hand h
    | declared h => exact .declared h
    | onName h => exact .onName h
    | written c h hc => exact .written c h hc
  step := fun hp hd h hw => h.complete hp hd hw

/-- An insertion that is no annotation can at the end be in the output or above a
constructor only. -/
theorem Work.Complete.of_not_single {d : Draft} {written : List (InsertionId × InsertionId)}
    (h : Work.Complete ⟨d, [], written⟩) {id : InsertionId} {i : Insertion}
    (hi : d.store.get? id = some i) (hreceiver : ¬ i.IsReceiver) (hsingle : ¬ i.IsSingle) :
    id ∈ d.placed ∨ d.store.DeclaredAt id := by
  cases h id i hi hreceiver with
  | placed h => exact Or.inl h
  | hand h => exact absurd h List.not_mem_nil
  | declared h => exact Or.inr h
  | onName h =>
    obtain ⟨text, place, separateLine, c, criteria, type, receiver, declarations, hget, -⟩ := h
    obtain rfl := Option.some.inj (hget.symm.trans hi)
    exact absurd trivial hsingle
  | written c h hc =>
    obtain ⟨text, place, separateLine, criteria, type, path, t, hget, -⟩ := hc
    obtain rfl := Option.some.inj (hget.symm.trans hi)
    exact absurd trivial hsingle

/-- **Nothing is lost.** At the end of a run every insertion that is no receiver is in the
output; or it stands above the constructor of its class; or it is an annotation on the
result of the constructor without parameters and is written on the name of the
constructor; or it was made within the type of a site where a cast is to be inserted, is
written into the type of the cast that was made there, and this cast is in the output or
above the constructor of its class. -/
theorem Plan.ofSceneWith_complete {policy : NamePolicy} {scene : Scene}
    {lookup : ConstructorLookup} {settings : Settings} {plan : Plan}
    (h : Plan.ofSceneWith policy scene lookup settings = .ok plan) {id : InsertionId}
    {i : Insertion} (hi : plan.store.get? id = some i) (hkind : ¬ i.IsReceiver) :
    id ∈ plan.order ∨ plan.store.DeclaredAt id ∨ plan.store.OnConstructorName id
    ∨ ∃ v ∈ Plan.visits policy scene lookup settings, ∃ c,
        v.site.IsInsertedCast ∧ id ∈ v.within ∧ v.castId? = some c
        ∧ plan.store.Has (fun j => j.criteria = v.site.criteria) c
        ∧ plan.store.WrittenIn id c ∧ (c ∈ plan.order ∨ plan.store.DeclaredAt c) := by
  obtain ⟨d, className, hstore, horder, hd, hcasts, hw⟩ :=
    (Plan.visits_yields Work.complete_invariant policy scene lookup settings).of_ok h
  have hplaced : ∀ {j}, j ∈ d.placed → j ∈ plan.order := fun hj => by
    rwa [horder, List.mem_reverse]
  rw [hstore] at hi hcasts ⊢
  cases hw id i hi hkind with
  | placed h => exact Or.inl (hplaced h)
  | hand h => exact absurd h List.not_mem_nil
  | declared h => exact Or.inr (Or.inl h)
  | onName h => exact Or.inr (Or.inr (Or.inl h))
  | written c hmem hwritten =>
    obtain ⟨v, hv, hmem⟩ := List.mem_flatMap.mp hmem
    obtain ⟨hc, hwithin⟩ := Visit.mem_written.mp hmem
    obtain ⟨made, hmade⟩ := hcasts v hv c hc
    have hcriteria : d.store.Has (fun j => j.criteria = v.site.criteria) c := by
      cases hmade <;> exact ⟨_, by assumption, rfl⟩
    have hcast : c ∈ d.placed ∨ d.store.DeclaredAt c := by
      obtain ⟨-, -, -, criteria, type, -, -, -, hget, -⟩ := hwritten
      exact hw.of_not_single hget (fun h => h) (fun h => h)
    exact Or.inr (Or.inr (Or.inr ⟨v, hv, c, Plan.isInsertedCast_of_mem_visits h hv hc, hwithin,
      hc, hcriteria, hwritten, hcast.imp hplaced (fun h => h)⟩))

/-- The annotation within the cast of the sample is somewhere. -/
theorem Plan.sample_complete :
    ∃ plan i, Plan.ofSceneWith ⟨[]⟩ Scene.sample .implicit {} = .ok plan
      ∧ plan.store.get? 3 = some i ∧ ¬ i.IsReceiver
      ∧ (3 ∈ plan.order ∨ plan.store.DeclaredAt 3 ∨ plan.store.OnConstructorName 3
        ∨ ∃ v ∈ Plan.visits ⟨[]⟩ Scene.sample .implicit {}, ∃ c,
            v.site.IsInsertedCast ∧ 3 ∈ v.within ∧ v.castId? = some c
            ∧ plan.store.Has (fun j => j.criteria = v.site.criteria) c
            ∧ plan.store.WrittenIn 3 c ∧ (c ∈ plan.order ∨ plan.store.DeclaredAt c)) := by
  obtain ⟨plan, hplan, text, place, separateLine, hi⟩ :
      ∃ plan, Plan.ofSceneWith ⟨[]⟩ Scene.sample .implicit {} = .ok plan
        ∧ ∃ text place separateLine,
          plan.store.get? 3 = some (.single text place separateLine) :=
    ⟨_, rfl, _, _, _, rfl⟩
  exact ⟨plan, _, hplan, hi, fun h => h, Plan.ofSceneWith_complete hplan hi (fun h => h)⟩

end AnnotationPlan
