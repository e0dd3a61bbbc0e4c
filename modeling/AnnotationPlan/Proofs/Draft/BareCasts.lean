import AnnotationPlan.Proofs.Draft.Making
import AnnotationPlan.Proofs.Draft.Receiver
import AnnotationPlan.Proofs.Store.Decoration

/-!
# Casts without annotations of their own

Where a cast is to be inserted and there is no annotation on the whole type, a visit makes the
cast all the same, and puts it into the output at once (`Draft.Sound.visit_bareCast`): its type
is the requested one with everything written into it that is within the type. The exceptions are
the places of receivers and of created objects, where what counts is the place and not that a
cast was requested.

Such a cast is **settled** (`Draft.HasCast`). No annotation follows that would be added to it, and
no constructor takes it up; and what is in the output and is neither a constructor nor a receiver
is never touched again when another site is worked off (`Draft.HasCast.visit`).
-/

namespace AnnotationPlan

open Insertion

/-! ## What stays as it is -/

namespace Step

variable {ctx : Context} {p : Spot} {base : Nat} {className : Option String} {w w' : Work}

/-- **Older insertions are left alone**, unless they are a constructor or a receiver. -/
theorem get?_of_lt (h : Step ctx p base w w') (hd : w.draft.Sound className) {id : InsertionId}
    {i : Insertion} (hi : w.draft.store.get? id = some i) (hid : id < base)
    (hconstructor : ¬ i.IsConstructor) (hreceiver : ¬ i.IsReceiver) :
    w'.draft.store.get? id = some i := by
  have hlt := Store.lt_size hi
  have hne : ∀ c, w.draft.constructor = some c → c ≠ id := by
    rintro c hc rfl
    obtain ⟨j, hj, hkind, -⟩ := hd.constructor_has c hc
    obtain rfl := Option.some.inj (hi.symm.trans hj)
    exact hconstructor hkind
  cases h with
  | single n form note => exact (Store.get?_push_of_lt hlt _).trans hi
  | receiver text inner form within => exact (Store.get?_push_of_lt hlt _).trans hi
  | new text inner form within => exact (Store.get?_push_of_lt hlt _).trans hi
  | cast type text form within made => exact (Store.get?_pushCast_of_lt made hlt).trans hi
  | record id n known => exact hi
  | construct n note on none made =>
    obtain ⟨name, -, rfl⟩ := Store.pushConstructor_eq_ok.mp made
    exact (Store.get?_push_of_lt hlt _).trans hi
  | place ids paired => exact hi
  | fold n note on result single constructor made =>
    obtain ⟨j, -, -, rfl⟩ := Store.addTypeAnnotation_eq_ok.mp made
    exact (Store.get?_modify_of_ne (hne _ constructor)).trans hi
  | declare n ids note on declaration kind paired constructor made =>
    obtain ⟨criteria, type, receiver, declarations, -, -, rfl⟩ := hd.declare_spec constructor made
    exact (Store.get?_modify_of_ne (hne _ constructor)).trans hi
  | receive on form kind constructor made =>
    obtain ⟨⟨kept, hattach⟩, -, -⟩ := Draft.absorbReceiver_spec made
    obtain ⟨criteria, type, receiver, declarations, -, hcases⟩ :=
      Store.attachReceiver_cases hattach
    obtain ⟨-, -, hstore⟩ | ⟨-, -, hstore⟩ | ⟨_, _, _, _, _, _, -, -, hkept, -, hstore⟩ := hcases
    · rw [hstore]
      exact (Store.get?_modify_of_ne (hne _ constructor)).trans hi
    · rwa [hstore]
    · have hother : kept ≠ id := by
        rintro rfl
        obtain rfl := Option.some.inj (hi.symm.trans hkept)
        exact hreceiver trivial
      rw [hstore]
      exact (Store.get?_modify_of_ne hother).trans hi
  | annotate n note new kind made =>
    obtain ⟨hstore, -, -⟩ := Draft.addNote_spec made
    obtain ⟨j, -, -, hmodify⟩ := Store.addTypeAnnotation_eq_ok.mp hstore
    rw [hmodify]
    exact (Store.get?_modify_of_ne (Nat.ne_of_gt (Nat.lt_of_lt_of_le hid new))).trans hi

/-- **The output is only added to.** -/
theorem placed_suffix (h : Step ctx p base w w') : w.draft.placed <:+ w'.draft.placed := by
  cases h with
  | construct n note on none made => exact List.suffix_cons _ _
  | place ids paired => exact List.suffix_append _ _
  | receive on form kind constructor made =>
    exact (Draft.absorbReceiver_spec made).2.1 ▸ List.suffix_refl _
  | annotate n note new kind made =>
    exact (Draft.addNote_spec made).2.1 ▸ List.suffix_refl _
  | _ => exact List.suffix_refl _

end Step

namespace Draft

variable {ctx : Context} {d e : Draft} {s : Site} {className : Option String} {id : InsertionId}
  {place : CriteriaList} {type : JavaType}

/-- **A cast that is settled**: it is in the output, with its parenthesis behind it. -/
structure HasCast (d : Draft) (id : InsertionId) (place : CriteriaList) (type : JavaType) :
    Prop where
  /-- The cast is in the store. -/
  cast : d.store.get? id = some (.cast place type false)
  /-- So is its parenthesis. -/
  close : d.store.get? (id + 1) = some (.closeParenthesis place false)
  /-- The parenthesis comes next in the output, which is kept the latest first. -/
  placed : [id + 1, id] <:+: d.placed

/-- **A settled cast is left alone** when another site is worked off. -/
theorem HasCast.visit (h : d.HasCast id place type) (hd : d.Sound className)
    (hs : s.Fits className) (hok : Draft.visit ctx d s = .ok e) : e.HasCast id place type := by
  have hlt := Store.lt_size h.close
  have hsteps := ((visit_yields hd hs).of_ok hok).2 []
  refine (hsteps.keep (I := fun w => w.draft.Sound className ∧ w.draft.HasCast id place type)
    (fun p hp w w' hstep hw => ⟨hstep.sound (hs.spots p hp) hw.1, ?_⟩) ⟨hd, h⟩).2
  refine ⟨hstep.get?_of_lt hw.1 hw.2.cast (Nat.lt_of_succ_lt hlt) (fun hk => hk) (fun hk => hk),
    hstep.get?_of_lt hw.1 hw.2.close hlt (fun hk => hk) (fun hk => hk), ?_⟩
  exact hw.2.placed.trans hstep.placed_suffix.isInfix

end Draft

/-! ## What is within the type -/

/-- **What is to be written into the type of a cast**: for each position within it, the texts of
the annotations there. -/
def CastElement.marks (f : Formatter) (place : CriteriaList) (c : CastElement) :
    List (TypePath × String) :=
  (TypeElement.positionsOf TypePath.root c.inner).flatMap (fun p =>
    (Spot.texts f (.within ⟨place.add (.atLocation p.1), p.2⟩)).map (fun text => (p.1, text)))

namespace Draft

variable {ctx : Context} {d e : Draft} {s : Site} {q : Position} {className : Option String}
  {id : InsertionId} {ids : List InsertionId} {place : CriteriaList} {criteria : Criteria}
  {n : Note} {path : TypePath}

theorem grows_ensureConstructor (h : d.ensureConstructor place = .ok (e, id)) :
    d.store.Grows e.store := by
  unfold ensureConstructor at h
  split at h
  case h_1 =>
    cases h
    exact .refl _
  case h_2 =>
    obtain ⟨store, hstore, h⟩ := bind_eq_ok.mp h
    cases h
    exact Store.grows_pushConstructor hstore

/-- **A withheld annotation has its mark.** -/
theorem mark?_addSingle (hpath : q.criteria.compose.typePath? = some path)
    (h : addSingle ctx q.criteria q.criteria.compose true d n = .ok (e, id)) :
    d.store.Grows e.store ∧ e.store.mark? id = some (path, n.text) := by
  obtain ⟨⟨f, absorbed⟩, hf, h⟩ := bind_eq_ok.mp h
  cases h
  have hmark : (d.store.push (q.insertion n)).mark? d.store.size = some (path, n.text) :=
    Store.mark?_of_single (Store.get?_push_size _ _) ((q.typePath?_insertion n).trans hpath)
  have hgrows : (d.store.push (q.insertion n)).Grows e.store := by
    unfold absorb at hf
    split at hf
    case isTrue =>
      obtain ⟨⟨g, c⟩, hg, hf⟩ := bind_eq_ok.mp hf
      cases hf
      exact grows_ensureConstructor hg
    case isFalse =>
      cases hf
      exact .refl _
  exact ⟨(Store.grows_push _ _).trans hgrows, hgrows.mark?_eq hmark⟩

/-- Several withheld annotations have their marks. -/
theorem map_mark?_addSingles (hpath : q.criteria.compose.typePath? = some path) :
    ∀ {notes : List Note} {d : Draft} {ids : List InsertionId},
      addSingles ctx q.criteria q.criteria.compose true d notes = .ok (e, ids) →
      d.store.Grows e.store
        ∧ ids.map e.store.mark? = (notes.map (fun n => (path, n.text))).map some
  | [], d, _, h => by
    cases h
    exact ⟨.refl _, rfl⟩
  | n :: rest, d, _, h => by
    obtain ⟨⟨f, id⟩, hf, h⟩ := bind_eq_ok.mp h
    obtain ⟨⟨g, more⟩, hg, h⟩ := bind_eq_ok.mp h
    cases h
    obtain ⟨hgrows, hid⟩ := mark?_addSingle hpath hf
    obtain ⟨hgrows', hmore⟩ := map_mark?_addSingles hpath hg
    refine ⟨hgrows.trans hgrows', ?_⟩
    rw [List.map_cons, List.map_cons, List.map_cons, hmore, hgrows'.mark?_eq hid]

/-- **The annotations on a position within the type of a cast** have their marks. -/
theorem map_mark?_visitNested (hpath : q.criteria.compose.typePath? = some path)
    (hform : Form.classify q.criteria.compose none = .single)
    (h : visitNested ctx true d q = .ok (e, ids)) :
    d.store.Grows e.store
      ∧ ids.map e.store.mark?
        = ((Spot.texts ctx.formatter (.within q)).map (fun text => (path, text))).map some := by
  rw [visitNested] at h
  obtain ⟨notes, hnotes, h⟩ := bind_eq_ok.mp h
  rw [hform] at h
  have htexts : Spot.texts ctx.formatter (.within q) = notes.map Note.text := by
    have hread : ctx.formatter.notes (Spot.within q).criteria (Spot.within q).annotations
        = .ok notes := hnotes
    rw [Spot.texts, hread]
  rw [htexts]
  simpa [Function.comp_def] using map_mark?_addSingles hpath h

/-- Within a type that is cast to, at a place that is neither a receiver nor a created object,
annotations are insertions of their own. -/
theorem classify_within (hreceiver : place.compose.targetsReceiver = false)
    (hnew : place.compose.targetsNew = false) (path : TypePath) :
    Form.classify (place.add (.atLocation path)).compose none = .single := by
  have hget : ∀ k, k ≠ .atLocation →
      (place.add (.atLocation path)).compose.get? k = place.compose.get? k := fun k hk => by
    rw [CriteriaList.get?_compose_add]
    exact if_neg hk
  have hreceiver' : (place.add (.atLocation path)).compose.targetsReceiver = false := by
    rw [← hreceiver]
    simp [Criteria.targetsReceiver, Criteria.astPath?, Criteria.isOnReceiver, hget]
  have hnew' : (place.add (.atLocation path)).compose.targetsNew = false := by
    rw [← hnew]
    simp [Criteria.targetsNew, Criteria.astPath?, Criteria.isOnNew, hget]
  simp [Form.classify, hreceiver', hnew']

/-- **The annotations within the type of a cast** have their marks. -/
theorem map_mark?_visitAllNested (hreceiver : place.compose.targetsReceiver = false)
    (hnew : place.compose.targetsNew = false) :
    ∀ {positions : List (TypePath × List AnnotationUse)} {d : Draft} {ids : List InsertionId},
      visitAllNested ctx true d
          (positions.map (fun p => ⟨place.add (.atLocation p.1), p.2⟩)) = .ok (e, ids) →
      d.store.Grows e.store
        ∧ ids.map e.store.mark? = (positions.flatMap (fun p =>
            (Spot.texts ctx.formatter (.within ⟨place.add (.atLocation p.1), p.2⟩)).map
              (fun text => (p.1, text)))).map some
  | [], d, _, h => by
    cases h
    exact ⟨.refl _, rfl⟩
  | p :: rest, d, _, h => by
    rw [List.map_cons] at h
    obtain ⟨⟨f, ids⟩, hf, h⟩ := bind_eq_ok.mp h
    obtain ⟨⟨g, more⟩, hg, h⟩ := bind_eq_ok.mp h
    cases h
    obtain ⟨hgrows, hids⟩ := map_mark?_visitNested (q := ⟨place.add (.atLocation p.1), p.2⟩)
      (CriteriaList.typePath?_add_atLocation place p.1) (classify_within hreceiver hnew p.1) hf
    obtain ⟨hgrows', hmore⟩ := map_mark?_visitAllNested hreceiver hnew hg
    refine ⟨hgrows.trans hgrows', ?_⟩
    rw [List.map_append, List.flatMap_cons, List.map_append, hmore, hgrows'.map_mark?_eq hids]

/-- **What is made within a type was made at one of its positions.** -/
theorem madeAt_visitAllNested (hs : s.Fits className) :
    ∀ {positions : List Position} {d : Draft} {ids : List InsertionId}, positions ⊆ s.nested →
      d.Sound className → visitAllNested ctx s.withholds d positions = .ok (e, ids) →
      ∀ id i, e.store.get? id = some i → d.store.size ≤ id →
        ∃ q ∈ positions, i.MadeAt ctx (.within q)
  | [], d, _, _, _, h => by
    cases h
    exact fun id i hi hid => absurd (Store.lt_size hi) (Nat.not_lt.mpr hid)
  | q :: rest, d, _, hsub, hd, h => by
    have hq : q ∈ s.nested := hsub List.mem_cons_self
    have hrest := List.subset_of_cons_subset hsub
    have hp := hs.spots _ (Site.within_mem_spots hq)
    obtain ⟨⟨f, first⟩, hf, h⟩ := bind_eq_ok.mp h
    obtain ⟨⟨g, more⟩, hg, h⟩ := bind_eq_ok.mp h
    cases h
    have hsteps := ((visitNested_yields hd hp (hs.within q hq) s.withholds).of_ok hf).2 [] []
    have hsound := (hsteps.sound hp hd).1
    have hgrows := ((((visitAllNested_yields hs hrest hsound (Nat.le_refl _)).of_ok hg).2
      [] []).sound hs hsound).2
    intro id i hi hid
    by_cases hlt : id < f.store.size
    · obtain ⟨i₀, hi₀⟩ := Store.exists_get? hlt
      obtain ⟨j, hj, hgrown⟩ := hgrows id i₀ hi₀
      obtain rfl := Option.some.inj (hj.symm.trans hi)
      exact ⟨q, List.mem_cons_self, (hsteps.madeAt hp hd hi₀ hid).grows hgrown⟩
    · obtain ⟨r, hr, hmade⟩ :=
        madeAt_visitAllNested hs hrest hsound hg id i hi (Nat.le_of_not_lt hlt)
      exact ⟨r, List.mem_cons_of_mem q hr, hmade⟩

/-! ## The cast -/

end Draft

/-- A cast was made where one is to be inserted. -/
theorem Insertion.MadeAt.form_of_isCast {ctx : Context} {p : Spot} {i : Insertion}
    (h : i.MadeAt ctx p) (hi : i.IsCast) : p.form.isCast = true := by
  cases h with
  | cast form =>
    rw [form]
    rfl
  | _ => exact hi.elim

namespace Draft

variable {ctx : Context} {d e : Draft} {className : Option String} {place : CriteriaList}

/-- **What a cast without annotations of its own comes to**: first what is within its type, then
the cast and its parenthesis. -/
theorem exists_pushCast_of_visit {c : CastElement} (hbare : c.annotations = [])
    (hform : (Site.insertedCast place c).spot.form = .cast c.type)
    (h : Draft.visit ctx d (.insertedCast place c) = .ok e) :
    ∃ f inner store,
      visitAllNested ctx true d (Site.positionsWithin place c.inner) = .ok (f, inner)
      ∧ f.store.pushCast c.type none inner place = .ok store
      ∧ e = { f with store }.place [f.store.size, f.store.size + 1] := by
  rw [visit_eq, bind_eq_ok] at h
  obtain ⟨⟨f, inner⟩, hf, h⟩ := h
  have hrelease : release (.insertedCast place c) f inner = f := by
    rw [release, hform]
    rfl
  have hnotes : ctx.formatter.notes (Site.insertedCast place c).criteria
      (Site.insertedCast place c).annotations = .ok [] := by
    show ctx.formatter.notes place c.annotations = .ok []
    rw [hbare]
    rfl
  rw [visitOwn, hnotes, hform, hrelease] at h
  have hgather : gather ctx (.cast c.type) place place.compose inner f [] = .ok e := h
  obtain ⟨⟨g, made⟩, hg, h⟩ := bind_eq_ok.mp hgather
  obtain ⟨store, hstore, hg⟩ := bind_eq_ok.mp hg
  cases hg
  exact ⟨f, inner, store, hf, hstore, (Except.ok.inj h).symm⟩

/-- **A cast without annotations of its own is made and settled**, unless its place is a receiver
or a created object. What is within its type is written into it, and in the whole visit there is
no other cast made. -/
theorem Sound.visit_bareCast {c : CastElement} (hd : d.Sound className)
    (hs : (Site.insertedCast place c).Fits className) (hbare : c.annotations = [])
    (hreceiver : place.compose.targetsReceiver = false) (hnew : place.compose.targetsNew = false)
    (h : Draft.visit ctx d (.insertedCast place c) = .ok e) :
    ∃ id decorated, JavaType.annotateAll? (c.marks ctx.formatter place) c.type = some decorated
      ∧ e.HasCast id place decorated
      ∧ ∀ j, d.store.size ≤ j → e.store.Has IsCast j → j = id := by
  have hform : (Site.insertedCast place c).spot.form = .cast c.type := by
    simp [Spot.form, Form.classify, Site.spot, Site.insertedCast, hreceiver, hnew]
  obtain ⟨f, inner, store, hf, hstore, rfl⟩ := exists_pushCast_of_visit hbare hform h
  obtain ⟨-, hmarks⟩ := map_mark?_visitAllNested hreceiver hnew hf
  obtain ⟨hsize, -, hclose, -⟩ := Store.pushCast_spec hstore
  obtain ⟨decorated, hdecorated, rfl⟩ := (Store.pushCast_eq_ok_iff hmarks).mp hstore
  refine ⟨f.store.size, decorated, hdecorated, ⟨?_, hclose, ?_⟩, fun j hj hcast => ?_⟩
  · exact Store.get?_push_push_size f.store _ _
  · exact (List.prefix_append _ _).isInfix
  · obtain ⟨i, hi, hkind⟩ := hcast
    by_cases hlt : j < f.store.size
    case pos =>
      -- it was made within the type, where there is no type to cast to
      have hold : f.store.get? j = some i := (Store.get?_pushCast_of_lt hstore hlt).symm.trans hi
      obtain ⟨q, -, hmade⟩ :=
        madeAt_visitAllNested hs (List.Subset.refl _) hd hf j i hold hj
      cases Form.isSome_of_isCast (hmade.form_of_isCast hkind)
    case neg =>
      have hbound : j < f.store.size + 2 := Nat.lt_of_lt_of_eq (Store.lt_size hi) hsize
      by_contra hne
      obtain rfl : j = f.store.size + 1 := by omega
      obtain rfl := Option.some.inj (hclose.symm.trans hi)
      exact hkind

end Draft

end AnnotationPlan
