import AnnotationPlan.Proofs.Draft.Visit

/-!
# What an insertion tells of its making

Every insertion is made at a spot, and its kind and its criteria tell a good deal about
this spot: a receiver was made where annotations become a receiver, a cast where there is a
type to cast to, and a constructor on the constructor that the class does not declare,
because of an annotation there. `Insertion.MadeAt` collects this. Insertions may grow
later on, when they are merged with others or get more annotations, and even at other
spots; but what is collected here is not touched by that (`Insertion.MadeAt.grows`).
-/

namespace AnnotationPlan

/-! ## What a form tells of the criteria -/

namespace Form

variable {criteria : Criteria} {cast : Option JavaType}

theorem of_classify_receiver (h : classify criteria cast = .receiver) :
    criteria.hasTypePath = false ∧ criteria.targetsReceiver = true := by
  unfold classify at h
  split at h
  case isTrue hreceiver => simpa using hreceiver
  case isFalse => split at h <;> cases cast <;> cases h

theorem of_classify_new (h : classify criteria cast = .new) :
    criteria.hasTypePath = false ∧ criteria.targetsReceiver = false
      ∧ criteria.targetsNew = true := by
  unfold classify at h
  split at h
  case isTrue => cases h
  case isFalse hreceiver =>
    split at h
    case isTrue hnew =>
      simp only [Bool.and_eq_true, Bool.not_eq_true'] at hnew
      exact ⟨hnew.1, by simpa [hnew.1] using hreceiver, hnew.2⟩
    case isFalse => cases cast <;> cases h

/-- Annotations that become neither a receiver nor the type of a created object are within
a type, or on something else. -/
theorem of_classify_other (hreceiver : classify criteria cast ≠ .receiver)
    (hnew : classify criteria cast ≠ .new) :
    criteria.hasTypePath = true
      ∨ criteria.targetsReceiver = false ∧ criteria.targetsNew = false := by
  unfold classify at hreceiver hnew
  cases hpath : criteria.hasTypePath with
  | true => exact Or.inl rfl
  | false =>
    cases hr : criteria.targetsReceiver with
    | true => simp [hpath, hr] at hreceiver
    | false =>
      cases hn : criteria.targetsNew with
      | true => simp [hpath, hr, hn] at hnew
      | false => exact Or.inr ⟨rfl, rfl⟩

end Form

/-! ## The making of an insertion -/

/-- **An insertion was made at a spot**, and may have grown since. -/
inductive Insertion.MadeAt (ctx : Context) (p : Spot) : Insertion → Prop
  /-- A single annotation is one of those on the spot. -/
  | single (n : Note) (note : ctx.HasNote p.toPosition n) (form : p.form = .single) :
    MadeAt ctx p (p.insertion n)
  /-- A receiver is made where annotations become one. -/
  | receiver {type inner} (form : p.form = .receiver) :
    MadeAt ctx p (.receiver p.criteria type inner)
  /-- The type of a created object is made where annotations become that. -/
  | new {type inner} (form : p.form = .new) : MadeAt ctx p (.new p.criteria type inner)
  /-- A cast is made where one is to be inserted. -/
  | cast {target type} (form : p.form = .cast target) :
    MadeAt ctx p (.cast p.criteria type false)
  /-- So is the parenthesis that closes it. -/
  | closeParenthesis {target} (form : p.form = .cast target) :
    MadeAt ctx p (.closeParenthesis p.criteria false)
  /-- A constructor is made for an annotation on it, and is named after its class. -/
  | constructor {name type receiver declarations} (n : Note)
      (note : ctx.HasNote p.toPosition n) (on : ctx.OnConstructor p.toPosition)
      (className : p.criteria.compose.className? = some name)
      (named : type.name? = some (Name.simple name)) :
    MadeAt ctx p (.constructor p.criteria type receiver declarations)

namespace Insertion

/-- A single annotation grows into nothing else. -/
theorem Grows.eq_of_isSingle {i j : Insertion} (h : i.Grows j) (hi : i.IsSingle) : j = i := by
  cases h <;> first | rfl | exact hi.elim

/-- **Growing leaves what is known of the making.** -/
theorem MadeAt.grows {ctx : Context} {p : Spot} {i j : Insertion} (h : i.MadeAt ctx p)
    (hgrows : i.Grows j) : j.MadeAt ctx p := by
  cases h with
  | single n note form => exact hgrows.eq_of_isSingle trivial ▸ .single n note form
  | receiver form =>
    cases hgrows
    exact .receiver form
  | new form =>
    cases hgrows
    exact .new form
  | cast form =>
    cases hgrows
    exact .cast form
  | closeParenthesis form =>
    cases hgrows
    exact .closeParenthesis form
  | constructor n note on className named =>
    cases hgrows with
    | constructor htype keeps refers =>
      exact .constructor n note on className (htype.name?_eq.trans named)

end Insertion

/-- A number that is not below the old size is that of the new insertion. -/
theorem Store.eq_of_get?_push {s : Store} {i j : Insertion} {id : InsertionId}
    (h : (s.push i).get? id = some j) (hid : s.size ≤ id) : i = j := by
  rw [get?_push] at h
  split at h
  · exact Option.some.inj h
  · exact absurd (lt_size h) (Nat.not_lt.mpr hid)

/-- **What a step makes was made at its spot.** -/
theorem Step.madeAt {ctx : Context} {p : Spot} {base : Nat} {className : Option String}
    {w w' : Work} (h : Step ctx p base w w') (hd : w.draft.Sound className) {id : InsertionId}
    {i : Insertion} (hi : w'.draft.store.get? id = some i) (hid : w.draft.store.size ≤ id) :
    i.MadeAt ctx p := by
  have hnone : w'.draft.store.size = w.draft.store.size → i.MadeAt ctx p := fun hsize =>
    absurd (hsize ▸ Store.lt_size hi) (Nat.not_lt.mpr hid)
  cases h with
  | single n form note => exact Store.eq_of_get?_push hi hid ▸ .single n note form
  | receiver text inner form within => exact Store.eq_of_get?_push hi hid ▸ .receiver form
  | new text inner form within => exact Store.eq_of_get?_push hi hid ▸ .new form
  | @cast d hand inner written store type text form within made =>
    obtain ⟨decorated, -, rfl⟩ := Store.pushCast_eq_ok.mp made
    -- the parenthesis comes last, and below it there is the cast
    by_cases hclose : (d.store.push (.cast p.criteria decorated false)).size ≤ id
    · exact Store.eq_of_get?_push hi hclose ▸ .closeParenthesis form
    · have hcast := (Store.get?_push_of_lt (Nat.lt_of_not_le hclose) _).symm.trans hi
      exact Store.eq_of_get?_push hcast hid ▸ .cast form
  | record id n known => exact hnone rfl
  | construct n note on none made =>
    obtain ⟨name, hname, rfl⟩ := Store.pushConstructor_eq_ok.mp made
    exact Store.eq_of_get?_push hi hid ▸ .constructor n note on hname rfl
  | place ids paired => exact hnone rfl
  | fold n note on result single constructor made =>
    exact hnone (Store.size_addTypeAnnotation made)
  | declare n ids note on declaration kind paired constructor made =>
    obtain ⟨_, _, _, _, -, -, rfl⟩ := hd.declare_spec constructor made
    exact hnone (Store.size_modify _ _ _)
  | receive on form kind constructor made =>
    obtain ⟨⟨kept, hattach⟩, -, -⟩ := Draft.absorbReceiver_spec made
    exact hnone (Store.size_attachReceiver hattach)
  | annotate n note new kind made =>
    exact hnone (Store.size_addTypeAnnotation (Draft.addNote_spec made).1)

/-- **After a step, what is new from one number on was made at one of some spots** if that was so
before it and the step is at one of them. What was there before the step may have grown. -/
theorem Step.exists_madeAt {ctx : Context} {p : Spot} {base n : Nat} {className : Option String}
    {w w' : Work} (h : Step ctx p base w w') (hd : w.draft.Sound className) {spots : List Spot}
    (hp : p ∈ spots) (hw : ∀ id i, w.draft.store.get? id = some i → n ≤ id →
      ∃ q ∈ spots, i.MadeAt ctx q) :
    ∀ id i, w'.draft.store.get? id = some i → n ≤ id → ∃ q ∈ spots, i.MadeAt ctx q := by
  intro id i hi hid
  by_cases hnew : w.draft.store.size ≤ id
  · exact ⟨p, hp, h.madeAt hd hi hnew⟩
  · obtain ⟨i₀, hi₀⟩ := Store.exists_get? (Nat.lt_of_not_le hnew)
    obtain ⟨j, hj, hgrown⟩ := h.grows hd id i₀ hi₀
    obtain rfl := Option.some.inj (hj.symm.trans hi)
    obtain ⟨q, hq, hmade⟩ := hw id i₀ hi₀ hid
    exact ⟨q, hq, hmade.grows hgrown⟩

/-- **What is made in the steps at a spot was made there.** -/
theorem Steps.madeAt {ctx : Context} {p : Spot} {base : Nat} {className : Option String}
    {w w' : Work} (h : Steps ctx p base w w') (hp : p.Fits className)
    (hd : w.draft.Sound className) {id : InsertionId} {i : Insertion}
    (hi : w'.draft.store.get? id = some i) (hid : w.draft.store.size ≤ id) : i.MadeAt ctx p := by
  have hmade : ∀ id i, w'.draft.store.get? id = some i → w.draft.store.size ≤ id →
      ∃ q ∈ [p], i.MadeAt ctx q := by
    clear hi
    induction h with
    | refl => exact fun id i hi hid => absurd (Store.lt_size hi) (Nat.not_lt.mpr hid)
    | tail hsteps hlast ih =>
      exact hlast.exists_madeAt (Steps.sound hsteps hp hd).1 List.mem_cons_self ih
  obtain ⟨q, hq, hmade⟩ := hmade id i hi hid
  exact List.mem_singleton.mp hq ▸ hmade

/-- **What is made in the steps at a site was made at one of its spots.** -/
theorem SiteSteps.madeAt {ctx : Context} {s : Site} {base : Nat} {className : Option String}
    {w w' : Work} (h : SiteSteps ctx s base w w') (hs : s.Fits className)
    (hd : w.draft.Sound className) :
    ∀ id i, w'.draft.store.get? id = some i → w.draft.store.size ≤ id →
      ∃ p ∈ s.spots, i.MadeAt ctx p :=
  (h.keep (I := fun v => v.draft.Sound className ∧ ∀ id i,
    v.draft.store.get? id = some i → w.draft.store.size ≤ id → ∃ p ∈ s.spots, i.MadeAt ctx p)
    (fun p hp _ _ hstep hv =>
      ⟨hstep.sound (hs.spots p hp) hv.1, hstep.exists_madeAt hv.1 hp hv.2⟩)
    ⟨hd, fun _ _ hi hid => absurd (Store.lt_size hi) (Nat.not_lt.mpr hid)⟩).2

namespace Draft

variable {ctx : Context} {className : Option String} {d e : Draft} {s : Site}

/-- A visit keeps a draft sound, and lets its store grow. -/
theorem Sound.of_visit (hd : d.Sound className) (hs : s.Fits className)
    (h : Draft.visit ctx d s = .ok e) : e.Sound className ∧ d.store.Grows e.store :=
  (((visit_yields hd hs).of_ok h).2 []).sound hs hd

/-- **What is made in a visit was made at one of the spots of its site.** -/
theorem Sound.madeAt_visit (hd : d.Sound className) (hs : s.Fits className)
    (h : Draft.visit ctx d s = .ok e) {id : InsertionId} {i : Insertion}
    (hi : e.store.get? id = some i) (hid : d.store.size ≤ id) : ∃ p ∈ s.spots, i.MadeAt ctx p :=
  (((visit_yields hd hs).of_ok h).2 []).madeAt hs hd id i hi hid

end Draft

end AnnotationPlan
