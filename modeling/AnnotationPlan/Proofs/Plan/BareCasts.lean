import AnnotationPlan.Proofs.Draft.BareCasts
import AnnotationPlan.Proofs.Plan.Exclusive
import AnnotationPlan.Proofs.Plan.NeededConstructors
import AnnotationPlan.Proofs.Scene.Insertions
import AnnotationPlan.Proofs.Store.Tags
import Mathlib.Data.List.Pairwise

/-!
# Casts that are inserted without an annotation on them

A cast may be asked for with nothing on its type. It is inserted all the same, once, and with its
parenthesis right behind it (`Plan.bareCast_written`). But it is not inserted wherever it is asked
for (`AstPath.TakesCast`). What becomes of a place is decided by the place first, and a receiver or
what is created is not cast; and a class that stands for a package is worked off as that package.

The visit to the place makes the cast and settles it (`Draft.Sound.visit_bareCast`), and what a
visit establishes and every visit keeps is there in the end (`Plan.of_mem_visits`). There is no
second cast in the place, because every cast is made in a visit to its place, and no two visits are
to the same (`Plan.visit_unique`).
-/

namespace AnnotationPlan

open Insertion

/-! ## What a visit establishes -/

section Establish

variable {K : Draft → Prop}
  (hvisit : ∀ {ctx : Context} {className : Option String} {s : Site} {d e : Draft},
    d.Sound className → s.Fits className → Draft.visit ctx d s = .ok e → K d → K e)
include hvisit

/-- **What a visit to one of several sites establishes** and every visit keeps, holds after
them. -/
theorem Draft.of_mem_visits {ctx : Context} {className : Option String} :
    ∀ {sites : List Site} {d e : Draft}, (∀ s ∈ sites, s.Fits className) → d.Sound className →
      sites.foldlM (Draft.visit ctx) d = .ok e →
      (K d ∨ ∃ v ∈ Draft.visits ctx d sites, ∀ f, v.before.visit v.ctx v.site = .ok f → K f) →
      K e
  | [], _, _, _, _, h, hK => by
    cases h
    rcases hK with hK | ⟨v, hv, -⟩
    · exact hK
    · exact absurd hv List.not_mem_nil
  | s :: rest, d, _, hsites, hd, h, hK => by
    obtain ⟨hs, hrest⟩ := List.forall_mem_cons.mp hsites
    rw [List.foldlM_cons] at h
    obtain ⟨f, hf, h⟩ := bind_eq_ok.mp h
    refine of_mem_visits hrest (hd.of_visit hs hf).1 h ?_
    rcases hK with hK | ⟨v, hv, hmade⟩
    · exact .inl (hvisit hd hs hf hK)
    · rw [Draft.visits, hf] at hv
      rcases List.mem_cons.mp hv with rfl | hv
      · exact .inl (hmade f hf)
      · exact .inr ⟨v, hv, hmade⟩

variable (hstart : ∀ {d : Draft} (warnings : List Warning), K d →
    K { d with constructor := none, warnings })
include hstart

namespace Plan

/-- What a visit to one of several parts establishes holds after them. -/
theorem of_mem_visitsFrom {formatter : Formatter} {settings : Settings}
    {lookup : ConstructorLookup} :
    ∀ {parts : List Part} {className : Option String} {d e : Draft}, d.Sound className →
      parts.foldlM (visitPart formatter settings lookup) d = .ok e →
      (K d ∨ ∃ v ∈ visitsFrom formatter settings lookup d parts,
        ∀ f, v.before.visit v.ctx v.site = .ok f → K f) →
      K e
  | [], _, _, _, _, h, hK => by
    cases h
    rcases hK with hK | ⟨v, hv, -⟩
    · exact hK
    · exact absurd hv List.not_mem_nil
  | p :: rest, _, d, _, hd, h, hK => by
    rw [List.foldlM_cons] at h
    obtain ⟨f, hf, h⟩ := bind_eq_ok.mp h
    have hsites := Part.foldlM_of_visitPart formatter settings lookup hf
    have hsound := p.sound_start settings lookup hd
    have hbegin : K d → K (p.start settings lookup d) := fun hbefore => by
      cases p with
      | type name element => exact hstart _ hbefore
      | _ => exact hbefore
    have hpart := Draft.of_mem_visits hvisit p.fits_sites hsound hsites
    refine of_mem_visitsFrom (hsound.chain p.fits_sites hsites).1 h ?_
    rcases hK with hK | ⟨v, hv, hmade⟩
    · exact .inl (hpart (.inl (hbegin hK)))
    · rw [visitsFrom, hf] at hv
      rcases List.mem_append.mp hv with hv | hv
      · exact .inl (hpart (.inr ⟨v, hv, hmade⟩))
      · exact .inr ⟨v, hv, hmade⟩

/-- **What a visit of a run establishes** and every visit keeps, holds of the draft that the plan
is made of. -/
theorem of_mem_visits {policy : NamePolicy} {scene : Scene} {lookup : ConstructorLookup}
    {settings : Settings} {plan : Plan} (h : ofSceneWith policy scene lookup settings = .ok plan)
    {v : Visit} (hv : v ∈ visits policy scene lookup settings)
    (hmade : ∀ f, v.before.visit v.ctx v.site = .ok f → K f) :
    ∃ d, K d ∧ plan.store = d.store ∧ plan.order = d.placed.reverse := by
  obtain ⟨d, hd, h⟩ := bind_eq_ok.mp h
  cases h
  exact ⟨d, of_mem_visitsFrom hvisit hstart (Draft.sound_empty none) hd (.inr ⟨v, hv, hmade⟩),
    rfl, rfl⟩

end Plan

end Establish

/-! ## Casts and the visits that they are made in -/

/-- Where a cast is to be inserted, the site has the place for it. -/
theorem Site.mem_castPlaces {s : Site} (h : s.cast.isSome = true) : s.criteria ∈ s.castPlaces := by
  obtain ⟨type, htype⟩ := Option.isSome_iff_exists.mp h
  rw [castPlaces, htype]
  exact List.mem_singleton_self _

namespace Plan

variable {policy : NamePolicy} {scene : Scene} {lookup : ConstructorLookup}
  {settings : Settings} {plan : Plan} {place : CriteriaList}

/-- **The casts in the output that are inserted at a place.** -/
def castsAt (p : Plan) (place : CriteriaList) : List InsertionId :=
  p.order.filter (fun id => p.store.tag? id = some ("cast", place))

theorem mem_castsAt {id : InsertionId} :
    id ∈ plan.castsAt place ↔
      id ∈ plan.order
        ∧ ∃ type separateLine, plan.store.get? id = some (.cast place type separateLine) := by
  rw [castsAt, List.mem_filter, decide_eq_true_eq, Store.tag?_eq_some]
  refine and_congr_right (fun _ => ⟨?_, fun ⟨type, _, hget⟩ => ⟨_, hget, rfl⟩⟩)
  rintro ⟨i, hi, htag⟩
  cases i with
  | cast criteria type separateLine =>
    obtain rfl : criteria = place := congrArg Prod.snd htag
    exact ⟨type, separateLine, hi⟩
  | _ => exact absurd (congrArg Prod.fst htag) (by simp [tag, kindName])

section Visits

variable (h : ofSceneWith policy scene lookup settings = .ok plan)
include h

/-- **Every cast is made in a visit** to its place, where one is to be inserted. -/
theorem exists_castVisit {id : InsertionId} {type : JavaType} {separateLine : Bool}
    (hi : plan.store.get? id = some (.cast place type separateLine)) :
    ∃ v ∈ visits policy scene lookup settings, v.Makes id ∧ v.site.spot.form.isCast = true
      ∧ v.site.criteria = place := by
  obtain ⟨v, hv, hmakes, p, hp, hmade⟩ := madeAt h hi
  have hform := hmade.form_of_isCast trivial
  rcases List.mem_append.mp hp with hp | hp
  · obtain ⟨q, -, rfl⟩ := List.mem_map.mp hp
    cases Form.isSome_of_isCast hform
  · obtain rfl := List.mem_singleton.mp hp
    refine ⟨v, hv, hmakes, hform, ?_⟩
    cases hmade
    rfl

/-- **No two visits are to the same place for a cast.** -/
theorem visit_unique (hkeys : scene.HasKeys) {v w : Visit}
    (hv : v ∈ visits policy scene lookup settings) (hw : w ∈ visits policy scene lookup settings)
    (hplace : place ∈ v.site.castPlaces) (hplace' : place ∈ w.site.castPlaces) : v = w := by
  have hsites : (visits policy scene lookup settings).map Visit.site
      = scene.parts.flatMap Part.sites := by
    have hmap := congrArg (List.map Prod.snd) (map_visits h)
    simpa [List.map_flatMap, Function.comp_def] using hmap
  have hnodup := (scene.fan_castPlaces hkeys).nodup
  rw [← hsites, castPlaces, List.flatMap_map] at hnodup
  have hdisjoint : Std.Symm (Function.onFun List.Disjoint fun v : Visit => v.site.castPlaces) :=
    ⟨fun _ _ hdisjoint _ hv hw => hdisjoint hw hv⟩
  by_contra hne
  exact (List.nodup_flatMap.mp hnodup).2.forall hv hw hne hplace hplace'

/-- Nothing is in the output twice. -/
theorem nodup_order : plan.order.Nodup := by
  obtain ⟨d, -, -, horder, -, -, hexclusive⟩ :=
    (visits_yields Work.exclusive_invariant policy scene lookup settings).of_ok h
  rw [horder, List.nodup_reverse, List.nodup_iff_count_le_one]
  intro id
  have hone := (hexclusive id).1
  simp only [Work.uses] at hone
  omega

/-- **The casts at a place are made in the visit to it.** -/
theorem makes_of_mem_castsAt (hkeys : scene.HasKeys) {v : Visit}
    (hv : v ∈ visits policy scene lookup settings) (hplace : place ∈ v.site.castPlaces)
    {id : InsertionId} (hid : id ∈ plan.castsAt place) : v.Makes id := by
  obtain ⟨-, type, separateLine, hi⟩ := mem_castsAt.mp hid
  obtain ⟨w, hw, hmakes, hform, rfl⟩ := exists_castVisit h hi
  have hother := Site.mem_castPlaces (Form.isSome_of_isCast hform)
  exact visit_unique h hkeys hv hw hplace hother ▸ hmakes

/-- A cast at a place, with no other there, is there once. -/
theorem castsAt_eq_singleton {id : InsertionId} (hid : id ∈ plan.castsAt place)
    (honly : ∀ j ∈ plan.castsAt place, j = id) : plan.castsAt place = [id] := by
  have hnodup : (plan.castsAt place).Nodup := (nodup_order h).filter _
  have hall := List.eq_replicate_of_mem honly
  rw [hall, List.nodup_replicate] at hnodup
  rw [hall, Nat.le_antisymm hnodup (List.length_pos_of_mem hid)]
  rfl

end Visits

end Plan

/-! ## Casts without annotations of their own -/

/-- **A path where a cast can go** in a class: the class stands for no package, and the path leads
neither to a receiver nor to what is created. -/
structure AstPath.TakesCast (path : AstPath) (className : String) : Prop where
  /-- The class stands for no package. -/
  notPackage : ¬ Part.packageSuffix.toList <:+ className.toList
  /-- The path leads to no receiver. -/
  notReceiver : ¬ path.EndsAtReceiver
  /-- The path leads to nothing that is created. -/
  notNew : ¬ path.EndsAtNew

namespace Plan

section Entries

variable {policy : NamePolicy} {scene : Scene} {lookup : ConstructorLookup}
  {settings : Settings} {plan : Plan} {name : String} {c : ClassElement} {place : CriteriaList}

section Places

variable {e : CastElement} (h : ofSceneWith policy scene lookup settings = .ok plan)
include h

/-- **Casts are made in classes only**, and not on receivers or what is created. -/
theorem isClass_of_mem_castsAt (hc : (name, c) ∈ scene.classes.entries)
    (hclass : place.compose.className? = some name) {id : InsertionId}
    (hid : id ∈ plan.castsAt place) :
    scene.IsClass name c ∧ place.compose.targetsReceiver = false
      ∧ place.compose.targetsNew = false := by
  obtain ⟨-, type, separateLine, hi⟩ := mem_castsAt.mp hid
  obtain ⟨v, hv, -, hform, rfl⟩ := exists_castVisit h hi
  obtain ⟨p, hp, -, hs⟩ := exists_part h hv
  refine ⟨?_, ?_⟩
  · -- the part is the class that the place is in
    have hname := ((p.fits_sites _ hs).spots _ v.site.spot_mem_spots).className?_eq
    rw [show v.site.spot.criteria.compose.className? = some name from hclass] at hname
    cases p with
    | type name' c' =>
      obtain rfl := Option.some.inj hname
      have hc' := (Scene.isClass_iff.mpr hp).1
      obtain rfl := congrArg Prod.snd (List.inj_on_of_nodup_map scene.classes.distinct hc hc' rfl)
      exact Scene.isClass_iff.mpr hp
    | _ => cases hname
  · have hpath : v.site.criteria.compose.typePath? = none :=
      (p.isCastPlace _ hs _ v.site.spot_mem_spots (Form.isSome_of_isCast hform)).typePath?_eq
    have hne : ∀ form : Form, form.isCast = false → v.site.spot.form ≠ form := by
      rintro form hnot rfl
      cases hnot.symm.trans hform
    refine (Form.of_classify_other (hne .receiver rfl) (hne .new rfl)).resolve_left ?_
    simp [Criteria.hasTypePath, show v.site.spot.criteria.compose.typePath? = none from hpath]

/-- **A cast that can be inserted** is in the output once, with its parenthesis behind it. -/
theorem exists_castsAt (hkeys : scene.HasKeys) (hclass : scene.IsClass name c)
    (hs : Site.insertedCast place e ∈ c.sites name) (hbare : e.annotations = [])
    (hreceiver : place.compose.targetsReceiver = false)
    (hnew : place.compose.targetsNew = false) :
    ∃ id type, plan.castsAt place = [id]
      ∧ plan.store.get? id = some (.cast place type false)
      ∧ plan.store.get? (id + 1) = some (.closeParenthesis place false)
      ∧ [id, id + 1] <:+: plan.order
      ∧ JavaType.annotateAll? (e.marks ⟨scene.definitions, policy⟩ place) e.type = some type := by
  have hp := Scene.isClass_iff.mp hclass
  obtain ⟨v, hv, hctx, hsite⟩ := exists_visit h hp (s := .insertedCast place e) hs
  obtain ⟨className, f, hleads⟩ := exists_leadsTo h hv
  have hfits := hleads.fits
  have hvisit := hleads.visit
  rw [hsite] at hfits hvisit
  obtain ⟨id, type, htype, hcast, honly⟩ :=
    hleads.sound.visit_bareCast hfits hbare hreceiver hnew hvisit
  rw [show v.ctx.formatter = ⟨scene.definitions, policy⟩ from by rw [hctx]; rfl] at htype
  obtain ⟨d, hlast, hstore, horder⟩ :=
    of_mem_visits (K := fun d => d.HasCast id place type)
      (fun hd hs hok hK => hK.visit hd hs hok) (fun _ hK => ⟨hK.cast, hK.close, hK.placed⟩) h hv
      (fun g hg => by
        obtain rfl := Except.ok.inj (hleads.visit.symm.trans hg)
        exact hcast)
  have hnext : [id, id + 1] <:+: plan.order := by
    rw [horder]
    exact List.reverse_infix.mpr hlast.placed
  have hget : plan.store.get? id = some (.cast place type false) := hstore ▸ hlast.cast
  have hmem : id ∈ plan.castsAt place :=
    mem_castsAt.mpr ⟨hnext.subset List.mem_cons_self, type, false, hget⟩
  refine ⟨id, type, castsAt_eq_singleton h hmem (fun j hj => ?_), hget, hstore ▸ hlast.close,
    hnext, htype⟩
  -- whatever cast is in this place was made in the same visit, and that makes one only
  have hplace : place ∈ v.site.castPlaces := by
    rw [hsite]
    exact List.mem_singleton_self _
  obtain ⟨hle, g, hg, hlt⟩ := makes_of_mem_castsAt h hkeys hv hplace hj
  obtain rfl := Except.ok.inj (hleads.visit.symm.trans hg)
  obtain ⟨i, hi⟩ := Store.exists_get? hlt
  obtain ⟨k, hk, hgrown⟩ := hleads.grows j i hi
  obtain ⟨-, type', separateLine, hj⟩ := mem_castsAt.mp hj
  obtain rfl := Option.some.inj (hk.symm.trans hj)
  refine honly j hle ⟨i, hi, ?_⟩
  cases hgrown
  trivial

end Places

/-- **A cast that is asked for with nothing on its type** is inserted, once, with its parenthesis
right behind it and with all that is within its type written into it – if a cast can go to its
path. If none can, there is none. -/
theorem bareCast_written (h : ofSceneWith policy scene lookup settings = .ok plan)
    (hkeys : scene.HasKeys) (hc : (name, c) ∈ scene.classes.entries) {i : AstInsertions}
    (hi : c.Inserts name place i) {path : AstPath} {e : CastElement}
    (he : (path, e) ∈ i.casts.entries) (hbare : e.annotations = []) :
    (path.TakesCast name → ∃ id type, plan.castsAt (place.add (.astPath path)) = [id]
        ∧ plan.store.get? id = some (.cast (place.add (.astPath path)) type false)
        ∧ plan.store.get? (id + 1) = some (.closeParenthesis (place.add (.astPath path)) false)
        ∧ [id, id + 1] <:+: plan.order
        ∧ JavaType.annotateAll? (e.marks ⟨scene.definitions, policy⟩ (place.add (.astPath path)))
            e.type = some type)
      ∧ (¬ path.TakesCast name → plan.castsAt (place.add (.astPath path)) = []) := by
  have hreceiver := CriteriaList.targetsReceiver_add_astPath place path
  have hnew := CriteriaList.targetsNew_add_astPath path hi.isOnNew_eq_false
  have hs := hi.site_mem he
  constructor
  · rintro ⟨hpackage, hnotReceiver, hnotNew⟩
    exact exists_castsAt h hkeys ⟨hc, hpackage⟩ hs hbare
      (Bool.eq_false_iff.mpr (mt hreceiver.mp hnotReceiver))
      (Bool.eq_false_iff.mpr (mt hnew.mp hnotNew))
  · refine fun hnot => List.eq_nil_iff_forall_not_mem.mpr (fun id hid => hnot ?_)
    have hclass : (place.add (.astPath path)).compose.className? = some name :=
      ((Part.fits_sites (.type name c) _ hs).spots _ (Site.spot_mem_spots _)).className?_eq
    obtain ⟨⟨-, hpackage⟩, hreceiver', hnew'⟩ := isClass_of_mem_castsAt h hc hclass hid
    exact ⟨hpackage, fun hends => Bool.eq_false_iff.mp hreceiver' (hreceiver.mpr hends),
      fun hends => Bool.eq_false_iff.mp hnew' (hnew.mpr hends)⟩

end Entries

/-- In the sample scene a cast is asked for in the code of the constructor, with an annotation
within its type. -/
theorem bareCast_written_sample :
    ∃ plan place path, ofSceneWith ⟨[]⟩ Scene.sample .implicit {} = .ok plan
      ∧ Scene.sample.HasKeys
      ∧ (∃ c, ("C", c) ∈ Scene.sample.classes.entries
        ∧ ∃ i, c.Inserts "C" place i ∧ ∃ e, (path, e) ∈ i.casts.entries ∧ e.annotations = [])
      ∧ path.TakesCast "C"
      ∧ ∃ id type, plan.castsAt (place.add (.astPath path)) = [id]
        ∧ plan.store.get? id = some (.cast (place.add (.astPath path)) type false)
        ∧ type.text = "List<@A String>"
        ∧ [id, id + 1] <:+: plan.order := by
  obtain ⟨plan, hplan⟩ : ∃ plan, ofSceneWith ⟨[]⟩ Scene.sample .implicit {} = .ok plan :=
    ⟨_, rfl⟩
  have hkeys : Scene.sample.HasKeys := by
    intro c hc
    obtain rfl := List.mem_singleton.mp hc
    refine ⟨fun m hm => ?_, nofun, nofun, nofun⟩
    obtain rfl := List.mem_singleton.mp hm
    exact ⟨List.nodup_nil, trivial⟩
  have htakes : AstPath.TakesCast ⟨[⟨.method, "body", none⟩]⟩ "C" :=
    ⟨by decide, by decide, by decide⟩
  obtain ⟨id, type, hcasts, hcast, -, hnext, htype⟩ :=
    (bareCast_written hplan hkeys List.mem_cons_self (.method List.mem_cons_self)
      List.mem_cons_self rfl).1 htakes
  refine ⟨plan, _, _, hplan, hkeys, ⟨_, List.mem_cons_self, _, .method List.mem_cons_self, _,
    List.mem_cons_self, rfl⟩, htakes, id, type, hcasts, hcast, ?_, hnext⟩
  obtain rfl := Option.some.inj htype
  decide

end Plan

/-- **A class with a cast to be inserted on a receiver.** -/
def Scene.castOnReceiver : Scene where
  definitions := .empty
  packages := .empty
  classes := .ofList [("C", { (default : ClassElement) with
    methods := .ofList [("m()V", { (default : MethodElement) with
      insertions := ⟨.empty, .ofList [(⟨[⟨.method, "parameter", some (-1)⟩]⟩,
        ⟨[], [], .named "T"⟩)]⟩ })] })]

/-- **Not every cast that is asked for is inserted**: this one is not, and nothing else is. -/
theorem Plan.castOnReceiver_lost :
    ∃ plan place path, ofScene Scene.castOnReceiver .implicit {} = .ok plan
      ∧ (∃ c, ("C", c) ∈ Scene.castOnReceiver.classes.entries
        ∧ ∃ i, c.Inserts "C" place i ∧ ∃ e, (path, e) ∈ i.casts.entries ∧ e.annotations = [])
      ∧ plan.castsAt (place.add (.astPath path)) = []
      ∧ plan.order = [] :=
  ⟨_, _, _, rfl, ⟨_, List.mem_cons_self, _, .method List.mem_cons_self, _, List.mem_cons_self, rfl⟩,
    rfl, rfl⟩

end AnnotationPlan
