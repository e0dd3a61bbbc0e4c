import AnnotationPlan.Proofs.Draft.Counting
import AnnotationPlan.Proofs.Draft.Making
import AnnotationPlan.Proofs.Draft.Notes

/-!
# Annotations in another order

If a site can be worked off, it can be worked off with its annotations in another order, and
the same insertions are in the same places afterwards (`Draft.exists_visit`). In another order
the annotations can be written as well, and as many of them stand on types only
(`Spot.Shuffled.exists_notes`). The texts that are written into a cast may be others, but
whether they fit its type is a matter of their paths.

There is one exception. All annotations on a created object, or on a cast, are gathered in one
insertion, and if that is on the constructor of the class, the first of them decides whether it
goes above the constructor. So there the first one must decide the same in both orders.
-/

namespace AnnotationPlan

/-- **The same annotations in another order**, if not in the same one. Those that have changed
places set each field once. -/
def AnnotationUse.Shuffled (uses uses' : List AnnotationUse) : Prop :=
  uses = uses' ∨ uses.Perm uses' ∧ ∀ u ∈ uses, (FieldValue.nested u).IsDistinct

/-- **A spot with its annotations in another order.** Where they are gathered for a created
object or for a cast, and that is on the constructor, the first one decides about all of them;
so there it stands on types only as much as the one before did. -/
structure Spot.Shuffled (ctx : Context) (p p' : Spot) : Prop where
  /-- The spot is the same. -/
  criteria_eq : p'.criteria = p.criteria
  /-- So is the type to cast to. -/
  cast_eq : p'.cast = p.cast
  /-- The annotations are in another order at most. -/
  annotations : AnnotationUse.Shuffled p.annotations p'.annotations
  /-- The first one decides the same. -/
  first : p.form = .new ∨ p.form.isCast = true → ctx.OnConstructor p.toPosition →
    ctx.formatter.firstTypeOnly? p.annotations = ctx.formatter.firstTypeOnly? p'.annotations

/-- **A site with annotations in another order**, at any of its spots. -/
structure Site.Shuffled (ctx : Context) (s s' : Site) : Prop where
  /-- The annotations on the site itself. -/
  own : s.spot.Shuffled ctx s'.spot
  /-- Those on the positions within its type. -/
  nested : List.Forall₂ (fun q q' => (Spot.within q).Shuffled ctx (.within q')) s.nested s'.nested
  /-- Both wait for what the type becomes, or neither. -/
  withholds_eq : s'.withholds = s.withholds

namespace Spot.Shuffled

variable {ctx : Context} {p p' : Spot} {notes : List Note}

theorem form_eq (h : p.Shuffled ctx p') : p'.form = p.form := by
  unfold Spot.form
  rw [h.criteria_eq, h.cast_eq]

/-- In another order the annotations can be written, too, and a spot is worked off as it was. -/
theorem exists_notes (h : p.Shuffled ctx p')
    (hnotes : ctx.formatter.notes p.criteria p.annotations = .ok notes) :
    (∃ notes', ctx.formatter.notes p'.criteria p'.annotations = .ok notes')
      ∧ ∀ withhold inner t, Census.visitSpot ctx p' withhold inner t
          = Census.visitSpot ctx p withhold inner t := by
  obtain ⟨notes', hnotes', hflags⟩ : ∃ notes',
      ctx.formatter.notes p.criteria p'.annotations = .ok notes'
        ∧ (notes.map Note.typeOnly).Perm (notes'.map Note.typeOnly) := by
    rcases h.annotations with heq | ⟨hperm, hdistinct⟩
    · exact ⟨notes, heq ▸ hnotes, .refl _⟩
    · exact Formatter.exists_notes_of_perm hnotes hperm hdistinct
  rw [← h.criteria_eq] at hnotes'
  refine ⟨⟨notes', hnotes'⟩, fun withhold inner t => ?_⟩
  refine Census.visitSpot_eq h.criteria_eq h.cast_eq ?_ (fun hform on => ?_) withhold inner t
  · rw [Context.flags_eq hnotes, Context.flags_eq hnotes']
    exact hflags
  · have hfirst := h.first hform on
    rw [← Formatter.head?_notes hnotes, ← Formatter.head?_notes hnotes'] at hfirst
    rwa [Context.flags_eq hnotes, Context.flags_eq hnotes', List.head?_map, List.head?_map]

end Spot.Shuffled

namespace Draft

variable {ctx : Context} {className : Option String} {d d' e : Draft} {t : Census}
  {ids : List InsertionId}

/-- **Where positions have been worked off** their annotations could be written. -/
theorem exists_notes_of_visitAllNested {withhold : Bool} :
    ∀ {positions : List Position} {d : Draft} {ids : List InsertionId},
      visitAllNested ctx withhold d positions = .ok (e, ids) →
      ∀ q ∈ positions, ∃ notes, ctx.formatter.notes q.criteria q.annotations = .ok notes
  | [], _, _, _, _, hq => absurd hq List.not_mem_nil
  | q :: rest, d, _, h, q', hq' => by
    obtain ⟨⟨f, ids⟩, hf, h⟩ := bind_eq_ok.mp h
    obtain ⟨⟨g, more⟩, hg, h⟩ := bind_eq_ok.mp h
    cases h
    rcases List.mem_cons.mp hq' with rfl | hq'
    · rw [visitNested] at hf
      obtain ⟨notes, hnotes, -⟩ := bind_eq_ok.mp hf
      exact ⟨notes, hnotes⟩
    · exact exists_notes_of_visitAllNested hg q' hq'

/-- **Where annotations have been gathered in a cast**, those within fitted its type. -/
theorem exists_pushCast_of_gather {place : CriteriaList} {criteria : Criteria} {type : JavaType}
    {notes : List Note} (h : gather ctx (.cast type) place criteria ids d notes = .ok e) :
    ∃ text store, d.store.pushCast type text ids place = .ok store := by
  cases notes with
  | nil =>
    rw [gather, Form.isCast, Bool.true_or, if_pos rfl] at h
    obtain ⟨r, hr, -⟩ := bind_eq_ok.mp h
    obtain ⟨store, hstore, -⟩ := bind_eq_ok.mp hr
    exact ⟨none, store, hstore⟩
  | cons n rest =>
    rw [gather] at h
    obtain ⟨r, hr, -⟩ := bind_eq_ok.mp h
    obtain ⟨store, hstore, -⟩ := bind_eq_ok.mp hr
    exact ⟨some n.text, store, hstore⟩

/-- **Where a site has been worked off** its annotations could be written, and if there is a
cast, those within fitted its type. -/
theorem exists_notes_of_visitOwn {s : Site} (h : visitOwn ctx s d ids = .ok e) :
    (∃ notes, ctx.formatter.notes s.criteria s.annotations = .ok notes)
      ∧ ∀ text type, s.spot.form = .cast type →
        ∃ store, d.store.pushCast type text ids s.criteria = .ok store := by
  rw [visitOwn] at h
  obtain ⟨notes, hnotes, h⟩ := bind_eq_ok.mp h
  refine ⟨⟨notes, hnotes⟩, fun text type hform => ?_⟩
  rw [hform] at h
  obtain ⟨text', store, hstore⟩ := exists_pushCast_of_gather h
  rw [store_release] at hstore
  exact Store.exists_pushCast rfl hstore text

/-- In another order the positions within a type are worked off as they were. -/
theorem visitWithin_eq {positions positions' : List Position} (withhold : Bool)
    (h : List.Forall₂ (fun q q' => (Spot.within q).Shuffled ctx (.within q')) positions positions')
    (hnotes : ∀ q ∈ positions, ∃ notes, ctx.formatter.notes q.criteria q.annotations = .ok notes) :
    (∀ q ∈ positions', ∃ notes, ctx.formatter.notes q.criteria q.annotations = .ok notes)
      ∧ ∀ t, Census.visitWithin ctx withhold t positions'
          = Census.visitWithin ctx withhold t positions := by
  induction h with
  | nil => exact ⟨fun q hq => absurd hq List.not_mem_nil, fun _ => rfl⟩
  | @cons q q' rest rest' hq _ ih =>
    obtain ⟨⟨notes, hfirst⟩, hrest⟩ := List.forall_mem_cons.mp hnotes
    obtain ⟨hfirst', hspot⟩ := hq.exists_notes hfirst
    obtain ⟨hrest', hsame⟩ := ih hrest
    refine ⟨List.forall_mem_cons.mpr ⟨hfirst', hrest'⟩, fun t => ?_⟩
    rw [Census.visitWithin, Census.visitWithin, hspot, hsame]

/-- **A site is worked off with annotations in another order**, if it is with those in the one
that they have, and what there is where is the same in the end. -/
theorem exists_visit {s s' : Site} (hs : s.Shuffled ctx s') (hfits : s'.Fits className)
    (hd' : d'.Sound className) (h : d.Counted t) (h' : d'.Counted t)
    (hok : visit ctx d s = .ok e) :
    ∃ e', visit ctx d' s' = .ok e' ∧ e.Counted (t.visit ctx s) ∧ e'.Counted (t.visit ctx s) := by
  rw [visit_eq] at hok
  obtain ⟨⟨f, ids⟩, hnested, hown⟩ := bind_eq_ok.mp hok
  have hnotes := exists_notes_of_visitAllNested hnested
  obtain ⟨hgrows, hf, htags⟩ := (visitAllNested_makes s.withholds h hnotes).of_ok hnested
  -- the positions within come first, and are worked off in the same way
  obtain ⟨hnotes', hwithin⟩ := visitWithin_eq s.withholds hs.nested hnotes
  have hsteps : Yields _ (visitAllNested ctx s'.withholds d' s'.nested) :=
    visitAllNested_yields hfits (List.Subset.refl s'.nested) hd' (Nat.le_refl d'.store.size)
  rw [hs.withholds_eq] at hsteps
  obtain ⟨⟨f', ids'⟩, hnested', ⟨-, hf', htags'⟩, hinner, hsteps⟩ :=
    (visitAllNested_makes s.withholds h' hnotes').exists_ok hsteps
  rw [hwithin] at hf' htags'
  have hsound := ((hsteps [] []).sound hfits hd').1
  -- then the site itself: a cast that fitted the annotations within fits them in another order
  obtain ⟨⟨notes, hnotes⟩, hcast⟩ := exists_notes_of_visitOwn hown
  obtain ⟨⟨notes', hnotes'⟩, hspot⟩ := hs.own.exists_notes hnotes
  have hcriteria : s'.criteria = s.criteria := hs.own.criteria_eq
  have hcast' : ∀ text type, s'.spot.form = .cast type →
      ∃ store, f'.store.pushCast type text ids' s'.criteria = .ok store := by
    intro text type hform
    obtain ⟨store, hstore⟩ := hcast text type (hs.own.form_eq ▸ hform)
    rw [hcriteria]
    exact Store.exists_pushCast (htags.trans htags'.symm) hstore text
  obtain ⟨e', he', hcounted', -⟩ :=
    (visitOwn_makes hf' htags' hcast' hnotes').exists_ok (visitOwn_yields hsound hfits hinner)
  refine ⟨e', ?_, (visitOwn_makes hf htags hcast hnotes).of_ok hown, ?_⟩
  · rw [visit_eq, hs.withholds_eq, hnested']
    exact he'
  · have hsame : Census.visitOwn ctx s' = Census.visitOwn ctx s := by
      funext inner t
      rw [Census.visitOwn, Census.visitOwn, hspot, hs.withholds_eq, hs.own.form_eq]
    rwa [hsame] at hcounted'

/-- **Drafts with the same census**, of which the second one is sound. -/
def SameCensus (className : Option String) (d d' : Draft) : Prop :=
  d'.Sound className ∧ ∃ t, d.Counted t ∧ d'.Counted t

/-- In such drafts the same insertions are in the same places. -/
theorem SameCensus.perm (h : SameCensus className d d') (o : Option InsertionId) :
    ((d'.idsAt o).map d'.store.tag?).Perm ((d.idsAt o).map d.store.tag?) := by
  obtain ⟨-, t, hd, hd'⟩ := h
  exact Multiset.coe_eq_coe.mp ((hd'.held_eq o).trans (hd.held_eq o).symm)

/-- **Sites are worked off with annotations in another order** as they were. -/
theorem exists_visits {sites sites' : List Site} (h : List.Forall₂ (Site.Shuffled ctx) sites sites')
    (hfits : ∀ s ∈ sites', s.Fits className) (hd : SameCensus className d d')
    (hok : sites.foldlM (visit ctx) d = .ok e) :
    ∃ e', sites'.foldlM (visit ctx) d' = .ok e' ∧ SameCensus className e e' := by
  have hboth : List.Forall₂ (fun s s' => s.Shuffled ctx s' ∧ s'.Fits className) sites sites' := by
    refine List.forall₂_iff_zip.mpr ⟨h.length_eq, fun hmem => ⟨List.forall₂_zip h hmem, ?_⟩⟩
    exact hfits _ (List.of_mem_zip hmem).2
  refine exists_foldlM_ok (fun ⟨hd', t, hcounted, hcounted'⟩ ⟨hs, hs'⟩ hvisit => ?_) hboth hd hok
  obtain ⟨e', he', hcount⟩ := exists_visit hs hs' hd' hcounted hcounted' hvisit
  exact ⟨e', he', (hd'.of_visit hs' he').1, _, hcount⟩

end Draft

end AnnotationPlan
