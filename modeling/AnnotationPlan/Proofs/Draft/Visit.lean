import AnnotationPlan.Proofs.AnnotationUse.Format
import AnnotationPlan.Proofs.Draft.Gather

/-!
# A visit is a sequence of steps

Working off a site takes the steps of `Step` at its spots and no others, and nothing but
the scene can stop it (`Draft.visit_yields`). At the end of a visit nothing is in hand.
The annotations within the type of the site (`Draft.within`) were withheld if the type
could become a cast; if it became one (`Draft.castAt`), they have been written into it.
-/

namespace AnnotationPlan

/-- A cast is made only where there is a type to cast to. -/
theorem Form.isSome_of_isCast {criteria : Criteria} {cast : Option JavaType}
    (h : (Form.classify criteria cast).isCast = true) : cast.isSome = true := by
  cases cast with
  | some type => rfl
  | none =>
    unfold classify at h
    split at h
    · cases h
    · split at h <;> cases h

namespace Draft

open Insertion

variable {ctx : Context} {className : Option String} {d : Draft} {s : Site} {q : Position}
  {inner : List InsertionId}

/-- The annotations on a position are written or the scene is at fault. -/
theorem notes_yields (ctx : Context) (q : Position) :
    Yields (fun notes => ∀ n ∈ notes, ctx.HasNote q n)
      (ctx.formatter.notes q.criteria q.annotations) :=
  (Formatter.notes_yields ctx.formatter q.criteria q.annotations).self.mono
    (fun notes h _ hn => ⟨notes, h.1, hn⟩)

/-- **A position within a type is worked off in steps.** What is withheld is in hand
afterwards. -/
theorem visitNested_yields (hd : d.Sound className) (hp : (Spot.within q).Fits className)
    (hpath : ∃ path, q.criteria.compose.typePath? = some path) (withhold : Bool) :
    Yields (fun r => (∀ id ∈ r.2, r.1.store.Has IsWithin id)
        ∧ ∀ hand written, Steps ctx (.within q) d.store.size ⟨d, hand, written⟩
            ⟨r.1, hand ++ (if withhold then r.2 else []), written⟩)
      (visitNested ctx withhold d q) := by
  refine (notes_yields ctx q).bind (fun notes hnotes => ?_)
  cases hform : Form.classify q.criteria.compose none with
  | single =>
    refine (addSingles_yields (p := .within q) hp hform withhold hd hnotes).mono (fun r hr => ?_)
    obtain ⟨hids, hsteps⟩ := hr
    refine ⟨fun id hid => ?_, hsteps d.store.size⟩
    obtain ⟨n, hn⟩ := hids id hid
    exact ⟨_, hn, trivial, (q.typePath?_insertion n).symm ▸ hpath⟩
  | cast type =>
    -- there is no type to cast to within a type
    have hcast : (Form.classify q.criteria.compose none).isCast = true := by
      rw [hform]
      rfl
    cases Form.isSome_of_isCast hcast
  | _ =>
    have hform' : (Spot.within q).form = _ := hform
    have hgather := gather_yields (p := .within q) hd hp (by rw [hform']; simp)
      (fun j (hj : j ∈ []) => absurd hj List.not_mem_nil) hnotes
    rw [hform'] at hgather
    refine hgather.bind (fun e he => Yields.pure ?_)
    obtain ⟨-, hsteps⟩ := he
    refine ⟨fun id hid => absurd hid List.not_mem_nil, fun hand written => ?_⟩
    simpa [Form.takes] using hsteps hand written

/-- **The positions within the type of a site are worked off in steps.** -/
theorem visitAllNested_yields (hs : s.Fits className) :
    ∀ {positions : List Position} {d : Draft}, positions ⊆ s.nested → d.Sound className →
      ∀ {base : Nat}, base ≤ d.store.size →
        Yields (fun r => (∀ id ∈ r.2, r.1.store.Has IsWithin id)
            ∧ ∀ hand written, SiteSteps ctx s base ⟨d, hand, written⟩
                ⟨r.1, hand ++ (if s.withholds then r.2 else []), written⟩)
          (visitAllNested ctx s.withholds d positions)
  | [], d, _, hd, base, _ => by
    refine Yields.pure ⟨fun id hid => absurd hid List.not_mem_nil, fun hand written => ?_⟩
    rw [ite_self, List.append_nil]
  | q :: rest, d, hsub, hd, base, hbase => by
    have hq : q ∈ s.nested := hsub List.mem_cons_self
    have hspot := Site.within_mem_spots hq
    have hp := hs.spots _ hspot
    refine (visitNested_yields hd hp (hs.within q hq) s.withholds).bind
      (fun ⟨e, ids⟩ ⟨hids, hfirst⟩ => ?_)
    obtain ⟨he, hgrown⟩ := (hfirst [] []).sound hp hd
    refine (visitAllNested_yields hs (List.subset_of_cons_subset hsub) he
      (Nat.le_trans hbase hgrown.size_le)).bind
      (fun ⟨f, more⟩ ⟨hmore, hsteps⟩ => Yields.pure ⟨?_, fun hand written => ?_⟩)
    · have hgrows := ((hsteps [] []).sound hs he).2
      intro id hid
      rcases List.mem_append.mp hid with hid | hid
      · exact (hids id hid).grows hgrows (fun _ _ h => h.isWithin)
      · exact hmore id hid
    · have hall := ((hfirst hand written).site hspot hbase).trans (hsteps _ written)
      cases hw : s.withholds <;> simpa [hw] using hall

/-! ## The site itself -/

/-- Put what was withheld for a site into the output, unless it goes into a cast. -/
def release (s : Site) (d : Draft) (inner : List InsertionId) : Draft :=
  if s.withholds && !s.spot.form.isCast then d.place inner else d

/-- Work off the site itself, after the positions within its type. -/
def visitOwn (ctx : Context) (s : Site) (d : Draft) (inner : List InsertionId) :
    Except PlanError Draft := do
  let notes ← ctx.formatter.notes s.criteria s.annotations
  match s.spot.form with
  | .single => do
    let (d, _) ← addSingles ctx s.criteria s.criteria.compose false (release s d inner) notes
    pure d
  | form => gather ctx form s.criteria s.criteria.compose inner (release s d inner) notes

/-- **A visit comes in two parts**: first the positions within the type, then the site
itself. -/
theorem visit_eq (ctx : Context) (d : Draft) (s : Site) :
    visit ctx d s
      = visitAllNested ctx s.withholds d s.nested >>= fun r => visitOwn ctx s r.1 r.2 :=
  rfl

@[simp] theorem store_release (s : Site) (d : Draft) (inner : List InsertionId) :
    (release s d inner).store = d.store := by
  unfold release
  split <;> rfl

/-- **What was withheld leaves the hand**, unless a cast takes it. -/
theorem release_steps (ctx : Context) (hs : s.Fits className)
    (hinner : ∀ j ∈ inner, d.store.Has IsWithin j) (base : Nat)
    (written : List (InsertionId × InsertionId)) :
    Steps ctx s.spot base ⟨d, if s.withholds then inner else [], written⟩
      ⟨release s d inner, s.spot.form.takes inner, written⟩ := by
  have hplace : Step ctx s.spot base ⟨d, [] ++ inner, written⟩ ⟨d.place inner, [], written⟩ :=
    .place inner (.of_whole (fun j hj => (hinner j hj).imp (fun _ h => ⟨h.1, h.2.1.isWhole⟩)))
  unfold release Form.takes
  cases hw : s.withholds with
  | true =>
    cases hc : s.spot.form.isCast with
    | true => exact .refl
    | false => exact .single hplace
  | false =>
    cases hc : s.spot.form.isCast with
    | true =>
      have hcast := hs.withholds (Form.isSome_of_isCast hc)
      rw [hw] at hcast
      cases hcast
    | false => exact .refl

/-- **The site itself is worked off in steps**, and nothing is in hand afterwards. -/
theorem visitOwn_yields (hd : d.Sound className) (hs : s.Fits className)
    (hinner : ∀ j ∈ inner, d.store.Has IsWithin j) :
    Yields (fun e => (s.spot.form.isCast = true → ∃ made, Made s.spot e.store d.store.size made)
        ∧ ∀ written, Steps ctx s.spot d.store.size
            ⟨d, if s.withholds then inner else [], written⟩
            ⟨e, [], written ++ (s.spot.form.takes inner).map (fun j => (j, d.store.size))⟩)
      (visitOwn ctx s d inner) := by
  have hp := hs.spots _ s.spot_mem_spots
  have hrelease := release_steps ctx hs hinner d.store.size
  have hd' := ((hrelease []).sound hp hd).1
  refine (notes_yields ctx s.toPosition).bind (fun notes hnotes => ?_)
  cases hform : s.spot.form with
  | single =>
    refine (addSingles_yields hp hform false hd' hnotes).bind (fun r hr => Yields.pure ?_)
    obtain ⟨-, hsteps⟩ := hr
    refine ⟨(fun hcast => by cases hcast), fun written => ?_⟩
    rw [hform] at hrelease
    simpa [Form.takes, Form.isCast] using (hrelease written).trans (hsteps _ [] written)
  | _ =>
    have hgather := gather_yields hd' hp (by rw [hform]; simp)
      (fun j hj => by rw [store_release]; exact hinner j hj) hnotes
    rw [store_release, hform] at hgather
    rw [hform] at hrelease
    refine hgather.mono (fun e he => ?_)
    obtain ⟨hmade, hsteps⟩ := he
    exact ⟨hmade, fun written => (hrelease written).trans (hsteps [] written)⟩

/-! ## The whole visit -/

/-- **The annotations within the type** that are made when a site is worked off. -/
def within (ctx : Context) (d : Draft) (s : Site) : List InsertionId :=
  match visitAllNested ctx s.withholds d s.nested with
  | .ok (_, ids) => ids
  | .error _ => []

/-- **The cast** that is made when a site is worked off, if it is one where a cast is to
be inserted. -/
def castAt (ctx : Context) (d : Draft) (s : Site) : Option InsertionId :=
  match visitAllNested ctx s.withholds d s.nested with
  | .ok (e, _) => if s.spot.form.isCast then some e.store.size else none
  | .error _ => none

/-- What is written into a cast when a site is worked off. -/
def writtenAt (ctx : Context) (d : Draft) (s : Site) : List (InsertionId × InsertionId) :=
  match castAt ctx d s with
  | some c => (within ctx d s).map (fun j => (j, c))
  | none => []

/-- **A site is worked off in steps**, with nothing in hand before and after. -/
theorem visit_yields (hd : d.Sound className) (hs : s.Fits className) :
    Yields (fun e =>
        (∀ c, castAt ctx d s = some c → ∃ made, Made s.spot e.store c made)
        ∧ ∀ written, SiteSteps ctx s d.store.size ⟨d, [], written⟩
            ⟨e, [], written ++ writtenAt ctx d s⟩)
      (visit ctx d s) := by
  rw [visit_eq]
  refine (visitAllNested_yields hs (List.Subset.refl _) hd (Nat.le_refl _)).self.bind
    (fun ⟨e, ids⟩ ⟨hnested, hinner, hfirst⟩ => ?_)
  obtain ⟨he, hgrown⟩ := (hfirst [] []).sound hs hd
  refine (visitOwn_yields he hs hinner).mono (fun f ⟨hmade, hsteps⟩ => ⟨?_, fun written => ?_⟩)
  · intro c hc
    rw [castAt, hnested] at hc
    obtain ⟨hcast, hc⟩ := Option.ite_none_right_eq_some.mp hc
    obtain rfl := Option.some.inj hc
    exact hmade hcast
  · have hwritten : writtenAt ctx d s
        = (s.spot.form.takes ids).map (fun j => (j, e.store.size)) := by
      unfold writtenAt castAt within Form.takes
      rw [hnested]
      cases s.spot.form.isCast <;> rfl
    rw [hwritten]
    exact (hfirst [] written).trans ((hsteps written).site s.spot_mem_spots hgrown.size_le)

end Draft

end AnnotationPlan
