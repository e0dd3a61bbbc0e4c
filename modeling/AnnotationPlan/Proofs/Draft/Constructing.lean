import AnnotationPlan.Proofs.Draft.Receiving

/-!
# When a constructor is made

The constructor that is written for a class is made when the first annotation comes up
that is on it. All ways of working off a spot lead there, whatever the annotations become
(`Draft.addSingles_constructs`, `Draft.gather_constructs`), and the class keeps the
constructor from then on (`Step.constructor_ne_none`). So a visit to a site that has
annotations on the constructor leaves the class with one
(`Draft.Sound.visit_constructs`).
-/

namespace AnnotationPlan

/-- An annotation is on a spot only if there are some. -/
theorem Context.HasNote.annotations_ne_nil {ctx : Context} {p : Position} {n : Note}
    (h : ctx.HasNote p n) : p.annotations ≠ [] := by
  obtain ⟨notes, hnotes, hn⟩ := h
  intro hnil
  rw [((Formatter.notes_yields ctx.formatter p.criteria p.annotations).of_ok hnotes).mpr hnil] at hn
  exact absurd hn List.not_mem_nil

/-- A class keeps its constructor in every step. -/
theorem Step.constructor_ne_none {ctx : Context} {p : Spot} {base : Nat} {w w' : Work}
    (h : Step ctx p base w w') (hw : w.draft.constructor ≠ none) :
    w'.draft.constructor ≠ none := by
  cases h with
  | construct n note on none made => exact Option.some_ne_none _
  | receive on form kind constructor made => exact (Draft.absorbReceiver_spec made).2.2 ▸ hw
  | annotate n note new kind made => exact (Draft.addNote_spec made).2.2 ▸ hw
  | _ => exact hw

/-- A class keeps its constructor in all steps at a spot. -/
theorem Steps.constructor_ne_none {ctx : Context} {p : Spot} {base : Nat} {w w' : Work}
    (h : Steps ctx p base w w') (hw : w.draft.constructor ≠ none) :
    w'.draft.constructor ≠ none := by
  induction h with
  | refl => exact hw
  | tail _ hlast ih => exact hlast.constructor_ne_none ih

/-- A class keeps its constructor in all steps at a site. -/
theorem SiteSteps.constructor_ne_none {ctx : Context} {s : Site} {base : Nat} {w w' : Work}
    (h : SiteSteps ctx s base w w') (hw : w.draft.constructor ≠ none) :
    w'.draft.constructor ≠ none :=
  h.keep (I := fun v => v.draft.constructor ≠ none)
    (fun _ _ _ _ hstep hv => hstep.constructor_ne_none hv) hw

namespace Draft

variable {ctx : Context} {p : Spot} {className : Option String} {d e : Draft} {n : Note}
  {inner : List InsertionId} {notes : List Note} {s : Site}

/-! ## Annotations on the constructor -/

/-- What the constructor takes up does not replace it. -/
theorem constructor_absorbInto {c : InsertionId} {criteria : Criteria} {absorbed : Bool}
    {made : List InsertionId} (h : d.absorbInto c criteria n made = .ok (e, absorbed)) :
    e.constructor = d.constructor := by
  cases made with
  | nil =>
    cases h
    rfl
  | cons id rest =>
    rw [absorbInto] at h
    split at h
    case h_1 =>
      obtain ⟨f, hf, h⟩ := bind_eq_ok.mp h
      cases h
      exact (absorbReceiver_spec hf).2.2
    case h_2 =>
      split at h
      case isTrue =>
        obtain ⟨store, -, h⟩ := bind_eq_ok.mp h
        cases h
        rfl
      case isFalse =>
        split at h
        case isTrue =>
          cases h
          rfl
        case isFalse =>
          obtain ⟨store, -, h⟩ := bind_eq_ok.mp h
          cases h
          rfl

/-- **An annotation on the constructor** leaves the class with one. -/
theorem absorb_constructs {absorbed : Bool} {made : List InsertionId}
    (on : ctx.OnConstructor p.toPosition)
    (h : absorb ctx p.criteria p.criteria.compose d n made = .ok (e, absorbed)) :
    e.constructor ≠ none := by
  rw [absorb_of_on on, bind_eq_ok] at h
  obtain ⟨⟨f, c⟩, hensure, h⟩ := h
  rw [constructor_absorbInto h, (keepsReceiver_ensureConstructor hensure).2.1]
  exact Option.some_ne_none c

/-- So do annotations that become insertions of their own. -/
theorem addSingles_constructs {withhold : Bool} {ids : List InsertionId}
    (hd : d.Sound className) (hp : p.Fits className) (hform : p.form = .single)
    (on : ctx.OnConstructor p.toPosition) (hnotes : ∀ n ∈ notes, ctx.HasNote p.toPosition n)
    (hne : notes ≠ [])
    (h : addSingles ctx p.criteria p.criteria.compose withhold d notes = .ok (e, ids)) :
    e.constructor ≠ none := by
  cases notes with
  | nil => exact absurd rfl hne
  | cons n rest =>
    obtain ⟨note, hrest⟩ := List.forall_mem_cons.mp hnotes
    rw [addSingles, bind_eq_ok] at h
    obtain ⟨⟨f, id⟩, hf, h⟩ := h
    obtain ⟨⟨g, more⟩, hg, h⟩ := bind_eq_ok.mp h
    cases h
    -- the first of them makes it, and the others keep it
    obtain ⟨-, hfirst⟩ := (addSingle_yields hd hp hform note withhold).of_ok hf
    have hsound := ((hfirst 0 [] []).sound hp hd).1
    obtain ⟨-, hsteps⟩ := (addSingles_yields hp hform withhold hsound hrest).of_ok hg
    refine (hsteps 0 [] []).constructor_ne_none ?_
    obtain ⟨⟨f', absorbed⟩, habsorb, hf⟩ := bind_eq_ok.mp hf
    cases hf
    exact absorb_constructs on habsorb

/-- So do annotations that are gathered. -/
theorem gather_constructs {form : Form} (on : ctx.OnConstructor p.toPosition)
    (hne : notes ≠ [])
    (h : gather ctx form p.criteria p.criteria.compose inner d notes = .ok e) :
    e.constructor ≠ none := by
  cases notes with
  | nil => exact absurd rfl hne
  | cons n rest =>
    rw [gather, bind_eq_ok] at h
    obtain ⟨⟨f, made⟩, -, h⟩ := h
    obtain ⟨⟨g, absorbed⟩, habsorb, h⟩ := bind_eq_ok.mp h
    obtain ⟨k, hk, h⟩ := bind_eq_ok.mp h
    have hconstructor := (addNotes_spec hk).1 ▸ absorb_constructs on habsorb
    cases h
    split
    · exact hconstructor
    · exact hconstructor

/-! ## Positions and sites -/

/-- **A position on the constructor** within a type leaves the class with one, if it has
annotations. -/
theorem Sound.visitNested_constructs {q : Position} {withhold : Bool} {ids : List InsertionId}
    (hd : d.Sound className) (hp : (Spot.within q).Fits className) (on : ctx.OnConstructor q)
    (hq : q.annotations ≠ []) (h : visitNested ctx withhold d q = .ok (e, ids)) :
    e.constructor ≠ none := by
  rw [visitNested, bind_eq_ok] at h
  obtain ⟨notes, hnotes, h⟩ := h
  have hnil := (Formatter.notes_yields ctx.formatter q.criteria q.annotations).of_ok hnotes
  have hne : notes ≠ [] := fun hnotes => hq (hnil.mp hnotes)
  cases hform : Form.classify q.criteria.compose none with
  | single =>
    rw [hform] at h
    exact addSingles_constructs (p := .within q) hd hp hform on
      (fun n hn => ⟨notes, hnotes, hn⟩) hne h
  | _ =>
    rw [hform] at h
    obtain ⟨f, hf, h⟩ := bind_eq_ok.mp h
    cases h
    exact gather_constructs (p := .within q) on hne hf

/-- So do several positions, if one of them does. -/
theorem Sound.visitAllNested_constructs (hs : s.Fits className) {q : Position}
    (on : ctx.OnConstructor q) (hannotated : q.annotations ≠ []) :
    ∀ {positions : List Position} {d e : Draft} {ids : List InsertionId},
      positions ⊆ s.nested → q ∈ positions → d.Sound className →
      visitAllNested ctx s.withholds d positions = .ok (e, ids) → e.constructor ≠ none
  | [], _, _, _, _, hq, _, _ => absurd hq List.not_mem_nil
  | r :: rest, d, e, ids, hsub, hq, hd, h => by
    rw [visitAllNested, bind_eq_ok] at h
    obtain ⟨⟨f, first⟩, hf, h⟩ := h
    obtain ⟨⟨g, more⟩, hg, h⟩ := bind_eq_ok.mp h
    cases h
    have hr : r ∈ s.nested := hsub List.mem_cons_self
    have hfits := hs.spots _ (Site.within_mem_spots hr)
    have hsub' := List.subset_of_cons_subset hsub
    obtain ⟨-, hfirst⟩ := (visitNested_yields hd hfits (hs.within r hr) s.withholds).of_ok hf
    have hsound := ((hfirst [] []).sound hfits hd).1
    rcases List.mem_cons.mp hq with rfl | hq
    · obtain ⟨-, hsteps⟩ := (visitAllNested_yields hs hsub' hsound (Nat.le_refl _)).of_ok hg
      refine (hsteps [] []).constructor_ne_none ?_
      exact hd.visitNested_constructs hfits on hannotated hf
    · exact visitAllNested_constructs hs on hannotated hsub' hq hsound hg

/-- So does the site itself. -/
theorem Sound.visitOwn_constructs (hd : d.Sound className) (hs : s.Fits className)
    (hinner : ∀ j ∈ inner, d.store.Has Insertion.IsWithin j)
    (on : ctx.OnConstructor s.toPosition) (hannotated : s.annotations ≠ [])
    (h : visitOwn ctx s d inner = .ok e) : e.constructor ≠ none := by
  have hp := hs.spots _ s.spot_mem_spots
  have hrelease := ((release_steps ctx hs hinner d.store.size []).sound hp hd).1
  rw [visitOwn, bind_eq_ok] at h
  obtain ⟨notes, hnotes, h⟩ := h
  have hnil := (Formatter.notes_yields ctx.formatter s.criteria s.annotations).of_ok hnotes
  have hne : notes ≠ [] := fun hnotes => hannotated (hnil.mp hnotes)
  cases hform : s.spot.form with
  | single =>
    rw [hform] at h
    obtain ⟨⟨f, ids⟩, hf, h⟩ := bind_eq_ok.mp h
    cases h
    exact addSingles_constructs (p := s.spot) hrelease hp hform on
      (fun n hn => ⟨notes, hnotes, hn⟩) hne hf
  | _ =>
    rw [hform] at h
    exact gather_constructs (p := s.spot) on hne h

/-- **A visit to a site with annotations on the constructor** leaves the class with one. -/
theorem Sound.visit_constructs (hd : d.Sound className) (hs : s.Fits className)
    (h : Draft.visit ctx d s = .ok e) {p : Spot} (hp : p ∈ s.spots)
    (on : ctx.OnConstructor p.toPosition) (hannotated : p.annotations ≠ []) :
    e.constructor ≠ none := by
  rw [visit_eq, bind_eq_ok] at h
  obtain ⟨⟨f, inner⟩, hf, h⟩ := h
  obtain ⟨hinner, hfirst⟩ :=
    (visitAllNested_yields hs (List.Subset.refl _) hd (Nat.le_refl _)).of_ok hf
  have hsound := ((hfirst [] []).sound hs hd).1
  rcases List.mem_append.mp hp with hp | hp
  · obtain ⟨q, hq, rfl⟩ := List.mem_map.mp hp
    obtain ⟨-, hsteps⟩ := (visitOwn_yields hsound hs hinner).of_ok h
    refine (hsteps []).constructor_ne_none ?_
    exact Sound.visitAllNested_constructs hs on hannotated (List.Subset.refl _) hq hd hf
  · obtain rfl := List.mem_singleton.mp hp
    exact hsound.visitOwn_constructs hs hinner on hannotated h

end Draft

end AnnotationPlan
