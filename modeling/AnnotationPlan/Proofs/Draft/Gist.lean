import AnnotationPlan.Proofs.Draft.Visit

/-!
# What counts of a site

Where there is no annotation nothing happens: a position without annotations makes nothing
and asks for nothing, and a site is not even noticed if there is no annotation on it or
within its type and no cast to be inserted. So what comes of sites depends on their **gist**
alone (`Site.gist`), in which everything else has been left out, whatever forms and places
the sites have (`Draft.foldlM_gist`).
-/

namespace AnnotationPlan

/-- Whether there are annotations on a position. -/
def Position.isAnnotated (p : Position) : Bool := !p.annotations.isEmpty

namespace Site

/-- The site without the positions within its type that have no annotations. -/
def trim (s : Site) : Site := { s with nested := s.nested.filter Position.isAnnotated }

/-- Whether there is anything at a site: an annotation on it, a position within its type, or
a cast to be inserted. -/
def isBusy (s : Site) : Bool := s.isAnnotated || !s.nested.isEmpty || s.cast.isSome

/-- **What counts of sites**: those at which there is anything, with the annotated positions
within their types. -/
def gist (sites : List Site) : List Site := (sites.map trim).filter isBusy

@[simp] theorem gist_append (xs ys : List Site) : gist (xs ++ ys) = gist xs ++ gist ys := by
  unfold gist
  rw [List.map_append, List.filter_append]

theorem gist_cons (s : Site) (rest : List Site) : gist (s :: rest) = gist [s] ++ gist rest :=
  gist_append [s] rest

theorem gist_cons_congr {s s' : Site} {rest rest' : List Site} (h : gist [s] = gist [s'])
    (hrest : gist rest = gist rest') : gist (s :: rest) = gist (s' :: rest') := by
  rw [gist_cons, h, hrest, ← gist_cons]

theorem gist_flatMap {α : Type} (f : α → List Site) (xs : List α) :
    gist (xs.flatMap f) = xs.flatMap (fun x => gist (f x)) := by
  induction xs with
  | nil => rfl
  | cons x rest ih => rw [List.flatMap_cons, gist_append, ih, List.flatMap_cons]

end Site

namespace Draft

variable {ctx : Context}

/-- Without annotations there are no notes. -/
theorem notes_of_not_isAnnotated {p : Position} (h : p.isAnnotated = false) :
    ctx.formatter.notes p.criteria p.annotations = .ok [] := by
  have hnil : p.annotations = [] := by simpa [Position.isAnnotated] using h
  rw [hnil]
  rfl

/-- **A position without annotations** makes nothing. -/
theorem visitNested_of_not_isAnnotated {p : Position} (h : p.isAnnotated = false)
    (withhold : Bool) (d : Draft) : visitNested ctx withhold d p = .ok (d, []) := by
  have hcast : (Form.classify p.criteria.compose none).isCast = false :=
    Bool.eq_false_iff.mpr (fun h => by cases Form.isSome_of_isCast h)
  rw [visitNested, notes_of_not_isAnnotated h]
  revert hcast
  cases Form.classify p.criteria.compose none with
  | cast type => exact fun hcast => by cases hcast
  | _ => exact fun _ => rfl

/-- Positions without annotations may be left out. -/
theorem visitAllNested_filter (withhold : Bool) : ∀ (positions : List Position) (d : Draft),
    visitAllNested ctx withhold d (positions.filter Position.isAnnotated)
      = visitAllNested ctx withhold d positions
  | [], _ => rfl
  | p :: rest, d => by
    cases h : p.isAnnotated with
    | true =>
      rw [List.filter_cons_of_pos h, visitAllNested, visitAllNested]
      refine congrArg _ (funext fun ⟨e, ids⟩ => ?_)
      dsimp only
      rw [visitAllNested_filter withhold rest e]
    | false =>
      have hnot : ¬ p.isAnnotated = true := by simp [h]
      rw [List.filter_cons_of_neg hnot, visitAllNested_filter withhold rest d, visitAllNested,
        visitNested_of_not_isAnnotated h]
      show _ = visitAllNested ctx withhold d rest >>= fun r => pure (r.1, [] ++ r.2)
      exact (bind_pure _).symm

/-- **A visit does not depend on positions without annotations.** -/
theorem visit_trim (d : Draft) (s : Site) : visit ctx d s.trim = visit ctx d s := by
  rw [visit_eq, visit_eq]
  exact congrArg (· >>= fun r => visitOwn ctx s r.1 r.2)
    (visitAllNested_filter s.withholds s.nested d)

/-- **Nothing comes of a site at which there is nothing.** -/
theorem visit_of_not_isBusy {s : Site} (h : s.isBusy = false) (d : Draft) :
    visit ctx d s = .ok d := by
  simp only [Site.isBusy, Bool.or_eq_false_iff, Bool.not_eq_false', List.isEmpty_iff] at h
  obtain ⟨⟨hannotated, hnested⟩, hcast⟩ := h
  have hform : s.spot.form.isCast = false := by
    refine Bool.eq_false_iff.mpr (fun hform => ?_)
    rw [show s.cast.isSome = true from Form.isSome_of_isCast hform] at hcast
    cases hcast
  have hrelease : release s d [] = d := by
    unfold release
    split <;> rfl
  rw [visit_eq, hnested]
  show visitOwn ctx s d [] = .ok d
  rw [visitOwn, notes_of_not_isAnnotated hannotated, hrelease]
  revert hform
  cases s.spot.form with
  | cast type => exact fun hform => by cases hform
  | _ => exact fun _ => rfl

/-- **What comes of sites depends on their gist alone.** -/
theorem foldlM_gist : ∀ (sites : List Site) (d : Draft),
    (Site.gist sites).foldlM (visit ctx) d = sites.foldlM (visit ctx) d
  | [], _ => rfl
  | s :: rest, d => by
    rw [Site.gist, List.map_cons]
    cases h : s.trim.isBusy with
    | true =>
      rw [List.filter_cons_of_pos h, List.foldlM_cons, List.foldlM_cons, visit_trim]
      exact congrArg _ (funext fun e => foldlM_gist rest e)
    | false =>
      have hnot : ¬ s.trim.isBusy = true := by simp [h]
      rw [List.filter_cons_of_neg hnot, List.foldlM_cons, ← visit_trim, visit_of_not_isBusy h]
      exact foldlM_gist rest d

end Draft

end AnnotationPlan
